import CategoryLint.Proofs.Retention

/-!
# Failures that are no errors of the linter

A load answers if it returns a configuration or fails with an error of the linter's own, one of
the configuration (`Answers`). Where every overlay is a file, a load answers exactly if no stage
that it comes to breaks (`answers_iff`):

* an overlay breaks if the document in it is not UTF-8, has a scalar without a value or is too
  deep, or if it is too deep to be merged;
* a variable breaks if its text has no value, unless the setting is a text already;
* the check breaks if its message cannot be written, for it would show an integer with too many
  digits or a value that is nested too deep.

Whether a variable breaks depends on what it is written over. That is found like the place of the
write, through links (`Sharing.setting?`).
-/

namespace CategoryLint

open Override (newValue)

/-! ## What a variable is written over -/

namespace Override

variable {es : Entries} {seg raw : String} {path : List String} {old : Option Value}

/-- The setting at a path. -/
def setting? (es : Entries) : (path : List String) → Option Value
  | [] => none
  | [seg] => es.get? (resolve es seg)
  | seg :: path => setting? (container (es.get? (resolve es seg))) path

/-- The failure of a write that gives a setting a new value. -/
def failure? : Except CoercionError Value → Option Failure
  | .ok _ => none
  | .error e => some (.coercion e)

/-- A variable cannot be written if its setting is no text and its own text has no value. -/
theorem failure?_newValue_eq_some_iff [Limits] {failure : Failure} :
    failure? (newValue old raw) = some failure ↔
      old.any (·.isStr) = false ∧ ∃ e, Coercion.coerce raw = .error e ∧ failure = .coercion e := by
  rw [newValue]
  cases old.any (·.isStr) with
  | true => simp [failure?]
  | false =>
    cases Coercion.coerce raw with
    | ok v => simp [failure?]
    | error e => simp [failure?, eq_comm]

/-- A write fails as the value of the setting does. -/
theorem failure_set [Limits] (es : Entries) (seg : String) (path : List String) (raw : String) :
    (set es (seg :: path) raw).2 = failure? (newValue (setting? es (seg :: path)) raw) := by
  induction path generalizing es seg with
  | nil =>
    rw [set, setting?]
    split
    · next h => rw [h, failure?]
    · next h => rw [h, failure?]
  | cons next path ih =>
    rw [set_cons_cons, ih]
    rfl

end Override

namespace Sharing

variable {T : Objects} {es : Entries} {raw : String} {path rest : List String} {n : Nat}

/-- A path that comes to a link goes on in the object. -/
theorem exists_of_firstLink? (h : firstLink? es path = some (n, rest)) :
    ∃ seg segs, rest = seg :: segs := by
  fun_induction firstLink? es path with
  | case1 es seg next path m hm =>
    cases h
    exact ⟨next, path, rfl⟩
  | case2 es seg next path fs hfs ih => exact ih h
  | case3 => cases h
  | case4 => cases h

/-- The setting at a path, through links. -/
def setting? (T : Objects) (es : Entries) (path : List String) : Option Value :=
  match _h : firstLink? es path with
  | some (n, rest) => setting? T (T.getD n .null).entries rest
  | none => Override.setting? es path
termination_by path.length
decreasing_by exact length_lt_of_firstLink? _h

/-- Behind a link the setting is looked for in the object. -/
theorem setting?_of_link {m : Nat} (h : firstLink? es path = some (m, rest)) :
    setting? T es path = setting? T (T.getD m .null).entries rest := by
  rw [setting?]
  split
  · next h' =>
    cases h.symm.trans h'
    rfl
  · next h' => cases h.symm.trans h'

theorem setting?_of_no_link (h : firstLink? es path = none) :
    setting? T es path = Override.setting? es path := by
  rw [setting?]
  split
  · next h' => cases h.symm.trans h'
  · rfl

/-- A write into an object fails as its value does. -/
theorem failure_setIn [Limits] (T : Objects) (n : Nat) {path : List String} (raw : String)
    (hpath : ∃ seg segs, path = seg :: segs) :
    (setIn T n path raw).2 = Override.failure?
      (Override.newValue (setting? T (T.getD n .null).entries path) raw) := by
  fun_induction setIn T n path raw with
  | case1 n path es m rest hlink ih =>
    rw [ih (exists_of_firstLink? hlink), setting?_of_link hlink]
  | case2 n path es hnone fs failure hset =>
    obtain ⟨seg, segs, rfl⟩ := hpath
    rw [setting?_of_no_link hnone, ← Override.failure_set, hset]

/-- A write fails as the value of the setting does, also through links. -/
theorem failure_set [Limits] (c : Config) (seg : String) (path : List String) (raw : String) :
    (set c (seg :: path) raw).2 = Override.failure?
      (Override.newValue (setting? c.objects c.entries (seg :: path)) raw) := by
  rw [set]
  split
  · next n rest hlink =>
    rw [setting?_of_link hlink]
    exact failure_setIn c.objects n raw (exists_of_firstLink? hlink)
  · next hnone =>
    rw [setting?_of_no_link hnone]
    exact Override.failure_set c.entries seg path raw

end Sharing

/-! ## Stages that break -/

/-- A fault of the syntax, which is an error of the linter's own. -/
def Yaml.Fault.IsSyntactic : Fault → Prop
  | invalid | ended => True
  | _ => False

namespace Project

variable {w : Workspace} {root : Path} {strict : Bool} {c : Config} {s : Stage} {p : Path}

/-- A configuration, or an error of the linter's own on why there is none. -/
inductive Answers : Except Failure Config → Prop where
  /-- A configuration. -/
  | config (c : Config) : Answers (.ok c)
  /-- An error. -/
  | refusal (e : ConfigError) : Answers (.error (.config e))

/-- Of failures, only the linter's own errors are answers. -/
theorem answers_error_iff {e : Failure} : Answers (.error e) ↔ ∃ e', e = .config e' := by
  constructor
  · rintro ⟨⟩
    exact ⟨_, rfl⟩
  · rintro ⟨e', rfl⟩
    exact .refusal e'

theorem not_answers_messageError (e : MessageError) : ¬Answers (.error e.failure) := by
  rw [answers_error_iff]
  cases e <;> simp [MessageError.failure]

instance : DecidablePred Answers
  | .ok c => .isTrue (.config c)
  | .error (.config e) => .isTrue (.refusal e)
  | .error (.file _) | .error (.scalar _) | .error (.coercion _) | .error (.tooDeep _)
  | .error .unwritable | .error .emptyPath | .error .isDirectory | .error .pathTooLong
  | .error .noDirectory | .error .notUtf8 | .error (.malformedSchema _ _)
  | .error .sectionNotMapping => .isFalse nofun

/-- Of the faults of documents, only those of their syntax are answers. -/
theorem answers_faultFailure_iff {fault : Yaml.Fault} :
    Answers (.error (faultFailure p fault)) ↔ fault.IsSyntactic := by
  rw [answers_error_iff]
  cases fault <;> simp [faultFailure, Yaml.Fault.IsSyntactic]

theorem readMapping_of_file [Libraries] {T : Objects} {bytes : List UInt8}
    (h : w.lookup p = .found (.file bytes)) : readMapping w T p = readBytes T p bytes := by
  rw [readMapping, h]

section

variable [Limits] [Libraries]

/-- A stage breaks on a configuration. -/
inductive Breaks (w : Workspace) (strict : Bool) (c : Config) : Stage → Prop where
  /-- The document of an overlay cannot be read, and not on account of its syntax. -/
  | unread {p : Path} {bytes : List UInt8} {fault : Yaml.Fault} :
      w.lookup p = .found (.file bytes) →
      Libraries.readDocument c.objects bytes = .error fault → ¬fault.IsSyntactic →
      Breaks w strict c (.overlay p)
  /-- An overlay is too deep to be merged. -/
  | unmerged {p : Path} {es : Entries} {T : Objects} :
      readMapping w c.objects p = .ok (es, T) → T.merge c.entries es = none →
      Breaks w strict c (.overlay p)
  /-- The text of a variable has no value, and is to be more than a text. -/
  | uncoerced {tail raw seg : String} {path : List String} {e : CoercionError} :
      Override.readTail strict tail = .ok (seg :: path) →
      (Sharing.setting? c.objects c.entries (seg :: path)).any (·.isStr) = false →
      Coercion.coerce raw = .error e → Breaks w strict c (.override tail raw)
  /-- The message of the check cannot be written. -/
  | unwritten {e : MessageError} : strict = true → Schema.Unwritable c e →
      Breaks w strict c .check

/-- Every overlay is a file, and the path to the overlays is not too long. -/
structure RegularOverlays (w : Workspace) (root : Path) : Prop where
  /-- The path to the overlays. -/
  within : w.lookup (overlayDirectory root) ≠ .tooLong
  /-- The overlays. -/
  file : ∀ p ∈ overlayPaths w root, ∃ bytes, w.lookup p = .found (.file bytes)

/-- A stage that breaks fails with another error than those of the linter. -/
theorem exists_failure_of_breaks (h : Breaks w strict c s) :
    ∃ e, Stage.run w strict c s = .error e ∧ ¬Answers (.error e) := by
  cases h with
  | @unread p bytes fault hfile hread hfault =>
    refine ⟨faultFailure p fault, ?_, fun h => hfault (answers_faultFailure_iff.1 h)⟩
    rw [Stage.run, readMapping_of_file hfile, readBytes, hread]
    rfl
  | unmerged hread hmerge =>
    refine ⟨.tooDeep .merge, ?_, by simp [answers_error_iff]⟩
    rw [Stage.run, hread]
    change addLayer c _ = _
    rw [addLayer, hmerge]
  | @uncoerced tail raw seg path e hread hold hcoerce =>
    refine ⟨.coercion e, ?_, by simp [answers_error_iff]⟩
    rw [Stage.run, applyWith_singleton hread]
    refine finish_of_failure ?_
    rw [Sharing.failure_set, Override.failure?_newValue_eq_some_iff]
    exact ⟨hold, e, hcoerce, rfl⟩
  | @unwritten e hstrict hwritable =>
    obtain ⟨fault, hfault, hdescribe⟩ := hwritable
    refine ⟨e.failure, ?_, not_answers_messageError e⟩
    rw [Stage.run, hstrict, finish_strict_of_fault rfl hfault, Schema.refuse, hdescribe]

/-- An overlay that fails with another error breaks: its document cannot be read, or its mapping not
    be merged. -/
theorem breaks_of_overlay {e : Failure} {bytes : List UInt8}
    (hfile : w.lookup p = .found (.file bytes))
    (h : Stage.run w strict c (.overlay p) = .error e) (he : ¬Answers (.error e)) :
    Breaks w strict c (.overlay p) := by
  rw [Stage.run, readMapping_of_file hfile] at h
  cases hread : readBytes c.objects p bytes with
  | error e' =>
    rw [hread] at h
    cases h
    -- The bytes are no document, or one that is no mapping; the second is an answer.
    rw [readBytes] at hread
    split at hread
    · next fault hfault =>
      cases hread
      exact .unread hfile hfault fun h => he (answers_faultFailure_iff.2 h)
    · cases hread
    · split at hread
      · cases hread
      · cases hread
        exact absurd (.refusal _) he
  | ok r =>
    obtain ⟨es, T⟩ := r
    rw [hread] at h
    change addLayer c ⟨es, T⟩ = .error e at h
    rw [addLayer] at h
    split at h
    · next hmerge => exact .unmerged ((readMapping_of_file hfile).trans hread) hmerge
    · cases h

/-- A variable that fails with another error breaks: its text has no value. -/
theorem breaks_of_override {e : Failure} {tail raw : String}
    (h : Stage.run w strict c (.override tail raw) = .error e) (he : ¬Answers (.error e)) :
    Breaks w strict c (.override tail raw) := by
  rw [Stage.run] at h
  cases hread : Override.readTail strict tail with
  | error e' =>
    rw [Override.applyWith, hread] at h
    cases h
    exact absurd (.refusal e') he
  | ok path =>
    cases path with
    | nil =>
      rw [Override.applyWith, hread] at h
      cases h
    | cons seg path =>
      rw [applyWith_singleton hread, Sharing.failure_set] at h
      cases hfailure : Override.failure?
          (newValue (Sharing.setting? c.objects c.entries (seg :: path)) raw) with
      | none =>
        rw [hfailure] at h
        cases h
      | some failure =>
        obtain ⟨hold, e', hcoerce, -⟩ := Override.failure?_newValue_eq_some_iff.1 hfailure
        exact .uncoerced hread hold hcoerce

/-- A check that fails with another error breaks: its message cannot be written. -/
theorem breaks_of_check {e : Failure} (h : Stage.run w strict c .check = .error e)
    (he : ¬Answers (.error e)) : Breaks w strict c .check := by
  rw [Stage.run] at h
  cases strict with
  | false => cases h
  | true =>
    cases hfault : Schema.fault? c with
    | none =>
      rw [finish_strict_of_conforms rfl (Schema.fault?_eq_none_iff.1 hfault)] at h
      cases h
    | some fault =>
      rw [finish_strict_of_fault rfl hfault] at h
      rcases Schema.refuse_cases fault with ⟨e', hdescribe, -⟩ | ⟨e', hrefuse⟩
      · exact .unwritten rfl ⟨fault, hfault, hdescribe⟩
      · rw [hrefuse] at h
        cases h
        exact absurd (.refusal e') he

/-- A stage that fails with another error than those of the linter breaks. -/
theorem breaks_of_failure {e : Failure}
    (hfile : ∀ p, s = .overlay p → ∃ bytes, w.lookup p = .found (.file bytes))
    (h : Stage.run w strict c s = .error e) (he : ¬Answers (.error e)) : Breaks w strict c s := by
  cases s with
  | overlay p =>
    obtain ⟨bytes, hbytes⟩ := hfile p rfl
    exact breaks_of_overlay hbytes h he
  | override tail raw => exact breaks_of_override h he
  | check => exact breaks_of_check h he

/-! ## Loads that answer -/

/-- Where every overlay is a file, a load answers exactly if it comes to no stage that breaks. -/
theorem answers_iff (h : RegularOverlays w root) (strict : Bool) :
    Answers (load w root strict).result ↔
      ∀ before s after c, ComesTo w root strict before s after c → ¬Breaks w strict c s := by
  rw [result_eq_foldlM h.within]
  constructor
  · intro hanswers before s after c hcomes hbreaks
    -- The stages before it succeed, so the run fails as this one does.
    obtain ⟨e, hrun, he⟩ := exists_failure_of_breaks hbreaks
    rw [hcomes.foldlM_eq_error hrun] at hanswers
    exact he hanswers
  · intro hnone
    cases hresult : (stages w root).foldlM (Stage.run w strict) Packaged.defaults with
    | ok c => exact .config c
    | error e =>
      obtain ⟨before, s, after, c, hcomes, hrun⟩ := foldlM_eq_error_iff.1 hresult
      -- The load comes to the stage that fails, and one that fails with no answer breaks.
      refine Classical.byContradiction fun he => hnone before s after c hcomes ?_
      refine breaks_of_failure ?_ hrun he
      rintro p rfl
      exact h.file p (exists_overlays_before hcomes.steps).1

end

theorem regularOverlays_oneOverlay (bytes : List UInt8) (environment : List (String × String)) :
    RegularOverlays (oneOverlay bytes environment) ⟨1, []⟩ := by
  have hlookup : (oneOverlay bytes environment).lookup (overlayDirectory ⟨1, []⟩) =
      .found (.directory [("a.yml", .file bytes)]) := rfl
  refine ⟨by rw [hlookup]; exact nofun, fun p hp => ⟨bytes, ?_⟩⟩
  rw [overlayPaths, hlookup] at hp
  obtain ⟨name, hname, rfl⟩ := List.mem_map.1 hp
  obtain rfl : name = "a.yml" :=
    List.mem_singleton.1 (List.mem_of_mem_filter (List.mem_mergeSort.1 hname))
  rfl

/-- An overlay that is one byte, which is not UTF-8. -/
theorem answers_iff_oneOverlay :
    RegularOverlays (oneOverlay [0xFF] []) ⟨1, []⟩ ∧
      (Answers (load (oneOverlay [0xFF] []) ⟨1, []⟩ true).result ↔
        ∀ before s after c, ComesTo (oneOverlay [0xFF] []) ⟨1, []⟩ true before s after c →
          ¬Breaks (oneOverlay [0xFF] []) true c s) :=
  ⟨regularOverlays_oneOverlay _ _, answers_iff (regularOverlays_oneOverlay _ _) true⟩

/-- Three loads that do not answer: on a byte that is not UTF-8, on a month that does not exist,
    and on an integer after a character that is blank where texts are trimmed, but not where
    integers are read. -/
theorem not_answers :
    (RegularOverlays (oneOverlay [0xFF] []) ⟨1, []⟩ ∧
      ¬Answers (load (oneOverlay [0xFF] []) ⟨1, []⟩ true).result) ∧
    (RegularOverlays (oneOverlay "a: 2024-13-01".toUTF8.toList []) ⟨1, []⟩ ∧
      ¬Answers (load (oneOverlay "a: 2024-13-01".toUTF8.toList []) ⟨1, []⟩ true).result) ∧
    (RegularOverlays (oneOverlay [] [("PATTERNLINT_X", "\u001c5")]) ⟨1, []⟩ ∧
      ¬Answers (load (oneOverlay [] [("PATTERNLINT_X", "\u001c5")]) ⟨1, []⟩ true).result) := by
  refine ⟨⟨regularOverlays_oneOverlay _ _, ?_⟩, ⟨regularOverlays_oneOverlay _ _, ?_⟩,
    regularOverlays_oneOverlay _ _, ?_⟩
  all_goals decide +kernel

end Project

end CategoryLint
