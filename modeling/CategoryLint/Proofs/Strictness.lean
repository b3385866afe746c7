import CategoryLint.Proofs.BaseCategory

/-!
# Strict loading

A strict load refuses some of what a lenient one lets pass, and changes nothing: what it returns,
the lenient load returns too. It refuses names of variables that are no paths
(`Override.IsMalformed`) and configurations that the schema does not allow (`Schema.Conforms`),
and nothing else (`load_strict`).

Both loads write the same variables up to the first malformed name, which ends the strict one
while the lenient one passes over it (`exists_failure_applyWith`). The error is one of the
linter's own, unless its message cannot be written, for it would show an integer with too many
digits or a value that is nested too deep: then the load fails in writing it. An overlay with such
an integer is refused so (`load_strict_longInteger`).
-/

namespace CategoryLint

/-! ## Names of variables -/

namespace Override

/-- The rest of a variable's name is no path: it is empty, or a segment of it is. -/
def IsMalformed (tail : String) : Prop := tail = "" ∨ [] ∈ segments tail.toList

instance (tail : String) : Decidable (IsMalformed tail) := inferInstanceAs (Decidable (_ ∨ _))

/-- The error that a malformed name is. -/
def nameError (tail : String) : ConfigError := if tail = "" then .emptyTail else .emptySegment tail

variable {tail raw : String} {strict : Bool} {environment vars : List (String × String)}

theorem segments_ne_nil (cs : List Char) : segments cs ≠ [] := by
  rw [segments]
  split
  · exact Text.splitOnDouble_ne_nil _ _
  · exact Text.splitOn_ne_nil _ _

/-- A malformed name ends a strict load, and a lenient one passes over it. -/
theorem readTail_of_isMalformed (h : IsMalformed tail) :
    readTail true tail = .error (nameError tail) ∧ readTail false tail = .ok [] := by
  by_cases ht : tail = ""
  · simp [readTail, nameError, ht]
  · have hany : (segments tail.toList).any (·.isEmpty) = true :=
      List.any_eq_true.2 ⟨[], h.resolve_left ht, rfl⟩
    simp [readTail, nameError, parsePath, ht, hany]

/-- A name that is a path is read alike by both loads. -/
theorem readTail_of_not_isMalformed (h : ¬IsMalformed tail) :
    ∃ seg path, ∀ strict, readTail strict tail = .ok (seg :: path) := by
  obtain ⟨hne, hmem⟩ := not_or.1 h
  obtain ⟨seg, segs, hsegs⟩ := List.exists_cons_of_ne_nil (segments_ne_nil tail.toList)
  have hany : (segments tail.toList).any (·.isEmpty) = false := by
    rw [List.any_eq_false]
    exact fun part hpart hempty => hmem (List.isEmpty_iff.1 hempty ▸ hpart)
  refine ⟨String.ofList seg, segs.map String.ofList, fun strict => ?_⟩
  rw [readTail, if_neg hne, parsePath, hany, hsegs]
  rfl

theorem mem_ofEnvironment :
    (tail, raw) ∈ ofEnvironment environment ↔ (variableStem ++ tail, raw) ∈ environment := by
  rw [ofEnvironment, List.mem_filterMap]
  constructor
  · rintro ⟨⟨name, raw'⟩, hmem, h⟩
    obtain ⟨tail', htail, heq⟩ := Option.map_eq_some_iff.1 h
    cases heq
    exact tail?_eq_some_iff.1 htail ▸ List.mem_mergeSort.1 hmem
  · intro hmem
    refine ⟨(variableStem ++ tail, raw), List.mem_mergeSort.2 hmem, ?_⟩
    simp only [tail?_eq_some_iff.2 rfl, Option.map_some]

/-! ## Writing variables -/

variable {σ : Type} {c : σ} {write : σ → List String → String → σ × Option Failure}

/-- A variable that cannot be written is the last. -/
theorem applyWith_cons_of_failure {c' : σ} {seg : String} {path : List String} {failure : Failure}
    (h : readTail strict tail = .ok (seg :: path))
    (hwrite : write c (seg :: path) raw = (c', some failure)) :
    applyWith write strict c ((tail, raw) :: vars) = ⟨c', [seg :: path], some failure⟩ := by
  rw [applyWith, h]
  simp only [hwrite]

/-- After a variable that is written, the others go on from there. -/
theorem applyWith_cons_of_success {c' : σ} {seg : String} {path : List String}
    (h : readTail strict tail = .ok (seg :: path))
    (hwrite : write c (seg :: path) raw = (c', none)) :
    applyWith write strict c ((tail, raw) :: vars) =
      { applyWith write strict c' vars with
        paths := (seg :: path) :: (applyWith write strict c' vars).paths } := by
  rw [applyWith, h]
  simp only [hwrite]

/-- A variable whose name is passed over changes nothing. -/
theorem applyWith_cons_of_passed (h : readTail strict tail = .ok []) :
    applyWith write strict c ((tail, raw) :: vars) = applyWith write strict c vars := by
  rw [applyWith, h]

/-- A run comes to a variable: those before it have been applied and have made `d`. -/
inductive Attempts (write : σ → List String → String → σ × Option Failure) (strict : Bool) (c : σ)
    (vars : List (String × String)) (d : σ) (path : List String) (raw : String) : Prop where
  /-- The variables before it, and those after it. -/
  | intro (before after : List (String × String)) (tail : String) :
      vars = before ++ (tail, raw) :: after → (applyWith write strict c before).failure = none →
      (applyWith write strict c before).config = d → readTail strict tail = .ok path →
      path ≠ [] → Attempts write strict c vars d path raw

namespace Attempts

variable {d : σ} {path : List String} {raw' : String}

/-- A first variable that is a path is attempted where it is met. -/
theorem head (h : readTail strict tail = .ok path) (hpath : path ≠ []) :
    Attempts write strict c ((tail, raw) :: vars) c path raw :=
  .intro [] vars tail rfl rfl rfl h hpath

/-- A name that is passed over changes nothing before the attempts after it. -/
theorem cons_of_passed (h : Attempts write strict c vars d path raw)
    (htail : readTail strict tail = .ok []) :
    Attempts write strict c ((tail, raw') :: vars) d path raw := by
  obtain ⟨before, after, tail', rfl, hnone, hd, hread, hpath⟩ := h
  refine .intro ((tail, raw') :: before) after tail' rfl ?_ ?_ hread hpath
  · rwa [applyWith_cons_of_passed htail]
  · rwa [applyWith_cons_of_passed htail]

/-- A write that succeeds comes before the attempts after it. -/
theorem cons_of_success {c' : σ} {seg : String} {segs : List String}
    (h : Attempts write strict c' vars d path raw)
    (htail : readTail strict tail = .ok (seg :: segs))
    (hwrite : write c (seg :: segs) raw' = (c', none)) :
    Attempts write strict c ((tail, raw') :: vars) d path raw := by
  obtain ⟨before, after, tail', rfl, hnone, hd, hread, hpath⟩ := h
  refine .intro ((tail, raw') :: before) after tail' rfl ?_ ?_ hread hpath
  · rwa [applyWith_cons_of_success htail hwrite]
  · rwa [applyWith_cons_of_success htail hwrite]

end Attempts

/-- What every write that a run comes to keeps holds at its end, also if the last one fails. -/
theorem applyWith_preserves {P : σ → Prop} (hc : P c)
    (h : ∀ d path raw, Attempts write strict c vars d path raw → P d → P (write d path raw).1) :
    P (applyWith write strict c vars).config := by
  induction vars generalizing c with
  | nil => exact hc
  | cons v vars ih =>
    obtain ⟨tail, raw⟩ := v
    cases hread : readTail strict tail with
    | error e =>
      rw [applyWith, hread]
      exact hc
    | ok path =>
      cases path with
      | nil =>
        rw [applyWith_cons_of_passed hread]
        exact ih hc fun d path raw hd => h d path raw (hd.cons_of_passed hread)
      | cons seg path =>
        have hwritten : P (write c (seg :: path) raw).1 :=
          h c _ raw (.head hread (List.cons_ne_nil _ _)) hc
        rcases hwrite : write c (seg :: path) raw with ⟨c', _ | failure⟩
        · rw [hwrite] at hwritten
          rw [applyWith_cons_of_success hread hwrite]
          exact ih hwritten fun d path raw hd => h d path raw (hd.cons_of_success hread hwrite)
        · rw [hwrite] at hwritten
          rwa [applyWith_cons_of_failure hread hwrite]

/-- A strict load that meets no malformed name goes like a lenient one. -/
theorem applyWith_strict_eq (h : ∀ v ∈ vars, ¬IsMalformed v.1) :
    applyWith write true c vars = applyWith write false c vars := by
  induction vars generalizing c with
  | nil => rfl
  | cons v vars ih =>
    obtain ⟨tail, raw⟩ := v
    rw [List.forall_mem_cons] at h
    obtain ⟨seg, path, hpath⟩ := readTail_of_not_isMalformed h.1
    -- No name is passed over, so both runs write it, and end if the write fails.
    rcases hwrite : write c (seg :: path) raw with ⟨c', _ | failure⟩
    · rw [applyWith_cons_of_success (hpath true) hwrite,
        applyWith_cons_of_success (hpath false) hwrite, ih h.2]
    · rw [applyWith_cons_of_failure (hpath true) hwrite,
        applyWith_cons_of_failure (hpath false) hwrite]

/-- A malformed name ends a strict load, unless a variable before it ends both. -/
theorem exists_failure_applyWith (h : ∃ v ∈ vars, IsMalformed v.1) :
    (∃ e, (applyWith write true c vars).failure = some (.config e)) ∨
      ∃ failure, (applyWith write true c vars).failure = some failure ∧
        (applyWith write false c vars).failure = some failure := by
  induction vars generalizing c with
  | nil => simp at h
  | cons v vars ih =>
    obtain ⟨tail, raw⟩ := v
    by_cases htail : IsMalformed tail
    · refine .inl ⟨nameError tail, ?_⟩
      rw [applyWith, (readTail_of_isMalformed htail).1]
    · -- Both write the variable, and the malformed name is among those after it.
      obtain ⟨seg, path, hpath⟩ := readTail_of_not_isMalformed htail
      have hrest : ∃ v ∈ vars, IsMalformed v.1 := by simpa [htail] using h
      rcases hwrite : write c (seg :: path) raw with ⟨c', _ | failure⟩
      · rw [applyWith_cons_of_success (hpath true) hwrite,
          applyWith_cons_of_success (hpath false) hwrite]
        exact ih hrest
      · rw [applyWith_cons_of_failure (hpath true) hwrite,
          applyWith_cons_of_failure (hpath false) hwrite]
        exact .inr ⟨failure, rfl, rfl⟩

end Override

/-! ## The schema -/

namespace Schema

/-- A configuration that the schema allows: its section on patterns, if there is one, is a
    mapping, and the base category in it is absent, no value, or a text. -/
def Conforms (c : Config) : Prop :=
  ∀ v, c.get? (.str "patterns") = some v →
    ∃ es : Entries, v = .mapping es ∧ Allows (es.get? baseKey)

theorem fault?_eq_none_iff {c : Config} : fault? c = none ↔ Conforms c := by
  cases hv : c.get? (.str "patterns") with
  | none =>
    have hnone : c.entries.get? (.str "patterns") = none := Option.map_eq_none_iff.1 hv
    simp [fault?, Conforms, hnone, hv]
  | some v =>
    obtain ⟨pv, hpv, hfollow⟩ := Option.map_eq_some_iff.1 hv
    cases v with
    | mapping es =>
      rw [fault?_of_get?_eq_mapping hv, sectionFault?_eq_none_iff, Conforms, hv]
      constructor
      · rintro hallows v ⟨⟩
        exact ⟨es, rfl, hallows⟩
      · intro h
        obtain ⟨es', heq, hallows⟩ := h _ rfl
        cases heq
        exact hallows
    | _ =>
      have hentries : c.objects.entries? pv = none := by rw [Objects.entries?, hfollow]
      simp [fault?, Conforms, hpv, hv, hentries]

/-- The message about what the schema does not allow cannot be written, and why. -/
def Unwritable [Libraries] (c : Config) (e : MessageError) : Prop :=
  ∃ fault, fault? c = some fault ∧ Libraries.describe fault = .error e

/-- A refusal is an error of the linter's own, unless its message cannot be written. -/
theorem refuse_cases [Libraries] (fault : SchemaFault) :
    (∃ e, Libraries.describe fault = .error e ∧ refuse name fault = e.failure) ∨
      ∃ e, refuse name fault = .config e := by
  rw [refuse]
  cases Libraries.describe fault with
  | error e => exact .inl ⟨e, rfl, rfl⟩
  | ok message => exact .inr ⟨_, rfl⟩

end Schema

/-! ## Loading -/

namespace Project

variable {w : Workspace} {root : Path} {c c₀ : Config}

/-- The names of all overriding variables are paths: none is empty after the prefix, and no
    segment is. -/
def WellNamed (w : Workspace) : Prop :=
  ∀ e ∈ w.environment, ∀ tail, e.1 = variableStem ++ tail → ¬Override.IsMalformed tail

/-- Names are well formed exactly if none of the rests after the stem is malformed. -/
theorem wellNamed_iff :
    WellNamed w ↔ ∀ v ∈ Override.ofEnvironment w.environment, ¬Override.IsMalformed v.1 := by
  constructor
  · rintro h ⟨tail, raw⟩ hv
    exact h _ (Override.mem_ofEnvironment.1 hv) tail rfl
  · rintro h ⟨name, raw⟩ he tail rfl
    exact h (tail, raw) (Override.mem_ofEnvironment.2 he)

/-! ### The end of a load -/

section

variable [Libraries] {applied : Override.Applied Config} {strict : Bool}

theorem finish_of_failure {e : Failure} (h : applied.failure = some e) :
    finish strict applied = .error e := by
  rw [finish, h]

theorem finish_lenient_eq_ok_iff :
    finish false applied = .ok c ↔ applied.failure = none ∧ applied.config = c := by
  cases h : applied.failure with
  | some e => simp [finish_of_failure h]
  | none => simp [finish, h]

theorem finish_strict_of_conforms (h : applied.failure = none)
    (hc : Schema.Conforms applied.config) : finish true applied = .ok applied.config := by
  rw [finish, h, Schema.validate, Schema.fault?_eq_none_iff.2 hc]
  rfl

theorem finish_strict_of_fault {fault : SchemaFault} (h : applied.failure = none)
    (hc : Schema.fault? applied.config = some fault) :
    finish true applied = .error (Schema.refuse Schema.name fault) := by
  rw [finish, h, Schema.validate, hc]
  rfl

/-- The check only refuses. -/
theorem finish_lenient_of_strict (h : finish true applied = .ok c) :
    finish false applied = .ok c := by
  cases hfailure : applied.failure with
  | some e =>
    rw [finish_of_failure hfailure] at h
    cases h
  | none =>
    cases hfault : Schema.fault? applied.config with
    | some fault =>
      rw [finish_strict_of_fault hfailure hfault] at h
      cases h
    | none =>
      rw [finish_strict_of_conforms hfailure (Schema.fault?_eq_none_iff.1 hfault)] at h
      exact finish_lenient_eq_ok_iff.2 ⟨hfailure, Except.ok.inj h⟩

/-! ### Both loads -/

variable [Limits]

/-- What the variables make of the files' configuration in a lenient load. -/
def written (w : Workspace) (c : Config) : Override.Applied Config :=
  Override.applyWith Sharing.set false c (Override.ofEnvironment w.environment)

theorem result_lenient (h : fromFiles w root = .ok c₀) :
    (load w root false).result = finish false (written w c₀) := by
  rw [result_load, h]
  rfl

/-- With names that are paths, a strict load writes the same. -/
theorem result_of_wellNamed (h : fromFiles w root = .ok c₀) (hnames : WellNamed w) :
    (load w root true).result = finish true (written w c₀) := by
  rw [result_load, h, written, ← Override.applyWith_strict_eq (wellNamed_iff.1 hnames)]
  rfl

/-- With a malformed name, a strict load fails at the name, or as a lenient one does. -/
theorem result_of_not_wellNamed (h : fromFiles w root = .ok c₀) (hnames : ¬WellNamed w) :
    (∃ e, (load w root true).result = .error (.config e)) ∨
      ∃ failure, (load w root true).result = .error failure ∧
        (written w c₀).failure = some failure := by
  have hresult : (load w root true).result = finish true
      (Override.applyWith Sharing.set true c₀ (Override.ofEnvironment w.environment)) := by
    rw [result_load, h]
    rfl
  have hexists : ∃ v ∈ Override.ofEnvironment w.environment, Override.IsMalformed v.1 := by
    simpa [wellNamed_iff] using hnames
  rcases Override.exists_failure_applyWith hexists with
    ⟨e, he⟩ | ⟨failure, hstrict, hlenient⟩
  · exact .inl ⟨e, hresult.trans (finish_of_failure he)⟩
  · exact .inr ⟨failure, hresult.trans (finish_of_failure hstrict), hlenient⟩

theorem exists_of_load_eq_ok (h : (load w root strict).result = .ok c) :
    ∃ c₀, fromFiles w root = .ok c₀ := by
  rw [result_load] at h
  obtain ⟨c₀, hc₀, -⟩ := bind_eq_ok_iff.1 h
  exact ⟨c₀, hc₀⟩

/-- What a strict load ends with, the lenient load ends with too: a strict run that meets no
    malformed name is the lenient run. -/
theorem load_lenient_of_strict (h : (load w root true).result = .ok c) :
    (load w root false).result = .ok c := by
  obtain ⟨c₀, hc₀⟩ := exists_of_load_eq_ok h
  by_cases hnames : WellNamed w
  · rw [result_of_wellNamed hc₀ hnames] at h
    rw [result_lenient hc₀]
    exact finish_lenient_of_strict h
  · rcases result_of_not_wellNamed hc₀ hnames with ⟨e, he⟩ | ⟨failure, he, -⟩
    · rw [he] at h
      cases h
    · rw [he] at h
      cases h

/-- What a strict load does where a lenient one returns a configuration. -/
structure StrictLoad (w : Workspace) (root : Path) (c : Config) : Prop where
  /-- It returns the same. -/
  accepted : WellNamed w → Schema.Conforms c → (load w root true).result = .ok c
  /-- It refuses a malformed name, or a configuration that the schema does not allow. -/
  refused : ¬(WellNamed w ∧ Schema.Conforms c) → ¬(WellNamed w ∧ ∃ e, Schema.Unwritable c e) →
    ∃ e, (load w root true).result = .error (.config e)
  /-- It fails in telling why it refuses the configuration. -/
  unwritable : ∀ e, WellNamed w → Schema.Unwritable c e →
    (load w root true).result = .error e.failure

/-- A strict load after a lenient one that ended with `c`: the names decide the run, and if all are
    well formed, `c` is what the schema is asked about. -/
theorem strictLoad_of_lenient (h : (load w root false).result = .ok c) : StrictLoad w root c := by
  obtain ⟨c₀, hc₀⟩ := exists_of_load_eq_ok h
  rw [result_lenient hc₀] at h
  obtain ⟨hfailure, rfl⟩ := finish_lenient_eq_ok_iff.1 h
  refine ⟨fun hnames hc => ?_, fun hnot hwritable => ?_, fun e hnames hc => ?_⟩
  · rw [result_of_wellNamed hc₀ hnames, finish_strict_of_conforms hfailure hc]
  · by_cases hnames : WellNamed w
    · -- The names are paths, so it is the schema that refuses, and its message can be written.
      have hfault : Schema.fault? (written w c₀).config ≠ none := fun hnone =>
        hnot ⟨hnames, Schema.fault?_eq_none_iff.1 hnone⟩
      obtain ⟨fault, hfault⟩ := Option.ne_none_iff_exists'.1 hfault
      rw [result_of_wellNamed hc₀ hnames, finish_strict_of_fault hfailure hfault]
      rcases Schema.refuse_cases fault with ⟨e, hdescribe, -⟩ | ⟨e, hrefuse⟩
      · exact absurd ⟨hnames, e, fault, hfault, hdescribe⟩ hwritable
      · exact ⟨e, congrArg Except.error hrefuse⟩
    · rcases result_of_not_wellNamed hc₀ hnames with he | ⟨failure, -, hlenient⟩
      · exact he
      · rw [hfailure] at hlenient
        cases hlenient
  · obtain ⟨fault, hfault, hdescribe⟩ := hc
    rw [result_of_wellNamed hc₀ hnames, finish_strict_of_fault hfailure hfault, Schema.refuse,
      hdescribe]

/-- A strict load returns what a lenient one does or fails, and it fails exactly if a name is
    malformed or the schema does not allow what a lenient load returns. -/
theorem load_strict (w : Workspace) (root : Path) :
    (∀ c, (load w root true).result = .ok c → (load w root false).result = .ok c) ∧
      ∀ c, (load w root false).result = .ok c → StrictLoad w root c :=
  ⟨fun _ => load_lenient_of_strict, fun _ => strictLoad_of_lenient⟩

end

/-- A project with a variable whose name has an empty segment. -/
def malformedName : Workspace where
  files := .directory []
  current := []
  environment := [("PATTERNLINT_A____B", "x")]

/-- A name with an empty segment is refused by the strict load alone. -/
theorem load_strict_malformedName :
    (load malformedName ⟨1, []⟩ false).result = .ok Packaged.defaults ∧
      ∃ e, (load malformedName ⟨1, []⟩ true).result = .error (.config e) := by
  have hlenient : (load malformedName ⟨1, []⟩ false).result = .ok Packaged.defaults := by
    have hfiles : fromFiles malformedName ⟨1, []⟩ = .ok Packaged.defaults := rfl
    have hvars : Override.ofEnvironment malformedName.environment = [("A____B", "x")] := by
      decide +kernel
    rw [result_lenient hfiles, written, hvars]
    rfl
  have hnames : ¬WellNamed malformedName := fun h =>
    h _ List.mem_cons_self "A____B" (by decide) (by decide)
  exact ⟨hlenient, ((load_strict malformedName ⟨1, []⟩).2 _ hlenient).refused
    (fun h => hnames h.1) fun h => hnames h.1⟩

end Project

/-! ## Overlays with one scalar -/

namespace Yaml

open Make

variable {text : TextValue} {s : Scalar}

/-- The tokens of an overlay that has nothing but a scalar for the base category. -/
def baseTokens (text : TextValue) : List Token :=
  [.blockMappingStart, .key, .scalar "patterns" true, .value, .blockMappingStart, .key,
    .scalar "baseCategory" true, .value, .scalar text true, .blockEnd, .blockEnd]

/-- The nodes of such an overlay: the mapping, its section on patterns, and their scalars. -/
def baseNodes (text : TextValue) : Nodes :=
  #[⟨.map, .mapping [(1, 2)]⟩, ⟨.str, .scalar "patterns"⟩, ⟨.map, .mapping [(3, 4)]⟩,
    ⟨.str, .scalar "baseCategory"⟩, ⟨Tag.ofText text, .scalar text⟩]

/-- The section on patterns that has nothing but a scalar for the base category. -/
def baseSection (s : Scalar) : Value := .mapping [(.str "baseCategory", .scalar s)]

/-- The objects of such an overlay, with one for its section on patterns. -/
def baseObjects (patterns : Value) : Objects :=
  #[.mapping [(.str "patterns", .link .mapping 2)], .null, patterns, .null, .null]

/-- How far such an overlay has been made when its section is filled: the values of the section's
    scalars come last. -/
def baseMaking (text : TextValue) (patterns : Value) (key base : Option Value) : Making where
  nodes := baseNodes text
  base := 0
  objects := baseObjects patterns
  values := #[some (.link .mapping 0), some (.scalar (.str "patterns")), some (.link .mapping 2),
    key, base]
  met := #[0, 2]

theorem ofTokens_baseTokens (text : TextValue) :
    Graph.ofTokens (baseTokens text) = .ok (some ⟨baseNodes text, 0⟩) := by
  with_unfolding_all rfl

/-- The scalar for the base category is made from its text, and its node is remembered. -/
theorem run_value_base (h : (Tag.ofText text).scalar 5 text = .ok s)
    (hshape : (Tag.ofText text).shape? = none) (key : Option Value) :
    (value 4).run (baseMaking text .null key none) =
      .ok (.scalar s, baseMaking text .null key (some (.scalar s))) := by
  have hscalar :
      scalarValue (baseMaking text .null key none) (Tag.ofText text) 4 = .ok (.scalar s) := by
    rw [scalarValue]
    refine bind_eq_ok_iff.2 ⟨text, rfl, ?_⟩
    rw [if_neg (fun h => by cases h.2)]
    exact congrArg (Except.map Value.scalar) h
  have hnode : (baseMaking text .null key none).nodes[4]? =
      some ⟨Tag.ofText text, .scalar text⟩ := rfl
  have hnew : (baseMaking text .null key none).values.getD 4 none = none := rfl
  rw [value]
  refine run_bind_eq_ok_iff.2 ⟨_, _, rfl, ?_⟩
  simp only [hnode, hnew, hshape]
  exact run_bind_eq_ok_iff.2 ⟨_, _, run_lift_eq_ok_iff.2 ⟨_, hscalar, rfl⟩, rfl⟩

/-- The section is filled with its one key and the scalar. -/
theorem run_fill_base (h : (Tag.ofText text).scalar 5 text = .ok s)
    (hshape : (Tag.ofText text).shape? = none) :
    (fill 2).run (baseMaking text .null none none) =
      .ok ((), baseMaking text (baseSection s) (some (.scalar (.str "baseCategory")))
        (some (.scalar s))) := by
  have hentries : (entries [] [(3, 4)]).run (baseMaking text .null none none) =
      .ok ([(.str "baseCategory", .scalar s)], baseMaking text .null
        (some (.scalar (.str "baseCategory"))) (some (.scalar s))) := by
    rw [entries]
    refine run_bind_eq_ok_iff.2 ⟨.scalar (.str "baseCategory"), _, rfl, ?_⟩
    exact run_bind_eq_ok_iff.2 ⟨_, _, run_value_base h hshape _, rfl⟩
  have hmapping : (mapping 2).run (baseMaking text .null none none) =
      .ok ([(.str "baseCategory", .scalar s)], baseMaking text .null
        (some (.scalar (.str "baseCategory"))) (some (.scalar s))) := by
    rw [mapping]
    refine run_bind_eq_ok_iff.2 ⟨_, _, rfl, ?_⟩
    refine run_bind_eq_ok_iff.2 ⟨baseNodes text, _, run_lift_eq_ok_iff.2 ⟨_, ?_, rfl⟩, ?_⟩
    · with_unfolding_all rfl
    · exact run_bind_eq_ok_iff.2 ⟨_, _, rfl, hentries⟩
  rw [fill]
  refine run_bind_eq_ok_iff.2 ⟨_, _, rfl, ?_⟩
  exact run_bind_eq_ok_iff.2 ⟨_, _, run_bind_eq_ok_iff.2 ⟨_, _, hmapping, rfl⟩, rfl⟩

/-- The value of such a graph has one object for the whole and one for the section. -/
theorem value_baseNodes (h : (Tag.ofText text).scalar 5 text = .ok s)
    (hshape : (Tag.ofText text).shape? = none) :
    (Graph.mk (baseNodes text) 0).value #[] =
      .ok (.link .mapping 0, baseObjects (baseSection s)) := by
  rw [Graph.value]
  refine bind_eq_ok_iff.2 ⟨_, rfl, bind_eq_ok_iff.2 ⟨((), baseMaking text (baseSection s)
    (some (.scalar (.str "baseCategory"))) (some (.scalar s))), ?_, rfl⟩⟩
  -- The mapping is filled first, and then its section, which was met in it.
  change (fillFrom 5 0).run _ = _
  rw [fillFrom]
  refine run_bind_eq_ok_iff.2 ⟨_, _, rfl, ?_⟩
  refine run_bind_eq_ok_iff.2 ⟨(), baseMaking text .null none none, by with_unfolding_all rfl, ?_⟩
  rw [fillFrom]
  refine run_bind_eq_ok_iff.2 ⟨_, _, rfl, ?_⟩
  exact run_bind_eq_ok_iff.2 ⟨(), _, run_fill_base h hshape, rfl⟩

/-- The value of a document with these tokens. -/
theorem readDocument_of_tokens {bytes : List UInt8} {cs : List Char}
    (hsource : Source.ofBytes bytes = ⟨cs, none⟩) (htokens : Token.ofText none cs = baseTokens text)
    (hscalar : (Tag.ofText text).scalar 5 text = .ok s)
    (hshape : (Tag.ofText text).shape? = none) :
    Libraries.readDocument #[] bytes = .ok (.link .mapping 0, baseObjects (baseSection s)) := by
  change Yaml.read #[] (Source.ofBytes bytes) = _
  rw [Yaml.read, hsource]
  refine bind_eq_ok_iff.2 ⟨some ⟨baseNodes text, 0⟩, ?_, value_baseNodes hscalar hshape⟩
  rw [htokens, ofTokens_baseTokens]

/-! ## Integers with many digits -/

theorem takeDigits_replicate (n : Nat) :
    Integer.takeDigits 16 (List.replicate n 'f') = (List.replicate n 15, []) := by
  induction n with
  | zero => rfl
  | succ n ih =>
    have hdigit : Integer.digitValue? 16 'f' = some 15 := by decide +kernel
    simp only [List.replicate_succ, Integer.takeDigits, hdigit, ih]

theorem read_replicate (n : Nat) :
    Integer.read 16 (.ofPoints ((List.replicate (n + 1) 'f').map .char)) =
      .ok (Text.digitsToNat 16 (List.replicate (n + 1) 15)) := by
  have hchars : ((TextValue.ofPoints ((List.replicate (n + 1) 'f').map .char)).points.map
      CodePoint.shown).dropWhile Text.isNumberSpace = List.replicate (n + 1) 'f' := by
    rw [TextValue.ofPoints_map_char, TextValue.points, String.toList_ofList, List.map_replicate,
      List.map_replicate, List.replicate_succ]
    exact List.dropWhile_cons_of_neg (by decide +kernel)
  have hsign : Decimal.takeSign (List.replicate (n + 1) 'f') =
      (false, List.replicate (n + 1) 'f') := rfl
  have hmark :
      Integer.dropBaseMark 16 (List.replicate (n + 1) 'f') = List.replicate (n + 1) 'f' := rfl
  simp only [Integer.read, hchars, hsign, hmark, takeDigits_replicate]
  simp

/-- An integer in base sixteen can have any number of digits. -/
theorem readInt_replicate (n : Nat) :
    readInt (.plain (String.ofList ('0' :: 'x' :: List.replicate (n + 1) 'f'))) =
      .ok (Text.digitsToNat 16 (List.replicate (n + 1) 15)) := by
  have hpoints : dropGaps (.plain (String.ofList ('0' :: 'x' :: List.replicate (n + 1) 'f'))) =
      .char '0' :: .char 'x' :: (List.replicate (n + 1) 'f').map .char := by
    rw [dropGaps, TextValue.points, String.toList_ofList]
    simp
  rw [readInt, hpoints]
  change (readBase 16 ((List.replicate (n + 1) 'f').map .char)).map _ = _
  rw [readBase, read_replicate]
  rfl

/-- The text of an integer that has more than 4300 digits in base ten. -/
def longText : List Char := '0' :: 'x' :: List.replicate 3600 'f'

/-- The integer. -/
def longScalar : Scalar := .int (Text.digitsToNat 16 (List.replicate 3600 15))

/-- The bytes of an overlay with the integer for the base category. -/
def longBytes : List UInt8 :=
  "patterns:\n  baseCategory: 0x".toUTF8.toList ++ List.replicate 3600 0x66

/-- The text is an integer's: no word for a truth value, and no float. -/
theorem ofText_longText : Tag.ofText (.plain (String.ofList longText)) = .int := by
  -- The strings are compared as lists: to compare their bytes takes minutes.
  have hbreak : dropLastBreak (String.ofList longText) = String.ofList longText := by
    rw [dropLastBreak, String.toList_ofList]
    exact if_neg fun h => absurd h.1 (by decide +kernel)
  have hwords : boolWords.contains (String.ofList longText) = false := by
    rw [← Bool.not_eq_true, List.contains_iff_mem]
    intro hmem
    have hshort : ∀ word ∈ boolWords, word.toList.length ≤ 5 := by decide +kernel
    have hlength := hshort _ hmem
    rw [String.toList_ofList] at hlength
    exact absurd hlength (by decide +kernel)
  have hfloat : looksFloat longText = false := by decide +kernel
  have hint : looksInt longText = true := by decide +kernel
  simp only [Tag.ofText, hbreak, hwords, String.toList_ofList, hfloat, hint]
  rfl

set_option maxRecDepth 20000 in
/-- The overlay is read as a section on patterns with the integer. -/
theorem readDocument_longBytes : Libraries.readDocument #[] longBytes =
    .ok (.link .mapping 0, baseObjects (baseSection longScalar)) := by
  have hsource : Source.ofBytes longBytes =
      ⟨"patterns:\n  baseCategory: ".toList ++ longText, none⟩ := by
    with_unfolding_all rfl
  have htokens : Token.ofText none ("patterns:\n  baseCategory: ".toList ++ longText) =
      baseTokens (.plain (String.ofList longText)) := by
    with_unfolding_all rfl
  refine readDocument_of_tokens hsource htokens ?_ (by rw [ofText_longText]; rfl)
  rw [ofText_longText, Tag.scalar, longText, readInt_replicate 3599]
  rfl

end Yaml

namespace Project

/-- A project with one overlay, by its bytes, and variables. -/
def oneOverlay (bytes : List UInt8) (environment : List (String × String)) : Workspace where
  files := .directory [(".patternlint", .directory [("config", .directory
    [("a.yml", .file bytes)])])]
  current := []
  environment

/-- The defaults with another scalar for the base category. -/
def onlyBase (s : Scalar) : Config where
  entries := [(.str "patterns", Yaml.baseSection s)]
  objects := Yaml.baseObjects (Yaml.baseSection s)

/-- A project's one overlay replaces the base category of the defaults. -/
theorem fromFiles_oneOverlay {bytes : List UInt8} {environment : List (String × String)}
    {s : Scalar} (hread : Libraries.readDocument #[] bytes =
      .ok (.link .mapping 0, Yaml.baseObjects (Yaml.baseSection s))) :
    fromFiles (oneOverlay bytes environment) ⟨1, []⟩ = .ok (onlyBase s) := by
  have hdirectory : (oneOverlay bytes environment).lookup (overlayDirectory ⟨1, []⟩) =
      .found (.directory [("a.yml", .file bytes)]) := rfl
  have hpaths : filesEnding (.directory [("a.yml", .file bytes)]) (overlayDirectory ⟨1, []⟩)
      ".yml" = [(overlayDirectory ⟨1, []⟩).child "a.yml"] := by
    have hending : ["a.yml"].filter (fun n => ".yml".toList.isSuffixOf n.toList) = ["a.yml"] := by
      decide +kernel
    change ((["a.yml"].filter _).mergeSort _).map _ = _
    rw [hending, List.mergeSort_singleton]
    rfl
  have hfile : (oneOverlay bytes environment).lookup ((overlayDirectory ⟨1, []⟩).child "a.yml") =
      .found (.file bytes) := rfl
  have hmapping : readMapping (oneOverlay bytes environment) #[]
      ((overlayDirectory ⟨1, []⟩).child "a.yml") =
      .ok ([(.str "patterns", .link .mapping 2)],
        Yaml.baseObjects (Yaml.baseSection s)) := by
    simp only [readMapping, hfile, readBytes, hread]
    rfl
  have hmerge : (Yaml.baseObjects (Yaml.baseSection s)).merge Packaged.defaults
      [(.str "patterns", .link .mapping 2)] = some (onlyBase s).entries := rfl
  simp only [fromFiles, hdirectory, hpaths]
  rw [addOverlays_of_merge_eq_some hmapping hmerge]
  rfl

theorem fault?_onlyBase (n : Int) : Schema.fault? (onlyBase (.int n)) =
    some ⟨["patterns", "baseCategory"], .scalar (.int n), ["string", "null"]⟩ :=
  rfl

/-- The message shows the integer, so an integer that is too long has none. -/
theorem unwritable_onlyBase {n : Int} (h : Integer.isWritable n = false) :
    Schema.Unwritable (onlyBase (.int n)) .integer := by
  refine ⟨_, fault?_onlyBase n, ?_⟩
  change SchemaFault.message _ = _
  simp [SchemaFault.message, Value.unwritten?, Scalar.unwritten?, Scalar.literalDepth,
    Scalar.isWritable, h]

/-- An integer with more than 4300 digits for the base category is refused, and the strict load
    fails in writing the message. -/
theorem load_strict_longInteger :
    let w := oneOverlay Yaml.longBytes []
    ∃ c, (load w ⟨1, []⟩ false).result = .ok c ∧ WellNamed w ∧ ¬Schema.Conforms c ∧
      (load w ⟨1, []⟩ true).result = .error .unwritable := by
  intro w
  have hlenient : (load w ⟨1, []⟩ false).result = .ok (onlyBase Yaml.longScalar) := by
    have hvars : Override.ofEnvironment w.environment = [] := by decide +kernel
    rw [result_lenient (fromFiles_oneOverlay Yaml.readDocument_longBytes), written, hvars]
    rfl
  have hnames : WellNamed w := fun v hv => absurd hv List.not_mem_nil
  have hlong : Schema.Unwritable (onlyBase Yaml.longScalar) .integer :=
    unwritable_onlyBase (by decide +kernel)
  refine ⟨_, hlenient, hnames, fun h => ?_,
    (strictLoad_of_lenient hlenient).unwritable _ hnames hlong⟩
  cases (fault?_onlyBase _).symm.trans (Schema.fault?_eq_none_iff.2 h)

end Project

end CategoryLint
