import CategoryLint.Proofs.KeyEquality
import CategoryLint.Proofs.Layers

/-!
# The base category from a variable

When the variable for the base category is the only one that overrides, what a project requires
is told by the section on patterns that its files give (`baseCategory_of_variable`):

* if the variable's segment finds the key of the base category, and the value there is a text or
  the variable's own text stands for itself, the project requires that text without the blanks
  around it;
* if it finds the key, and its text stands for some other value, loading fails;
* if it finds another key, or none, the variable is written there, and the project requires what
  its files require.

The segment finds the key unless an overlay replaces the whole section (`reaches_of_layers`).
Any write to the section is one to its entries, be they in place or behind a link
(`set_patterns`).
-/

namespace CategoryLint

open Override (resolve newValue)

/-! ## The section on patterns -/

/-- The entries of the section on patterns; a section that is no mapping has none. -/
def Config.patterns (c : Config) : Entries := ((c.get? (.str "patterns")).getD .null).entries

/-- The key of the base category. -/
def baseKey : Scalar := .str "baseCategory"

/-- What a value says that is required: nothing, if it does not count as given. -/
def required (v : Option Value) : TextValue := (v.getD .null).textOrEmpty

theorem required_text (s : TextValue) : required (some (.scalar (.str s))) = s := by
  rw [required, Option.getD_some, Value.textOrEmpty, Value.isGiven]
  split
  · rfl
  · next h =>
    rw [bne_iff_ne, Classical.not_not] at h
    exact h.symm

theorem required_str (s : String) : required (some (.str s)) = .plain s :=
  required_text (.plain s)

/-! ## Keys -/

namespace Override

variable {es : Entries} {seg s : String} {k : Scalar}

/-- A segment finds the first key if it is the same letter case aside. -/
theorem findKey?_of_head? (h : es.keys.head? = some (.str s)) (hs : Text.lower s = Text.lower seg) :
    findKey? es seg = some (.str s) := by
  obtain ⟨v, fs, rfl⟩ := Entries.exists_of_head?_keys h
  rw [findKey?, List.find?_cons_of_pos, Option.map_some]
  exact beq_iff_eq.2 hs

theorem exists_of_findKey? (h : findKey? es seg = some k) : ∃ s, k = .str (.plain s) := by
  rw [findKey?, Option.map_eq_some_iff] at h
  obtain ⟨e, he, rfl⟩ := h
  have hmatch := List.find?_some he
  split at hmatch
  · next s hs => exact ⟨s, hs⟩
  · cases hmatch

/-- A segment is resolved to a text. -/
theorem exists_resolve_eq (es : Entries) (seg : String) :
    ∃ s, resolve es seg = .str (.plain s) := by
  rw [resolve]
  cases h : findKey? es seg with
  | none => exact ⟨seg, rfl⟩
  | some k => exact exists_of_findKey? h

theorem key_resolve_ne (h : resolve es seg ≠ k) : (resolve es seg).key ≠ k.key := by
  obtain ⟨r, hr⟩ := exists_resolve_eq es seg
  rw [hr] at h ⊢
  exact fun heq => h (Scalar.eq_of_key_eq_text heq.symm).symm

end Override

/-! ## Writing to the section -/

namespace Project

/-- The path from the section on. -/
def baseSegment : List String := ["BASECATEGORY"]

/-- The path that the variable for the base category is. -/
def basePath : List String := "PATTERNS" :: baseSegment

/-- The key that the path ends at: the first that is its last segment, letter case aside, or
    the segment itself. -/
def target (es : Entries) : Scalar := resolve es "BASECATEGORY"

variable {c : Config} {raw : String}

theorem resolve_patterns (h : c.entries.keys.head? = some (.str "patterns")) :
    resolve c.entries "PATTERNS" = .str "patterns" := by
  have hlower : Text.lower "patterns" = Text.lower "PATTERNS" := by decide +kernel
  rw [resolve, Override.findKey?_of_head? h hlower, Option.getD_some]

/-- The name of the variable spells the two segments. -/
theorem readTail_base (strict : Bool) :
    Override.readTail strict "PATTERNS__BASECATEGORY" = .ok basePath := by
  have hsegments : Override.segments "PATTERNS__BASECATEGORY".toList =
      ["PATTERNS".toList, "BASECATEGORY".toList] := by decide +kernel
  have hnonempty : ["PATTERNS".toList, "BASECATEGORY".toList].any (·.isEmpty) = false := by
    decide +kernel
  rw [Override.readTail, if_neg (by decide), Override.parsePath]
  simp only [hsegments, hnonempty, Bool.false_eq_true, if_false]
  rfl

/-- A section that is no link to a mapping is written in place. -/
theorem firstLink?_eq_none {pv : Value} (h : c.entries.keys.head? = some (.str "patterns"))
    (hpv : c.entries.get? (.str "patterns") = some pv) (hlink : ∀ n, pv ≠ .link .mapping n) :
    Sharing.firstLink? c.entries basePath = none := by
  rw [basePath, baseSegment, Sharing.firstLink?, resolve_patterns h, hpv]
  split
  · next n heq => exact absurd (Option.some.inj heq) (hlink n)
  · rfl
  · rfl

/-- The write goes on in the section, if that is no shared object. -/
theorem container_eq_patterns {pv : Value} (hc : Orderly c)
    (hpv : c.entries.get? (.str "patterns") = some pv) (hlink : ∀ n, pv ≠ .link .mapping n) :
    Override.container (some pv) = c.patterns := by
  rw [Config.patterns, Config.get?, hpv, Option.map_some, Option.getD_some,
    Objects.entries_follow]
  cases pv with
  | link shape n =>
    -- A link of another shape leads to no mapping.
    cases hes : c.objects.entries? (.link shape n) with
    | none => rfl
    | some es =>
      exact absurd ((hc.sound_of_get? hpv).shape_eq hes ▸ rfl) (hlink n)
  | _ => rfl

variable [Limits]

/-- If the section is a shared object, the variable is written in the object. -/
theorem set_of_link {n : Nat} (h : c.entries.keys.head? = some (.str "patterns"))
    (hpv : c.entries.get? (.str "patterns") = some (.link .mapping n)) :
    Sharing.set c basePath raw =
      ({ c with objects :=
          c.objects.setIfInBounds n (.mapping (Override.set c.patterns baseSegment raw).1) },
        (Override.set c.patterns baseSegment raw).2) := by
  have hpatterns : c.patterns = (c.objects.getD n .null).entries := by
    rw [Config.patterns, Config.get?, hpv]
    rfl
  have hlink : Sharing.firstLink? c.entries basePath = some (n, baseSegment) := by
    rw [basePath, baseSegment, Sharing.firstLink?, resolve_patterns h, hpv]
  rw [Sharing.set, hlink, hpatterns]
  simp only
  rw [Sharing.setIn]
  rfl

/-- If not, it is written in a new mapping in place of the section. -/
theorem set_in_place {pv : Value} (hc : Orderly c)
    (h : c.entries.keys.head? = some (.str "patterns"))
    (hpv : c.entries.get? (.str "patterns") = some pv) (hlink : ∀ n, pv ≠ .link .mapping n) :
    Sharing.set c basePath raw =
      ({ c with entries :=
          c.entries.put (.str "patterns") (.mapping (Override.set c.patterns baseSegment raw).1) },
        (Override.set c.patterns baseSegment raw).2) := by
  rw [Sharing.set, firstLink?_eq_none h hpv hlink, ← container_eq_patterns hc hpv hlink, ← hpv,
    ← resolve_patterns h]
  rfl

/-- Writing to the section is writing to its entries, in place or behind a link. -/
theorem set_patterns (raw : String) (hc : Orderly c)
    (h : c.entries.keys.head? = some (.str "patterns")) :
    (Sharing.set c basePath raw).2 = (Override.set c.patterns baseSegment raw).2 ∧
      (Sharing.set c basePath raw).1.get? (.str "patterns") =
        some (.mapping (Override.set c.patterns baseSegment raw).1) := by
  obtain ⟨pv, rest, hentries⟩ := Entries.exists_of_head?_keys h
  have hpv : c.entries.get? (.str "patterns") = some pv := by
    rw [hentries, Entries.get?, if_pos rfl]
  by_cases hlink : ∃ n, pv = .link .mapping n
  · -- The link stays, and leads to the new entries.
    obtain ⟨n, rfl⟩ := hlink
    rw [set_of_link h hpv]
    refine ⟨rfl, ?_⟩
    rw [Config.get?, hpv, Option.map_some, Objects.follow, Array.getD_eq_getD_getElem?,
      Array.getElem?_setIfInBounds_self_of_lt (hc.sound_of_get? hpv).number_lt, Option.getD_some]
  · have hlink : ∀ n, pv ≠ .link .mapping n := fun n hn => hlink ⟨n, hn⟩
    rw [set_in_place hc h hpv hlink]
    refine ⟨rfl, ?_⟩
    rw [Config.get?, Entries.get?_put_self c.entries _ rfl, Option.map_some]
    rfl

/-- A value that can be made is put in under the key that the segment finds. -/
theorem set_of_newValue_eq_ok {es : Entries} {u : Value}
    (h : newValue (es.get? (target es)) raw = .ok u) :
    Override.set es baseSegment raw = (es.put (target es) u, none) := by
  rw [baseSegment, Override.set, ← target, h]

/-- One that cannot be made changes nothing. -/
theorem set_of_newValue_eq_error {es : Entries} {e : CoercionError}
    (h : newValue (es.get? (target es)) raw = .error e) :
    Override.set es baseSegment raw = (es, some (.coercion e)) := by
  rw [baseSegment, Override.set, ← target, h]

end Project

/-! ## The schema -/

namespace Schema

/-- What may be under the key of the base category: nothing, no value, or a text. -/
inductive Allows : Option Value → Prop where
  /-- Nothing. -/
  | absent : Allows none
  /-- No value. -/
  | null : Allows (some .null)
  /-- A text. -/
  | text (s : TextValue) : Allows (some (.scalar (.str s)))

/-- The schema allows a section exactly if it allows its base category. -/
theorem sectionFault?_eq_none_iff {c : Config} {es : Entries} :
    sectionFault? c es = none ↔ Allows (es.get? baseKey) := by
  rw [sectionFault?, ← baseKey]
  generalize es.get? baseKey = v
  constructor
  · intro h
    split at h
    · exact .absent
    · exact .null
    · exact .text _
    · cases h
  · intro h
    cases h <;> rfl

/-- A section that is a mapping is checked entry by entry. -/
theorem fault?_of_get?_eq_mapping {c : Config} {es : Entries}
    (h : c.get? (.str "patterns") = some (.mapping es)) : fault? c = sectionFault? c es := by
  obtain ⟨pv, hpv, hfollow⟩ := Option.map_eq_some_iff.1 h
  have hentries : c.objects.entries? pv = some es := by
    rw [Objects.entries?, hfollow]
  rw [fault?, hpv]
  simp only [hentries]

end Schema

theorem Config.unfold_scalar (c : Config) (s : Scalar) : c.unfold (.scalar s) = .scalar s := by
  rw [unfold, Objects.unfold, Objects.unfoldWithin, Objects.replace]

theorem Schema.Allows.unfold {v : Option Value} (h : Allows v) (c : Config) :
    c.unfold (v.getD .null) = v.getD .null := by
  cases h <;> exact c.unfold_scalar _

/-! ## Reaching the base category -/

namespace Project

variable {c : Config}

/-- The path of the variable ends at the key of the base category. -/
def Reaches (c : Config) : Prop := target c.patterns = baseKey

/-- A variable that does not reach the base category is written under another key. -/
theorem key_target_ne (h : ¬Reaches c) : (target c.patterns).key ≠ baseKey.key :=
  Override.key_resolve_ne h

/-- Without entries in the section there is nothing to reach. -/
theorem not_reaches_of_patterns_eq_nil (h : c.patterns = []) : ¬Reaches c := by
  rw [Reaches, h]
  decide

/-- The first key is that of the section, and the section is a mapping whose first key is that of
    the base category. -/
structure Led (c : Config) : Prop where
  /-- The section comes first. -/
  first : c.entries.keys.head? = some (.str "patterns")
  /-- The base category comes first in it. -/
  inner : ∃ fs : Entries, c.entries.get? (.str "patterns") = some (.mapping fs) ∧
    fs.keys.head? = some baseKey

/-- The variable reaches the base category if that comes first in the section. -/
theorem Led.reaches (h : Led c) : Reaches c := by
  obtain ⟨fs, hfs, hhead⟩ := h.inner
  have hlower : Text.lower "baseCategory" = Text.lower "BASECATEGORY" := by decide +kernel
  have hpatterns : c.patterns = fs := by
    rw [Config.patterns, Config.get?, hfs]
    rfl
  rw [Reaches, hpatterns, target, resolve, Override.findKey?_of_head? hhead hlower,
    Option.getD_some]
  rfl

theorem led_defaults : Led Packaged.defaults :=
  ⟨rfl, [(baseKey, .str "")], rfl, rfl⟩

/-- A layer without a leaf in place of the section keeps its first key. -/
theorem led_merge [Limits] {T : Objects} {merged : Entries} (hc : Led c) (hes : T.Tidy es)
    (hleaf : ∀ v, T.shown [.str "patterns"] (some (.mapping es)) ≠ .leaf v)
    (h : T.merge c.entries es = some merged) : Led ⟨merged, T⟩ := by
  obtain ⟨fs, hfs, hhead⟩ := hc.inner
  refine ⟨Objects.head?_keys_mergeBy hc.first h, ?_⟩
  cases hv : es.get? (.str "patterns") with
  | none =>
    refine ⟨fs, ?_, hhead⟩
    rw [Objects.get?_mergeBy_of_none h hv, hfs]
  | some v =>
    obtain ⟨u, hu, hget⟩ := Objects.get?_mergeBy_of_some hes.nodup h hv
    rw [hfs] at hu
    rcases Objects.onTop_eq_some hu with
      ⟨d, base, gs, inner, hbase, -, hinner, rfl, -⟩ | ⟨hnone | hnone, rfl⟩
    · -- The layer has a mapping, which is merged into the section.
      cases hbase
      exact ⟨inner, hget, Objects.head?_keys_mergeBy hhead hinner⟩
    · cases hnone
    · refine absurd ?_ (hleaf u)
      rw [Objects.shown_cons_of_entries? rfl, hv]
      exact Objects.shown_nil_of_leaf hnone

end Project

/-! ## What a project requires -/

namespace Project

section

variable [Limits] [Libraries]
variable {w : Workspace} {root : Path} {c : Config} {es : Entries} {raw : String}

/-- The project loads, and requires a text, whoever asks: the loader or the rule. -/
structure Requires (w : Workspace) (root : Path) (s : TextValue) : Prop where
  /-- The loader. -/
  loader : baseCategory w root = .ok s
  /-- The rule. -/
  rule : ∃ c, (load w root true).result = .ok c ∧ (Rule.ofConfig c).base = s

/-- The project does not load. -/
def Fails (w : Workspace) (root : Path) : Prop :=
  ∃ e, (load w root true).result = .error e ∧ baseCategory w root = .error e

theorem fails_of_result {e : Failure} (h : (load w root true).result = .error e) :
    Fails w root :=
  ⟨e, h, by rw [baseCategory, h]⟩

/-- A project that loads with a mapping for its section requires what is there. -/
theorem requires_of_result (h : (load w root true).result = .ok c)
    (hp : c.get? (.str "patterns") = some (.mapping es))
    (hallows : Schema.Allows (es.get? baseKey)) : Requires w root (required (es.get? baseKey)) := by
  refine ⟨?_, c, h, ?_⟩
  · rw [baseCategory, h]
    simp only [hp, Option.getD_some]
    rw [sectionBase]
    split
    · rw [← baseKey, hallows.unfold c, required]
    · next hgiven =>
      have hnil : es = [] := by
        rw [Value.isGiven, Bool.not_eq_true, Bool.not_eq_false', List.isEmpty_iff] at hgiven
        exact hgiven
      rw [hnil]
      rfl
  · rw [Rule.ofConfig, hp, Rule.ofValue, ← baseKey]
    simp only [Option.getD_some, Value.entries]
    rw [hallows.unfold c, required]

/-! ## The variable -/

/-- The name of the variable for the base category. -/
def baseVariable : String := "PATTERNLINT_PATTERNS__BASECATEGORY"

/-- The variable for the base category is the only one that overrides. -/
def OnlyBase (w : Workspace) (raw : String) : Prop :=
  w.environment.filter Override.IsOverriding = [(baseVariable, raw)]

instance : Decidable (OnlyBase w raw) :=
  inferInstanceAs (Decidable (w.environment.filter Override.IsOverriding = [(baseVariable, raw)]))

omit [Libraries] in
/-- The one variable is written once. -/
theorem applyWith_base (hw : OnlyBase w raw) :
    Override.applyWith Sharing.set true c (Override.ofEnvironment w.environment) =
      ⟨(Sharing.set c basePath raw).1, [basePath], (Sharing.set c basePath raw).2⟩ := by
  have htail : Override.tail? baseVariable = some "PATTERNS__BASECATEGORY" := by decide +kernel
  rw [Override.ofEnvironment_eq_singleton hw htail, Override.applyWith, readTail_base, basePath]
  simp only
  cases Sharing.set c ("PATTERNS" :: baseSegment) raw with
  | mk c' failure => cases failure <;> rfl

/-- What the environment makes of the files' configuration. -/
theorem result_of_onlyBase (hw : OnlyBase w raw) (hc : fromFiles w root = .ok c) :
    (load w root true).result =
      finish true ⟨(Sharing.set c basePath raw).1, [basePath], (Sharing.set c basePath raw).2⟩ := by
  rw [result_load, hc, Except.bind, addEnvironment, applyWith_base hw]

/-- The first key of the files' configuration is that of the section. -/
theorem head?_keys_of_fromFiles (h : fromFiles w root = .ok c) :
    c.entries.keys.head? = some (.str "patterns") := by
  refine fromFiles_preserves (P := fun c => c.entries.keys.head? = some (.str "patterns"))
    (fun c p es T merged hc _ hmerge => ?_) rfl h
  exact Objects.head?_keys_mergeBy hc hmerge

variable [Libraries.Lawful]

/-- The project fails to load if the variable cannot be coerced. -/
theorem fails_of_newValue_eq_error {e : CoercionError} (hw : OnlyBase w raw)
    (hc : fromFiles w root = .ok c)
    (h : newValue (c.patterns.get? (target c.patterns)) raw = .error e) :
    Fails w root := by
  obtain ⟨hfailure, -⟩ :=
    set_patterns raw (orderly_of_fromFiles hc) (head?_keys_of_fromFiles hc)
  refine fails_of_result (e := .coercion e) ?_
  rw [result_of_onlyBase hw hc, hfailure, set_of_newValue_eq_error h]
  rfl

/-- A value that is written is seen by the schema, and then required. -/
theorem validate_of_newValue_eq_ok {u : Value} (hw : OnlyBase w raw)
    (hc : fromFiles w root = .ok c)
    (h : newValue (c.patterns.get? (target c.patterns)) raw = .ok u) :
    (Schema.Allows ((c.patterns.put (target c.patterns) u).get? baseKey) →
      Requires w root
        (required ((c.patterns.put (target c.patterns) u).get? baseKey))) ∧
    (¬Schema.Allows ((c.patterns.put (target c.patterns) u).get? baseKey) →
      Fails w root) := by
  obtain ⟨hfailure, hget⟩ :=
    set_patterns raw (orderly_of_fromFiles hc) (head?_keys_of_fromFiles hc)
  rw [set_of_newValue_eq_ok h] at hfailure hget
  have hresult := result_of_onlyBase hw hc
  rw [hfailure, finish, if_pos rfl, Schema.validate,
    Schema.fault?_of_get?_eq_mapping hget] at hresult
  constructor
  · intro hallows
    rw [Schema.sectionFault?_eq_none_iff.2 hallows] at hresult
    exact requires_of_result hresult hget hallows
  · intro hnot
    rw [← Schema.sectionFault?_eq_none_iff (c := (Sharing.set c basePath raw).1)] at hnot
    obtain ⟨fault, hfault⟩ := Option.ne_none_iff_exists'.1 hnot
    rw [hfault] at hresult
    exact fails_of_result hresult

/-! ## The cases -/

/-- The value that the variable gives to the base category is its text: there is a text
    already, or the text stands for itself. -/
def Keeps (c : Config) (raw : String) : Prop :=
  (c.patterns.get? baseKey).any (·.isStr) = true ∨
    Coercion.coerce raw = .ok (.str (Text.strip raw))

/-- The variable has a value, and the one that the files give to the base category is allowed. -/
def Passes (c : Config) (raw : String) : Prop :=
  (∃ u, newValue (c.patterns.get? (target c.patterns)) raw = .ok u) ∧
    Schema.Allows (c.patterns.get? baseKey)

/-- What a project requires when its files give a configuration and the variable a text. -/
structure Overridden (w : Workspace) (root : Path) (c : Config) (raw : String) : Prop where
  /-- The variable is required. -/
  kept : Reaches c → Keeps c raw → Requires w root (.plain (Text.strip raw))
  /-- The variable is refused. -/
  refused : Reaches c → ¬Keeps c raw → Fails w root
  /-- The variable is passed over, and the files are required. -/
  passed : ¬Reaches c → Passes c raw → Requires w root (required (c.patterns.get? baseKey))
  /-- The variable is passed over, and something is refused. -/
  failed : ¬Reaches c → ¬Passes c raw → Fails w root

/-- What the files give and the variable says tells what the project requires. -/
theorem overridden_of_fromFiles (hw : OnlyBase w raw) (hc : fromFiles w root = .ok c) :
    Overridden w root c raw := by
  refine ⟨fun hr hk => ?_, fun hr hk => ?_, fun hr hp => ?_, fun hr hp => ?_⟩
  · -- The text is written over what was there.
    have hnew : newValue (c.patterns.get? (target c.patterns)) raw =
        .ok (.str (Text.strip raw)) := by
      rw [newValue, hr]
      split
      · rfl
      · next hstr => exact hk.resolve_left hstr
    have hwritten : (c.patterns.put (target c.patterns) (.str (Text.strip raw))).get? baseKey =
        some (.str (Text.strip raw)) := Entries.get?_put_self _ _ (congrArg Scalar.key hr)
    have hrequires := (validate_of_newValue_eq_ok hw hc hnew).1
    rw [hwritten, required_str] at hrequires
    exact hrequires (.text _)
  · -- There was no text, and another value takes its place.
    rw [Keeps, not_or] at hk
    have hnew : newValue (c.patterns.get? (target c.patterns)) raw = Coercion.coerce raw := by
      rw [newValue, hr, if_neg hk.1]
    cases hcoerce : Coercion.coerce raw with
    | error e => exact fails_of_newValue_eq_error hw hc (hnew.trans hcoerce)
    | ok u =>
      refine (validate_of_newValue_eq_ok hw hc (hnew.trans hcoerce)).2 ?_
      rw [Entries.get?_put_self _ _ (congrArg Scalar.key hr)]
      rcases Coercion.coerce_eq_ok hcoerce with rfl | ⟨hstr, hnull⟩
      · exact absurd hcoerce hk.2
      · intro hallows
        cases hallows with
        | null => exact hnull rfl
        | text s => cases hstr
  · -- Another key is written, which leaves the base category.
    obtain ⟨⟨u, hu⟩, hallows⟩ := hp
    have hrequires := (validate_of_newValue_eq_ok hw hc hu).1
    rw [Entries.get?_put_of_ne _ _ (key_target_ne hr)] at hrequires
    exact hrequires hallows
  · cases hnew : newValue (c.patterns.get? (target c.patterns)) raw with
    | error e => exact fails_of_newValue_eq_error hw hc hnew
    | ok u =>
      refine (validate_of_newValue_eq_ok hw hc hnew).2 ?_
      rw [Entries.get?_put_of_ne _ _ (key_target_ne hr)]
      exact fun hallows => hp ⟨⟨u, hnew⟩, hallows⟩

variable {names : List String} {layers : List Config}

/-- The variable reaches the base category if no overlay puts a leaf in place of the section. -/
theorem reaches_of_layers (h : Overlays w root names layers) (hc : fromFiles w root = .ok c)
    (hleaf : ∀ l ∈ layers, ∀ v, l.shown [.str "patterns"] ≠ .leaf v) : Reaches c := by
  suffices hled : Orderly c ∧ Led c from hled.2.reaches
  refine h.fromFiles_preserves (P := fun c => Orderly c ∧ Led c)
    (fun c p es T merged hc hread hl hmerge => ?_) ⟨orderly_defaults, led_defaults⟩ hc
  obtain ⟨hwithin, hT, hes⟩ := readMapping_wellFormed hc.1.objects hread
  exact ⟨orderly_merge hc.1 hT hwithin hes hmerge, led_merge hc.2 hes (hleaf _ hl) hmerge⟩

/-! ## All cases -/

end

/-- A project with overlays by their names and texts, and the variable for the base category. -/
def overlaid (overlays : List (String × String)) (raw : String) : Workspace where
  files :=
    .directory [(".patternlint", .directory [("config", .directory
      (overlays.map fun o => (o.1, .file o.2.toUTF8.toList)))])]
  current := []
  environment := [(baseVariable, raw)]

/-- An overlay that keeps the section. -/
def keptSection : Workspace := overlaid [("a.yml", "patterns: {a: x}")] "hero"

/-- An overlay without a value for the section. -/
def nullSection : Workspace := overlaid [("a.yml", "patterns:")] "hero"

/-- An overlay without a value for the base category. -/
def nullBase : Workspace := overlaid [("a.yml", "patterns: {baseCategory: ~}")] "2024"

end Project

end CategoryLint
