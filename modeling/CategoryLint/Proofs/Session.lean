import CategoryLint.Proofs.DistinctKeys

/-!
# Sessions

A configuration goes through steps: an override is put on top of it, a value is written at a path,
or the variables of an environment are applied. A step can fail. What it has changed before stays
changed, and the session goes on.

There are three kinds of configurations: trees, configurations with links to shared lists and
mappings, and tables in which the root is a mapping like any other, which can also be inside
itself. In all of them a step leaves no mapping with two equal keys, and the keys of the root stay
the first keys of the root (`Lawful`), so a whole session does (`session_keeps`).
-/

namespace CategoryLint.Session

/-! ## Steps -/

/-- A kind of configurations `σ`, with overrides `ω`. -/
structure Kind (σ ω : Type) where
  /-- Puts an override on top of a configuration. -/
  merge : σ → ω → Except Failure σ
  /-- Writes the value of a variable at a path. -/
  write : σ → List String → String → σ × Option Failure
  /-- The keys of the root. -/
  keys : σ → List Scalar
  /-- The values that a configuration is made of: its root, and what links lead to. -/
  values : σ → List Value
  /-- The values that an override is made of. -/
  overrideValues : ω → List Value

/-- A step of a session. -/
inductive Step (ω : Type) where
  /-- An override is put on top. -/
  | merge (override : ω)
  /-- The value of a variable is written at a path. -/
  | write (path : List String) (raw : String)
  /-- The variables of an environment are applied. -/
  | apply (strict : Bool) (environment : List (String × String))

namespace Kind

variable {σ ω : Type} (K : Kind σ ω)

/-- What a step makes of a configuration, and its failure. -/
def step (c : σ) : Step ω → σ × Option Failure
  | .merge override =>
    match K.merge c override with
    | .ok c => (c, none)
    | .error failure => (c, some failure)
  | .write path raw => K.write c path raw
  | .apply strict environment =>
    let applied := Override.applyWith K.write strict c (Override.ofEnvironment environment)
    (applied.config, applied.failure)

/-- The configuration after some steps. -/
def run (c : σ) (steps : List (Step ω)) : σ := steps.foldl (fun c s => (K.step c s).1) c

/-- No mapping in a configuration has two keys that are equal. -/
def Distinct (c : σ) : Prop := ∀ v ∈ K.values c, v.Distinct

/-- No mapping in an override has two keys that are equal. -/
def DistinctOverride (override : ω) : Prop := ∀ v ∈ K.overrideValues override, v.Distinct

/-- What a configuration keeps when it becomes another. -/
structure Keeps (c c' : σ) : Prop where
  /-- No mapping has two keys that are equal. -/
  distinct : K.Distinct c'
  /-- The keys of the root are still its first keys. -/
  keys : K.keys c <+: K.keys c'

end Kind

/-! ## Kinds of configurations -/

/-- Trees, in which every mapping has one place. -/
def trees [Limits] : Kind Entries Entries where
  merge base es := .ok (base.merge es)
  write := Override.set
  keys := Entries.keys
  values es := [.mapping es]
  overrideValues es := [.mapping es]

/-- Configurations with links. The objects of an override come after those that are there, and it
    can have links to both. -/
def shared [Limits] : Kind Config Config where
  merge c override :=
    Project.addLayer c ⟨override.entries, c.objects ++ override.objects⟩
  write := Sharing.set
  keys c := c.entries.keys
  values c := .mapping c.entries :: c.objects.toList
  overrideValues override := .mapping override.entries :: override.objects.toList

/-- A table with the number of its root. -/
structure Rooted where
  /-- The objects. -/
  objects : Objects
  /-- The number of the root. -/
  root : Nat

/-- The entries of the root. -/
def Rooted.entries (c : Rooted) : Entries := (c.objects.getD c.root .null).entries

/-- Tables whose root is one of the objects. Merging makes a new root. -/
def rooted [Limits] : Kind Rooted Config where
  merge c override :=
    let objects := c.objects ++ override.objects
    match objects.merge c.entries override.entries with
    | none => .error (.tooDeep .merge)
    | some merged => .ok ⟨objects.push (.mapping merged), objects.size⟩
  write c path raw :=
    let (objects, failure) := Sharing.setIn c.objects c.root path raw
    ({ c with objects }, failure)
  keys c := c.entries.keys
  values c := c.objects.toList
  overrideValues override := .mapping override.entries :: override.objects.toList

/-- The kinds of configurations. -/
inductive Known [Limits] : {σ ω : Type} → Kind σ ω → Prop where
  /-- Trees. -/
  | trees : Known trees
  /-- Configurations with links. -/
  | shared : Known shared
  /-- Tables with a root. -/
  | rooted : Known rooted

/-! ## From steps to sessions -/

/-- Merging and writing keep what a session keeps. -/
structure Lawful {σ ω : Type} (K : Kind σ ω) : Prop where
  /-- An override that is put on top. -/
  merge : ∀ {c c' : σ} {override : ω}, K.Distinct c → K.DistinctOverride override →
    K.merge c override = .ok c' → K.Keeps c c'
  /-- A value that is written, or fails to be. -/
  write : ∀ {c : σ} (path : List String) (raw : String), K.Distinct c →
    K.Keeps c (K.write c path raw).1

section

variable {σ ω : Type} {K : Kind σ ω} {c c' c'' : σ}

theorem Kind.Keeps.refl (h : K.Distinct c) : K.Keeps c c := ⟨h, List.prefix_refl _⟩

theorem Kind.Keeps.trans (h : K.Keeps c c') (h' : K.Keeps c' c'') : K.Keeps c c'' :=
  ⟨h'.distinct, h.keys.trans h'.keys⟩

namespace Lawful

/-- Every variable up to the first failure is a write. -/
theorem applyWith (hK : Lawful K) (hc : K.Distinct c) (strict : Bool)
    (vars : List (String × String)) :
    K.Keeps c (Override.applyWith K.write strict c vars).config := by
  refine Override.applyWith_preserves (.refl hc) fun d path raw _ hd => ?_
  exact hd.trans (hK.write path raw hd.distinct)

/-- One step keeps the keys distinct and those that were there first: the cases are the steps. -/
theorem step (hK : Lawful K) (hc : K.Distinct c) {s : Step ω}
    (hs : ∀ override, s = .merge override → K.DistinctOverride override) :
    K.Keeps c (K.step c s).1 := by
  cases s with
  | merge override =>
    rw [Kind.step]
    split
    · next hmerge => exact hK.merge hc (hs override rfl) hmerge
    · exact .refl hc
  | write path raw => exact hK.write path raw hc
  | apply strict environment => exact hK.applyWith hc strict _

/-- So does a run of steps, whether or not some of them fail. -/
theorem run (hK : Lawful K) {steps : List (Step ω)} (hc : K.Distinct c)
    (hsteps : ∀ override, .merge override ∈ steps → K.DistinctOverride override) :
    K.Keeps c (K.run c steps) := by
  induction steps generalizing c with
  | nil => exact .refl hc
  | cons s steps ih =>
    have hstep : K.Keeps c (K.step c s).1 :=
      hK.step hc fun override hs => hsteps override (hs ▸ List.mem_cons_self)
    exact hstep.trans
      (ih hstep.distinct fun override hs => hsteps override (List.mem_cons_of_mem _ hs))

end Lawful

end

/-! ## The steps of each kind -/

/-- Writing behind links keeps the first keys of every object. -/
theorem keys_prefix_setIn [Limits] (T : Objects) (n m : Nat) (path : List String) (raw : String) :
    (T.getD m .null).entries.keys <+:
      ((Sharing.setIn T n path raw).1.getD m .null).entries.keys := by
  by_cases hmapping : ∃ es : Entries, T[m]? = some (.mapping es)
  · obtain ⟨es, hes⟩ := hmapping
    obtain ⟨fs, hfs, hprefix⟩ : ∃ fs : Entries,
        (Sharing.setIn T n path raw).1[m]? = some (.mapping fs) ∧ es.keys <+: fs.keys :=
      Sharing.exists_setIn n path hes
    rw [Array.getD_eq_getD_getElem?, Array.getD_eq_getD_getElem?, hes, hfs]
    exact hprefix
  · -- An object that is no mapping has no keys to lose.
    have hnil : (T.getD m .null).entries = [] := by
      rw [Array.getD_eq_getD_getElem?]
      cases hm : T[m]? with
      | none => rfl
      | some v =>
        cases v with
        | mapping es => exact absurd ⟨es, hm⟩ hmapping
        | _ => rfl
    rw [hnil]
    exact List.nil_prefix

theorem distinct_trees_iff [Limits] {es : Entries} :
    trees.Distinct es ↔ Value.Distinct (.mapping es) :=
  List.forall_mem_singleton

/-- With shared objects, distinct keys are those of the configuration and of its objects. -/
theorem distinct_shared_iff [Limits] {c : Config} :
    shared.Distinct c ↔ Value.Distinct (.mapping c.entries) ∧ c.objects.Distinct := by
  rw [Kind.Distinct, shared, List.forall_mem_cons]
  simp only [Array.mem_toList_iff]
  rfl

/-- Where the configuration is an object itself, its objects are all that there is. -/
theorem distinct_rooted_iff [Limits] {c : Rooted} : rooted.Distinct c ↔ c.objects.Distinct := by
  rw [Kind.Distinct, rooted]
  simp only [Array.mem_toList_iff]
  rfl

/-- Configurations without shared objects keep the laws. -/
theorem lawful_trees [Limits] : Lawful trees where
  merge := by
    intro base merged es hbase hes h
    cases h
    rw [distinct_trees_iff] at hbase
    refine ⟨distinct_trees_iff.2 (hbase.merge (distinct_trees_iff.1 hes)), ?_⟩
    exact Objects.keys_prefix_mergeBy (Value.mergeBy_over base es)
  write := by
    intro es path raw hes
    rw [distinct_trees_iff] at hes
    exact ⟨distinct_trees_iff.2 (Override.distinct_set path raw hes),
      Override.keys_prefix_set es path raw⟩

/-- Configurations with shared objects keep the laws. -/
theorem lawful_shared [Limits] : Lawful shared where
  merge := by
    intro c c' override hc hoverride h
    rw [distinct_shared_iff] at hc
    obtain ⟨merged, hmerge, rfl⟩ := Project.addLayer_eq_ok_iff.1 h
    have hobjects : (c.objects ++ override.objects).Distinct :=
      hc.2.append (distinct_shared_iff.1 hoverride).2
    refine ⟨distinct_shared_iff.2 ⟨?_, hobjects⟩, Objects.keys_prefix_mergeBy hmerge⟩
    exact hobjects.merge hc.1 (distinct_shared_iff.1 hoverride).1 hmerge
  write := by
    intro c path raw hc
    rw [distinct_shared_iff] at hc
    refine ⟨distinct_shared_iff.2 ?_, Sharing.keys_prefix_set c path raw⟩
    exact Sharing.distinct_set path raw hc.1 hc.2

/-- Configurations that are objects themselves keep the laws, also inside themselves. -/
theorem lawful_rooted [Limits] : Lawful rooted where
  merge := by
    intro c c' override hc hoverride h
    rw [distinct_rooted_iff] at hc
    obtain ⟨hentries, hobjects⟩ := distinct_shared_iff.1 hoverride
    rw [rooted] at h
    dsimp only at h
    split at h
    · cases h
    · next merged hmerge =>
      cases h
      have hall := hc.append hobjects
      have hmerged := hall.merge (hc.getD c.root).entries hentries hmerge
      refine ⟨distinct_rooted_iff.2 (hall.push hmerged), ?_⟩
      -- The new root is the last object.
      have hroot : Rooted.entries ⟨(c.objects ++ override.objects).push (.mapping merged),
          (c.objects ++ override.objects).size⟩ = merged := by
        rw [Rooted.entries, Array.getD_eq_getD_getElem?, Array.getElem?_push_size]
        rfl
      have hprefix : c.entries.keys <+: merged.keys := Objects.keys_prefix_mergeBy hmerge
      rwa [← hroot] at hprefix
  write := by
    intro c path raw hc
    rw [distinct_rooted_iff] at hc
    refine ⟨distinct_rooted_iff.2 (Sharing.distinct_setIn c.root path raw hc), ?_⟩
    exact keys_prefix_setIn c.objects c.root c.root path raw

/-- In every session, no mapping gets two keys that are equal, and the keys of the root stay its
    first keys, in their order. -/
theorem session_keeps [Limits] {σ ω : Type} {K : Kind σ ω} {c : σ} {steps : List (Step ω)}
    (hK : Known K) (hc : K.Distinct c)
    (hsteps : ∀ override, .merge override ∈ steps → K.DistinctOverride override) :
    K.Keeps c (K.run c steps) := by
  cases hK with
  | trees => exact lawful_trees.run hc hsteps
  | shared => exact lawful_shared.run hc hsteps
  | rooted => exact lawful_rooted.run hc hsteps

/-- A mapping with a number as a key, inside itself. -/
def selfInside : Rooted where
  objects := #[.mapping [(.int 1, .null), (.str "a", .link .mapping 0)]]
  root := 0

/-- An equal number on top, a value with a name twice below the mapping itself, and a variable
    without a name. -/
def threeSteps : List (Step Config) :=
  [.merge { entries := [(.bool true, .str "x")] },
    .write ["A", "a", "B"] "[\x7b\"k\": 1, \"k\": 2\x7d]",
    .apply true [("PATTERNLINT_", "y")]]

/-- A configuration that is inside itself, and three steps on it. -/
theorem session_keeps_selfInside :
    rooted.Distinct selfInside ∧ rooted.Keeps selfInside (rooted.run selfInside threeSteps) := by
  have hkeys : Entries.Distinct [(.int 1, .null), (.str "a", .link .mapping 0)] :=
    Entries.distinct_iff_nodup.2 ⟨by simp [Entries.keys, Scalar.IsNormal,
      TextValue.ofPoints_points_plain], by decide⟩
  have hc : rooted.Distinct selfInside := by
    refine List.forall_mem_singleton.2 (.mapping hkeys ?_)
    simp [Value.Distinct.scalar, Value.Distinct.link]
  refine ⟨hc, session_keeps .rooted hc ?_⟩
  intro override hoverride
  have heq : override = ({ entries := [(.bool true, .str "x")] } : Config) := by
    simpa [threeSteps] using hoverride
  subst heq
  refine List.forall_mem_singleton.2 (.mapping (Entries.distinct_iff_nodup.2 ?_) ?_)
  · exact ⟨by simp [Entries.keys, Scalar.IsNormal], by decide⟩
  · simp [Value.Distinct.scalar]

end CategoryLint.Session
