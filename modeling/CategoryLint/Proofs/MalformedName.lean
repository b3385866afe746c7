import CategoryLint.Proofs.Escape
import CategoryLint.Proofs.LastVariable
import CategoryLint.Proofs.NameGrammar
import Mathlib.Data.List.Nodup

/-!
# Strict runs that stop

The variables of an environment are applied in the order of their names, so only the overriding
ones matter, and not how the environment lists them (`ofEnvironment_congr`). A strict run goes like
a lenient one up to the first malformed name, which ends it (`failure_of_isMalformed`).

An error of the configuration can come from nothing else, for a write fails in other ways only
(`RefusesNothing`). So after such an error the settings are what the lenient run of the variables
before that name makes (`exists_stop`): it has written all of them, and none of the others
(`appliesInOrder`).
-/

namespace CategoryLint.Override

variable {E E' before after : List (String × String)} {e x : String × String}
  {name tail raw : String}

/-! ## Environments in order -/

/-- No two variables of an environment have one name. -/
def DistinctNames (E : List (String × String)) : Prop := (E.map (·.1)).Nodup

instance (E : List (String × String)) : Decidable (DistinctNames E) :=
  inferInstanceAs (Decidable (List.Nodup _))

/-- Two environments have the same overriding variables, in any order. -/
def SameOverriding (E E' : List (String × String)) : Prop :=
  ∀ e, IsOverriding e → (e ∈ E ↔ e ∈ E')

/-- The variables of an environment in the order of their names. -/
def inOrder (E : List (String × String)) : List (String × String) :=
  E.mergeSort fun a b => a.1 ≤ b.1

theorem ofEnvironment_eq (E : List (String × String)) :
    ofEnvironment E = overriding (inOrder E) := rfl

theorem inOrder_perm (E : List (String × String)) : (inOrder E).Perm E := List.mergeSort_perm E _

theorem inOrder_pairwise_le (E : List (String × String)) :
    (inOrder E).Pairwise fun a b => a.1 ≤ b.1 :=
  Project.pairwise_mergeSort_by _ E

theorem DistinctNames.filter (h : DistinctNames E) (p : String × String → Bool) :
    DistinctNames (E.filter p) :=
  (List.filter_sublist.map _).nodup h

theorem DistinctNames.nodup (h : DistinctNames E) : E.Nodup := List.Nodup.of_map _ h

/-- There is one order only. -/
theorem eq_inOrder (hE : DistinctNames E) (hsorted : E'.Pairwise fun a b => a.1 ≤ b.1)
    (hperm : E'.Perm E) : E' = inOrder E := by
  refine List.Perm.eq_of_pairwise ?_ hsorted (inOrder_pairwise_le E)
    (hperm.trans (inOrder_perm E).symm)
  intro a b ha hb hab hba
  exact List.inj_on_of_nodup_map hE (hperm.mem_iff.1 ha) ((inOrder_perm E).mem_iff.1 hb)
    (String.le_antisymm hab hba)

/-- To order some of the variables is to take them out of all in order. -/
theorem inOrder_filter (hE : DistinctNames E) (p : String × String → Bool) :
    inOrder (E.filter p) = (inOrder E).filter p :=
  (eq_inOrder (hE.filter p) ((inOrder_pairwise_le E).filter p) ((inOrder_perm E).filter p)).symm

theorem inOrder_pairwise_lt (hE : DistinctNames E) :
    (inOrder E).Pairwise fun a b => a.1 < b.1 := by
  have hdistinct : (inOrder E).Pairwise fun a b => a.1 ≠ b.1 :=
    List.pairwise_map.1 (((inOrder_perm E).map _).nodup_iff.2 hE)
  refine ((inOrder_pairwise_le E).and hdistinct).imp ?_
  rintro a b ⟨hle, hne⟩
  exact String.not_le.1 fun h => hne (String.le_antisymm hle h)

/-- What comes before a variable in order are the variables with lesser names. -/
theorem filter_lt_of_inOrder_eq (hE : DistinctNames E)
    (h : inOrder E = before ++ (name, raw) :: after) :
    (inOrder E).filter (fun e => e.1 < name) = before := by
  have hsorted := inOrder_pairwise_lt hE
  rw [h, List.pairwise_append] at hsorted
  obtain ⟨-, hafter, hbefore⟩ := hsorted
  rw [h, List.filter_append, List.filter_eq_self.2, List.filter_eq_nil_iff.2, List.append_nil]
  · intro e he hlt
    rcases List.mem_cons.1 he with rfl | he
    · exact String.lt_irrefl _ (of_decide_eq_true hlt)
    · exact String.lt_irrefl _
        (String.lt_trans (of_decide_eq_true hlt) ((List.pairwise_cons.1 hafter).1 e he))
  · exact fun e he => decide_eq_true (hbefore e he _ List.mem_cons_self)

/-- Only the overriding variables matter. -/
theorem overriding_filter (E : List (String × String)) :
    overriding (E.filter IsOverriding) = overriding E :=
  filterMap_filter_isOverriding E

/-- Environments with the same overriding variables have them in the same order. -/
theorem ofEnvironment_congr (hE : DistinctNames E) (hE' : DistinctNames E')
    (h : SameOverriding E E') : ofEnvironment E = ofEnvironment E' := by
  have hperm : (E.filter IsOverriding).Perm (E'.filter IsOverriding) := by
    refine (List.perm_ext_iff_of_nodup (hE.filter _).nodup (hE'.filter _).nodup).2 fun e => ?_
    rw [List.mem_filter, List.mem_filter, decide_eq_true_iff]
    exact and_congr_left (h e)
  have hsorted : inOrder (E.filter IsOverriding) = inOrder (E'.filter IsOverriding) :=
    eq_inOrder (hE'.filter _) (inOrder_pairwise_le _) ((inOrder_perm _).trans hperm)
  rw [ofEnvironment_eq, ← overriding_filter, ← inOrder_filter hE, hsorted, inOrder_filter hE',
    overriding_filter, ← ofEnvironment_eq]

/-! ## The first malformed name -/

/-- The name of a variable starts as it must, and the rest of it writes no path. -/
def IsMalformedName (name : String) : Prop :=
  ∃ tail, name = variableStem ++ tail ∧ ∀ path, ¬Spells tail path

/-- A malformed name is one that spells no path. -/
theorem isMalformed_iff : IsMalformed tail ↔ ∀ path, ¬Spells tail path := by
  rw [forall_not_spells_iff, IsMalformed, or_iff_right_of_imp]
  rintro rfl
  decide

/-- A name without a rest is malformed. -/
theorem isMalformedName_stem : IsMalformedName variableStem :=
  ⟨"", (String.append_empty ..).symm, isMalformed_iff.1 (.inl rfl)⟩

/-- The two ways to say that no name is malformed. -/
theorem forall_ofEnvironment_iff :
    (∀ v ∈ ofEnvironment E, ¬IsMalformed v.1) ↔ ∀ e ∈ E, ¬IsMalformedName e.1 := by
  constructor
  · rintro h ⟨name, raw⟩ he ⟨tail, rfl, htail⟩
    exact h (tail, raw) (mem_ofEnvironment.2 he) (isMalformed_iff.2 htail)
  · rintro h ⟨tail, raw⟩ hv htail
    exact h _ (mem_ofEnvironment.1 hv) ⟨tail, rfl, isMalformed_iff.1 htail⟩

variable {σ : Type} {write : σ → List String → String → σ × Option Failure} {c : σ}
  {vars : List (String × String)} {error : ConfigError}

/-- A write never fails with an error of the configuration. -/
def RefusesNothing (write : σ → List String → String → σ × Option Failure) : Prop :=
  ∀ c seg path raw error, (write c (seg :: path) raw).2 ≠ some (.config error)

/-- A strict run that ends with an error of the configuration stops at the first malformed name,
    and leaves what the lenient run of the variables before that makes. -/
theorem exists_stop (hwrite : RefusesNothing write)
    (h : (applyWith write true c vars).failure = some (.config error)) :
    ∃ before tail raw after, vars = before ++ (tail, raw) :: after ∧
      (∀ v ∈ before, ¬IsMalformed v.1) ∧ IsMalformed tail ∧ error = nameError tail ∧
      (applyWith write false c before).failure = none ∧
      (applyWith write false c before).config = (applyWith write true c vars).config := by
  induction vars generalizing c with
  | nil => cases h
  | cons v vars ih =>
    obtain ⟨tail, raw⟩ := v
    by_cases htail : IsMalformed tail
    · rw [applyWith, (readTail_of_isMalformed htail).1] at h ⊢
      cases h
      exact ⟨[], tail, raw, vars, rfl, fun v hv => absurd hv List.not_mem_nil, htail, rfl, rfl, rfl⟩
    · -- The variable is written by both runs, and the strict one stops later.
      obtain ⟨seg, path, hpath⟩ := readTail_of_not_isMalformed htail
      rcases hset : write c (seg :: path) raw with ⟨c', _ | failure⟩
      · rw [applyWith_cons_of_success (hpath true) hset] at h ⊢
        obtain ⟨before, tail', raw', after, rfl, hbefore, htail', herror, hnone, hconfig⟩ := ih h
        refine ⟨(tail, raw) :: before, tail', raw', after, rfl,
          List.forall_mem_cons.2 ⟨htail, hbefore⟩, htail', herror, ?_⟩
        rw [applyWith_cons_of_success (hpath false) hset]
        exact ⟨hnone, hconfig⟩
      · rw [applyWith_cons_of_failure (hpath true) hset] at h
        have hfailure := hwrite c seg path raw error
        rw [hset] at hfailure
        exact absurd h hfailure

/-- A strict run that comes to a malformed name ends there. -/
theorem failure_of_isMalformed (hbefore : ∀ v ∈ before, ¬IsMalformed v.1)
    (htail : IsMalformed tail) (hnone : (applyWith write false c before).failure = none) :
    (applyWith write true c (before ++ (tail, raw) :: after)).failure =
      some (.config (nameError tail)) := by
  induction before generalizing c with
  | nil => rw [List.nil_append, applyWith, (readTail_of_isMalformed htail).1]
  | cons v before ih =>
    obtain ⟨tail', raw'⟩ := v
    rw [List.forall_mem_cons] at hbefore
    obtain ⟨seg, path, hpath⟩ := readTail_of_not_isMalformed hbefore.1
    rcases hset : write c (seg :: path) raw' with ⟨c', _ | failure⟩
    · rw [applyWith_cons_of_success (hpath false) hset] at hnone
      rw [List.cons_append, applyWith_cons_of_success (hpath true) hset]
      exact ih hbefore.2 hnone
    · rw [applyWith_cons_of_failure (hpath false) hset] at hnone
      cases hnone

/-! ## Environments -/

/-- What comes before a variable of an environment are the variables with lesser names. -/
theorem ofEnvironment_filter_lt (hE : DistinctNames E)
    (h : ofEnvironment E = before ++ (tail, raw) :: after) :
    ofEnvironment (E.filter fun x => x.1 < variableStem ++ tail) = before := by
  -- The variable stands somewhere in the environment in order.
  rw [ofEnvironment_eq, overriding, List.filterMap_eq_append_iff] at h
  obtain ⟨first, rest, hsplit, rfl, hrest⟩ := h
  obtain ⟨others, ⟨name, raw'⟩, last, rfl, hothers, hname, -⟩ := List.filterMap_eq_cons_iff.1 hrest
  obtain ⟨tail', htail', heq⟩ := Option.map_eq_some_iff.1 hname
  cases heq
  obtain rfl := tail?_eq_some_iff.1 htail'
  rw [← List.append_assoc] at hsplit
  rw [ofEnvironment_eq, inOrder_filter hE, filter_lt_of_inOrder_eq hE hsplit, overriding,
    List.filterMap_append, List.filterMap_eq_nil_iff.2 hothers, List.append_nil]

/-- A strict run stops at a variable of an environment. -/
structure StopsAt (write : σ → List String → String → σ × Option Failure) (c : σ)
    (E : List (String × String)) (error : ConfigError) (e : String × String) : Prop where
  /-- The variable is in the environment. -/
  mem : e ∈ E
  /-- Its name is malformed, and the error tells so. -/
  malformed : ∃ tail, e.1 = variableStem ++ tail ∧ (∀ path, ¬Spells tail path) ∧
    error = nameError tail
  /-- No malformed name comes before it. -/
  first : ∀ x ∈ E, IsMalformedName x.1 → e.1 ≤ x.1
  /-- The variables with lesser names can all be applied. -/
  success : (applyWith write false c (ofEnvironment (E.filter fun x => x.1 < e.1))).failure = none
  /-- What they make is what is left. -/
  config : (applyWith write true c (ofEnvironment E)).config =
    (applyWith write false c (ofEnvironment (E.filter fun x => x.1 < e.1))).config

/-- The variables of an environment are applied in the order of their names, up to the first
    malformed one if names are strict. -/
structure AppliesInOrder (write : σ → List String → String → σ × Option Failure) (c : σ)
    (E : List (String × String)) : Prop where
  /-- Only the overriding variables matter, and not how the environment lists them. -/
  same : ∀ E', DistinctNames E' → SameOverriding E E' → ∀ strict,
    applyWith write strict c (ofEnvironment E') = applyWith write strict c (ofEnvironment E)
  /-- Without a malformed name, a strict run goes like a lenient one. -/
  lenient : (∀ x ∈ E, ¬IsMalformedName x.1) →
    applyWith write true c (ofEnvironment E) = applyWith write false c (ofEnvironment E)
  /-- A strict run ends with an error of the configuration if it stops at the first malformed name,
      and for no other reason. -/
  stops : ∀ error, (applyWith write true c (ofEnvironment E)).failure = some (.config error) ↔
    ∃ e, StopsAt write c E error e

/-- If writing refuses nothing, a strict run that fails has stopped at a malformed name. -/
theorem exists_stopsAt (hE : DistinctNames E) (hwrite : RefusesNothing write)
    (h : (applyWith write true c (ofEnvironment E)).failure = some (.config error)) :
    ∃ e, StopsAt write c E error e := by
  obtain ⟨before, tail, raw, after, hvars, hbefore, htail, herror, hnone, hconfig⟩ :=
    exists_stop hwrite h
  have hlesser := ofEnvironment_filter_lt hE hvars
  refine ⟨(variableStem ++ tail, raw), ?_, ⟨tail, rfl, isMalformed_iff.1 htail, herror⟩, ?_, ?_, ?_⟩
  · rw [← mem_ofEnvironment, hvars]
    exact List.mem_append_right _ List.mem_cons_self
  · rintro ⟨name, raw'⟩ hx ⟨tail', rfl, htail'⟩
    refine String.not_lt.1 fun hless => hbefore (tail', raw') ?_ (isMalformed_iff.2 htail')
    rw [← hlesser, mem_ofEnvironment]
    exact List.mem_filter.2 ⟨hx, decide_eq_true hless⟩
  · rw [hlesser]
    exact hnone
  · rw [hlesser]
    exact hconfig.symm

/-- A run that stops at a malformed name fails with its error. -/
theorem StopsAt.failure (hE : DistinctNames E) (h : StopsAt write c E error e) :
    (applyWith write true c (ofEnvironment E)).failure = some (.config error) := by
  obtain ⟨name, raw⟩ := e
  obtain ⟨tail, rfl, htail, rfl⟩ := h.malformed
  obtain ⟨before, after, hvars⟩ := List.append_of_mem (mem_ofEnvironment.2 h.mem)
  have hlesser := ofEnvironment_filter_lt hE hvars
  have hnone := h.success
  rw [hlesser] at hnone
  rw [hvars]
  refine failure_of_isMalformed ?_ (isMalformed_iff.2 htail) hnone
  -- No name before this one is malformed, for this one is the first.
  rw [← hlesser, forall_ofEnvironment_iff]
  intro x hx hmalformed
  obtain ⟨hmem, hless⟩ := List.mem_filter.1 hx
  exact String.not_le.2 (of_decide_eq_true hless) (h.first x hmem hmalformed)

/-- The laws hold for any way of writing that refuses nothing. -/
theorem AppliesInOrder.of_refusesNothing (hE : DistinctNames E) (hwrite : RefusesNothing write)
    (c : σ) : AppliesInOrder write c E where
  same E' hE' h strict := by rw [ofEnvironment_congr hE hE' h]
  lenient h := applyWith_strict_eq (forall_ofEnvironment_iff.2 h)
  stops _ := ⟨exists_stopsAt hE hwrite, fun ⟨_, h⟩ => h.failure hE⟩

theorem refusesNothing_set [Limits] : RefusesNothing set := by
  intro es seg path raw error h
  rw [failure_set] at h
  obtain ⟨-, _, -, hfailure⟩ := failure?_newValue_eq_some_iff.1 h
  cases hfailure

theorem refusesNothing_sharing [Limits] : RefusesNothing Sharing.set := by
  intro c seg path raw error h
  rw [Sharing.failure_set] at h
  obtain ⟨-, _, -, hfailure⟩ := failure?_newValue_eq_some_iff.1 h
  cases hfailure

/-- In trees and in configurations with links, the variables of an environment are applied in the
    order of their names, up to the first malformed one if names are strict. A name without a rest
    is malformed. -/
theorem appliesInOrder [Limits] (hE : DistinctNames E) :
    (∀ es : Entries, AppliesInOrder set es E) ∧ (∀ c : Config, AppliesInOrder Sharing.set c E) ∧
      IsMalformedName variableStem :=
  ⟨fun es => .of_refusesNothing hE refusesNothing_set es,
    fun c => .of_refusesNothing hE refusesNothing_sharing c, isMalformedName_stem⟩

/-- A malformed name between two others. -/
def brokenName : List (String × String) :=
  [("HOME", "/"), ("PATTERNLINT_A", " 7 "), ("PATTERNLINT_B__", "x"), ("PATTERNLINT_C", "y")]

/-- The strict run stops at the malformed name. -/
theorem appliesInOrder_brokenName :
    DistinctNames brokenName ∧
      (apply true [] brokenName).failure = some (.config (.emptySegment "B__")) ∧
      (∀ es : Entries, AppliesInOrder set es brokenName) ∧
      (∀ c : Config, AppliesInOrder Sharing.set c brokenName) ∧
      IsMalformedName variableStem := by
  have hE : DistinctNames brokenName := by decide +kernel
  have hfailure : (apply true [] brokenName).failure =
      some (.config (.emptySegment "B__")) := by
    have hsorted : brokenName.Pairwise fun a b => decide (a.1 ≤ b.1) := by decide +kernel
    rw [apply, ofEnvironment, List.mergeSort_of_pairwise hsorted]
    rfl
  exact ⟨hE, hfailure, appliesInOrder hE⟩

end CategoryLint.Override
