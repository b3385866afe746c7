import Mathlib.Data.List.Induction

/-!
# Steps that return

A step that can fail returns a value only if its parts do. `bind_eq_ok_iff` and `map_eq_ok_iff`
take such a step apart, and `foldlM_preserves` carries an invariant through a fold of them.

A fold comes to a step with what it has made of the steps before (`Comes`). It fails exactly if it
comes to one that fails (`foldlM_eq_error_iff`), and what only some steps do not keep is lost for
good at one of those (`foldlM_retains`).
-/

namespace CategoryLint

variable {ε α β : Type}

/-- A step and then another one succeed exactly if both do. -/
theorem bind_eq_ok_iff {x : Except ε α} {f : α → Except ε β} {b : β} :
    (x >>= f) = .ok b ↔ ∃ a, x = .ok a ∧ f a = .ok b := by
  cases x with
  | error e => exact ⟨fun h => (nomatch h), fun ⟨_, h, _⟩ => (nomatch h)⟩
  | ok a => exact ⟨fun h => ⟨a, rfl, h⟩, fun ⟨_, rfl, h⟩ => h⟩

theorem map_eq_ok_iff {x : Except ε α} {f : α → β} {b : β} :
    x.map f = .ok b ↔ ∃ a, x = .ok a ∧ f a = b := by
  cases x with
  | error e => exact ⟨fun h => (nomatch h), fun ⟨_, h, _⟩ => (nomatch h)⟩
  | ok a => exact ⟨fun h => ⟨a, rfl, Except.ok.inj h⟩, fun ⟨_, rfl, h⟩ => congrArg Except.ok h⟩

theorem exists_eq_ok_of_any {x : Except ε α} {p : α → Bool} (h : x.toOption.any p = true) :
    ∃ a, x = .ok a ∧ p a = true := by
  cases x with
  | error e => cases h
  | ok a => exact ⟨a, rfl, h⟩

/-- What every step of a fold keeps holds at its end. -/
theorem foldlM_preserves {f : β → α → Except ε β} {P : β → Prop}
    (hf : ∀ b a b', P b → f b a = .ok b' → P b') {as : List α} {b b' : β} (hb : P b)
    (h : as.foldlM f b = .ok b') : P b' := by
  induction as generalizing b with
  | nil =>
    cases h
    exact hb
  | cons a as ih =>
    rw [List.foldlM_cons] at h
    obtain ⟨c, hc, h⟩ := bind_eq_ok_iff.1 h
    exact ih (hf b a c hb hc) h

/-- A fold comes to a step, with what it makes of the steps before. -/
structure Comes (f : β → α → Except ε β) (b : β) (as before : List α) (a : α) (after : List α)
    (c : β) : Prop where
  /-- The step is one of those that are folded. -/
  steps : as = before ++ a :: after
  /-- What the steps before make. -/
  run : before.foldlM f b = .ok c

variable {f : β → α → Except ε β} {as before after : List α} {a : α} {b c b' : β}

/-- A step that succeeds comes before what is reached after it. -/
theorem Comes.cons {a' : α} (h : f b a' = .ok c) (hc : Comes f c as before a after b') :
    Comes f b (a' :: as) (a' :: before) a after b' := by
  refine ⟨by rw [hc.steps, List.cons_append], ?_⟩
  rw [List.foldlM_cons]
  exact bind_eq_ok_iff.2 ⟨c, h, hc.run⟩

/-- A run fails with the first step that does. -/
theorem Comes.foldlM_eq_error {e : ε} (hc : Comes f b as before a after c)
    (h : f c a = .error e) : as.foldlM f b = .error e := by
  rw [hc.steps, List.foldlM_append, hc.run]
  change (a :: after).foldlM f c = .error e
  rw [List.foldlM_cons, h]
  rfl

/-- A fold fails as the first step that fails does. -/
theorem foldlM_eq_error_iff {e : ε} :
    as.foldlM f b = .error e ↔
      ∃ before a after c, Comes f b as before a after c ∧ f c a = .error e := by
  refine ⟨fun h => ?_, fun ⟨_, _, _, _, hc, h⟩ => hc.foldlM_eq_error h⟩
  induction as generalizing b with
  | nil => cases h
  | cons a as ih =>
    rw [List.foldlM_cons] at h
    cases hstep : f b a with
    | error e' =>
      rw [hstep] at h
      cases h
      exact ⟨[], a, as, b, ⟨rfl, rfl⟩, hstep⟩
    | ok c =>
      rw [hstep] at h
      obtain ⟨before, a', after, c', hc, h⟩ := ih h
      exact ⟨a :: before, a', after, c', hc.cons hstep, h⟩

theorem Comes.append_singleton (hc : Comes f b as before a after c) (a' : α) :
    Comes f b (as ++ [a']) before a (after ++ [a']) c :=
  ⟨by rw [hc.steps, List.append_assoc, List.cons_append], hc.run⟩

/-- What all steps keep but those that drop it holds at the end of a fold, or one of those has
    dropped it and it did not hold again after any later step. -/
theorem foldlM_retains {P : β → Prop} {Drops : β → α → Prop}
    (hf : ∀ before a after c c', Comes f b as before a after c → P c → ¬Drops c a →
      f c a = .ok c' → P c')
    (hb : P b) (h : as.foldlM f b = .ok b') :
    P b' ∨ ∃ before a after c, Comes f b as before a after c ∧ Drops c a ∧
      ∀ mid rest c', after = mid ++ rest → (before ++ a :: mid).foldlM f b = .ok c' → ¬P c' := by
  induction as using List.reverseRecOn generalizing b' with
  | nil =>
    cases h
    exact .inl hb
  | append_singleton as a ih =>
    by_cases hb' : P b'
    · exact .inl hb'
    have hall := h
    rw [List.foldlM_append] at h
    obtain ⟨c, hc, h⟩ := bind_eq_ok_iff.1 h
    rw [List.foldlM_cons] at h
    obtain ⟨c', hstep, h⟩ := bind_eq_ok_iff.1 h
    cases h
    refine .inr ?_
    have hf' := fun before a' after c c' (hcomes : Comes f b as before a' after c) =>
      hf before a' (after ++ [a]) c c' (hcomes.append_singleton a)
    rcases ih hf' hc with hP | ⟨before, d, after, c₀, hcomes, hdrops, hlost⟩
    · -- The last step is the one that drops it.
      have hcomes : Comes f b (as ++ [a]) as a [] c := ⟨rfl, hc⟩
      have hdrops : Drops c a :=
        Classical.not_not.1 fun hnot => hb' (hf as a [] c b' hcomes hP hnot hstep)
      refine ⟨as, a, [], c, hcomes, hdrops, fun mid rest c' hsplit hrun => ?_⟩
      obtain ⟨rfl, -⟩ := List.append_eq_nil_iff.1 hsplit.symm
      cases hall.symm.trans hrun
      exact hb'
    · -- An earlier step has dropped it, and it does not hold after the last one either.
      refine ⟨before, d, after ++ [a], c₀, hcomes.append_singleton a, hdrops,
        fun mid rest c' hsplit hrun => ?_⟩
      rcases List.eq_nil_or_concat rest with rfl | ⟨rest, a', rfl⟩
      · rw [List.append_nil] at hsplit
        rw [← hsplit, ← List.cons_append, ← List.append_assoc, ← hcomes.steps] at hrun
        cases hall.symm.trans hrun
        exact hb'
      · rw [List.concat_eq_append, ← List.append_assoc] at hsplit
        obtain ⟨hsplit, -⟩ := List.append_inj' hsplit rfl
        exact hlost mid rest c' hsplit hrun

end CategoryLint
