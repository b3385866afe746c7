import CategoryLint.Proofs.Everywhere
import CategoryLint.Proofs.LastVariable

/-!
# Case variants

A mapping is case-clean if no two of its keys are one text, letter case aside, and a value is if
all mappings inside it are. Then a segment finds one key at most.

A segment that finds no key becomes a new one, which differs from all others even in its lower-case
form (`Entries.CaseClean.put`). So no run of variables makes a case variant of a key, in whatever
spellings the variables are named, unless one of them brings a value with case variants along
(`caseClean_applyWith`). A run that fails midway leaves none either.
-/

namespace CategoryLint

variable {es : Entries} {seg raw : String} {k : Scalar} {v : Value}

/-! ## Case-clean values -/

/-- No two keys of a mapping are texts with the same lower-case form. -/
def Entries.CaseClean (es : Entries) : Prop :=
  es.keys.Pairwise fun k l => ∀ s t : TextValue, k = .str s → l = .str t → s.lower ≠ t.lower

/-- No mapping inside a value has two keys that are the same text, letter case aside. -/
def Value.CaseClean (v : Value) : Prop := v.Everywhere Entries.CaseClean

/-- A configuration is case-clean, and all its objects are. -/
structure Config.CaseClean (c : Config) : Prop where
  /-- The configuration without what links lead to. -/
  entries : Value.CaseClean (.mapping c.entries)
  /-- What links lead to. -/
  objects : ∀ v ∈ c.objects, v.CaseClean

namespace Override

/-- Storing under the key that a segment finds makes no case variant. -/
theorem Finds.caseClean_put (h : Finds es seg k) (hes : es.CaseClean) (v : Value) :
    (es.put k v).CaseClean := by
  have hkeys := Entries.keys_put es k v
  split at hkeys
  · rwa [Entries.CaseClean, hkeys]
  · -- The key is new, so it is the segment, and no key before is the same, letter case aside.
    next habsent =>
    rw [Entries.CaseClean, hkeys, List.pairwise_append]
    refine ⟨hes, List.pairwise_singleton _ _, ?_⟩
    cases h with
    | first hsplit =>
      refine absurd ?_ habsent
      rw [List.any_eq_true]
      exact ⟨k, by simp [hsplit], by simp⟩
    | fresh hnone =>
      rintro l hl m hm s t rfl rfl heq
      cases List.mem_singleton.1 hm
      exact hnone _ hl (fits_str_iff.2 heq)

/-- No second spelling comes in with a key that a segment finds. -/
theorem lasts_caseClean : Lasts Entries.CaseClean where
  nil := .nil
  put _ v hes := (finds_iff.2 rfl : Finds _ _ _).caseClean_put hes v

/-! ## Runs -/

/-- A variable makes a case-clean value of a setting: the setting is a text and stays one, or the
    variable's text stands for such a value, if it stands for any. -/
def MakesClean [Limits] (old : Option Value) (raw : String) : Prop :=
  old.any (·.isStr) ∨ ∀ v, Coercion.coerce raw = .ok v → v.CaseClean

theorem MakesClean.newValue [Limits] {old : Option Value} (h : MakesClean old raw) :
    ∀ v, newValue old raw = .ok v → v.CaseClean := by
  intro v hv
  rw [Override.newValue] at hv
  split at hv
  · cases hv
    exact .scalar _
  · next hold => exact h.resolve_left hold v hv

/-- In trees and in configurations with links, a run of variables makes no case variant of a key,
    if every variable that it comes to makes a case-clean value. -/
theorem caseClean_applyWith [Limits] (strict : Bool) (environment : List (String × String)) :
    (∀ es : Entries, Value.CaseClean (.mapping es) →
      (∀ fs path raw, Attempts set strict es (ofEnvironment environment) fs path raw →
        MakesClean (setting? fs path) raw) →
      Value.CaseClean (.mapping (apply strict es environment).config)) ∧
    ∀ c : Config, c.CaseClean →
      (∀ d path raw, Attempts Sharing.set strict c (ofEnvironment environment) d path raw →
        MakesClean (Sharing.setting? d.objects d.entries path) raw) →
      (applyWith Sharing.set strict c (ofEnvironment environment)).config.CaseClean := by
  constructor
  · intro es hes hclean
    refine applyWith_preserves (P := fun es => Value.CaseClean (.mapping es)) hes ?_
    intro fs path raw hfs hes
    exact everywhere_set lasts_caseClean hes (hclean fs path raw hfs).newValue
  · intro c hc hclean
    refine applyWith_preserves (P := Config.CaseClean) hc ?_
    intro d path raw hd hc
    obtain ⟨hentries, hobjects⟩ := Sharing.everywhere_set lasts_caseClean hc.entries hc.objects
      (hclean d path raw hd).newValue
    exact ⟨hentries, hobjects⟩

/-- A section with a text. -/
def noted : Entries := [(.str "Rules", .mapping [(.int 1, .null), (.str "Note", .str "x")])]

/-- A value with case variants for the text, and one that cannot be read for a new setting. -/
def spelledAgain : List (String × String) :=
  [("PATTERNLINT_RULES__NOTE", "\x7b\"a\": 1, \"A\": 2\x7d"),
    ("PATTERNLINT_rules__b__c", "\u001c5")]

/-- The text stays a text, and then the run fails. -/
theorem caseClean_applyWith_spelledAgain :
    Value.CaseClean (.mapping noted) ∧
      (∀ fs path raw, Attempts set true noted (ofEnvironment spelledAgain) fs path raw →
        MakesClean (setting? fs path) raw) ∧
      Value.CaseClean (.mapping (apply true noted spelledAgain).config) := by
  have hnoted : Value.CaseClean (.mapping noted) := by
    refine .mapping (List.pairwise_singleton _ _) (List.forall_mem_singleton.2 (.mapping ?_ ?_))
    · simp [Entries.CaseClean, Entries.keys]
    · simp [Value.Everywhere.scalar]
  have hvars : ofEnvironment spelledAgain =
      [("RULES__NOTE", "\x7b\"a\": 1, \"A\": 2\x7d"), ("rules__b__c", "\u001c5")] := by
    have hsorted : spelledAgain.Pairwise fun a b => decide (a.1 ≤ b.1) := by decide +kernel
    rw [ofEnvironment, List.mergeSort_of_pairwise hsorted]
    decide +kernel
  have hclean : ∀ fs path raw, Attempts set true noted (ofEnvironment spelledAgain) fs path raw →
      MakesClean (setting? fs path) raw := by
    rintro fs path raw ⟨before, after, tail, hsplit, hnone, rfl, hread, -⟩
    rw [hvars] at hsplit
    rcases before with _ | ⟨v, _ | ⟨v', before⟩⟩
    · -- The setting is a text.
      cases hsplit
      cases hread.symm.trans (show readTail true "RULES__NOTE" = .ok ["RULES", "NOTE"] from rfl)
      exact .inl rfl
    · -- The text of the variable stands for nothing.
      cases hsplit
      refine .inr fun v hv => ?_
      have herror : (Coercion.coerce "\u001c5").toOption.isNone := by decide +kernel
      rw [hv] at herror
      cases herror
    · simp at hsplit
  exact ⟨hnoted, hclean, (caseClean_applyWith true spelledAgain).1 noted hnoted hclean⟩

end Override

end CategoryLint
