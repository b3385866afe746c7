import CategoryLint.Rule

/-!
# Verdicts

The verdict on a text depends on its block and the block's header only: without a header it is
the same for every rule (`outcome_eq_missingCategories_iff`), and with one it is a matter of the
header's categories (`MetBy`), so there are three kinds of texts (`outcome_cases`). A rule that is
not met names the whole value of the header.
-/

namespace CategoryLint.Rule

variable {rule : Rule} {t d v : List Char}

/-- The categories of a file are enough for the rule: it requires nothing, or they have the
    required category among them, letter case aside. -/
def MetBy (rule : Rule) (categories : List String) : Prop :=
  rule.base = .plain "" ∨ rule.base.lower ∈ categories.map fun c => (TextValue.plain c).lower

instance (rule : Rule) (categories : List String) : Decidable (rule.MetBy categories) :=
  inferInstanceAs (Decidable (_ ∨ _))

/-- A category is among others if their lower-case forms are the same. -/
theorem lists_iff {categories : List String} {base : TextValue} :
    lists categories base ↔ base.lower ∈ categories.map fun c => (TextValue.plain c).lower := by
  cases base with
  | plain s => simp [lists, TextValue.lower]
  | broken ps => simp [lists, TextValue.lower]

/-! ## The value of a header -/

theorem outcome_judge_of_metBy (h : rule.MetBy ((Docblock.categories v).map String.ofList)) :
    (rule.judge v).outcome = .pass := by
  rw [judge]
  split
  · rfl
  · next hb => rw [if_pos (lists_iff.2 (h.resolve_left hb))]; rfl

/-- A value whose categories do not meet the requirement lacks it. -/
theorem judge_of_not_metBy (h : ¬rule.MetBy ((Docblock.categories v).map String.ofList)) :
    rule.judge v = .lacking (String.ofList v) := by
  rw [judge, if_neg fun hb => h (.inl hb), if_neg fun hl => h (.inr (lists_iff.1 hl))]

/-- A header that is there is not reported as missing. -/
theorem outcome_judge_ne : (rule.judge v).outcome ≠ .missingCategories := by
  by_cases h : rule.MetBy ((Docblock.categories v).map String.ofList)
  · rw [outcome_judge_of_metBy h]
    decide
  · rw [judge_of_not_metBy h, Verdict.outcome]
    decide

/-! ## Texts -/

theorem outcome_check : (rule.check t).outcome = (rule.verdict t).outcome := rfl

theorem violation_check : (rule.check t).violation = rule.violation? (rule.verdict t) := rfl

theorem verdict_of_header (hd : Docblock.find? t = some d) (hv : Docblock.header? d = some v) :
    rule.verdict t = rule.judge v := by
  simp only [verdict, hd, hv]

theorem verdict_of_no_header (hd : Docblock.find? t = some d) (hv : Docblock.header? d = none) :
    rule.verdict t = .noHeader := by
  simp only [verdict, hd, hv]

/-- A header whose categories meet the requirement passes. -/
theorem outcome_check_of_metBy (hd : Docblock.find? t = some d)
    (hv : Docblock.header? d = some v)
    (h : rule.MetBy ((Docblock.categories v).map String.ofList)) :
    (rule.check t).outcome = .pass := by
  rw [outcome_check, verdict_of_header hd hv, outcome_judge_of_metBy h]

/-- A header that does not meet the rule is quoted in the message. -/
theorem check_of_not_metBy (hd : Docblock.find? t = some d) (hv : Docblock.header? d = some v)
    (h : ¬rule.MetBy ((Docblock.categories v).map String.ofList)) :
    (rule.check t).outcome = .missingBaseCategory ∧
      ∃ violation, (rule.check t).violation = some violation ∧
        violation.message = "Pattern file Categories must include the base category \"" ++
          rule.base.shown ++ "\". Found: " ++ String.ofList v := by
  have hverdict : rule.verdict t = .lacking (String.ofList v) :=
    (verdict_of_header hd hv).trans (judge_of_not_metBy h)
  rw [outcome_check, violation_check, hverdict]
  exact ⟨rfl, _, rfl, rfl⟩

/-- A block fails a check for want of a header exactly if it has none, whatever the rule. -/
theorem outcome_eq_missingCategories_iff (hd : Docblock.find? t = some d) :
    (rule.check t).outcome = .missingCategories ↔ Docblock.header? d = none := by
  rw [outcome_check]
  cases hv : Docblock.header? d with
  | none => rw [verdict_of_no_header hd hv]; simp [Verdict.outcome]
  | some v => rw [verdict_of_header hd hv]; simp [outcome_judge_ne]

/-- What a check comes to: the same for every rule without a block or without a header, and with a
    header a matter of whether its categories meet the rule. -/
theorem outcome_cases (t : List Char) :
    (Docblock.find? t = none ∧ ∀ rule : Rule, (rule.check t).outcome = .missingDocblock) ∨
    (∃ d, Docblock.find? t = some d ∧ Docblock.header? d = none ∧
      ∀ rule : Rule, (rule.check t).outcome = .missingCategories) ∨
    ∃ d v, Docblock.find? t = some d ∧ Docblock.header? d = some v ∧
      ∀ rule : Rule, (rule.check t).outcome =
        if rule.MetBy ((Docblock.categories v).map String.ofList) then .pass
        else .missingBaseCategory := by
  cases hd : Docblock.find? t with
  | none => exact .inl ⟨rfl, fun rule => by rw [outcome_check, verdict, hd]; rfl⟩
  | some d =>
    cases hv : Docblock.header? d with
    | none =>
      refine .inr (.inl ⟨d, rfl, hv, fun rule => ?_⟩)
      rw [outcome_check, verdict_of_no_header hd hv]
      rfl
    | some v =>
      refine .inr (.inr ⟨d, v, rfl, hv, fun rule => ?_⟩)
      split
      · next h => exact outcome_check_of_metBy hd hv h
      · next h => exact (check_of_not_metBy hd hv h).1

/-- A check passes exactly if there is a header and its categories meet the rule. -/
theorem outcome_eq_pass_iff :
    (rule.check t).outcome = .pass ↔ ∃ d v, Docblock.find? t = some d ∧
      Docblock.header? d = some v ∧ rule.MetBy ((Docblock.categories v).map String.ofList) := by
  rcases outcome_cases t with ⟨hd, h⟩ | ⟨d, hd, hv, h⟩ | ⟨d, v, hd, hv, h⟩
  · simp [h, hd]
  · simp [h, hd, hv]
  · simp [h, hd, hv]

end CategoryLint.Rule
