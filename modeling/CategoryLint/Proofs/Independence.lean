import CategoryLint.Proofs.LowerCase
import CategoryLint.Proofs.PatternFile

/-!
# What a check depends on

A check reads a text only as far as its first block goes (`check_eq_of_find?_eq`), and the block is
the same whatever is put around it, if no block starts before it. Of a requirement it reads the
lower-case form (`lists_lower`): two requirements that are met by the same categories have the same
outcome on every text (`outcome_eq_of_metBy_iff`). Whether there is a block and a header does not
depend on the requirement at all.
-/

namespace CategoryLint

open Text

/-! ## Blocks -/

/-- The block of a text is found wherever it is put, if no block starts before it. -/
theorem Docblock.find?_append_block {t d pre : List Char} (hd : find? t = some d)
    (hpre : ¬opening <:+: pre) (post : List Char) : find? (pre ++ d ++ post) = some d := by
  obtain ⟨-, body, -, -, hblock, -, hbody⟩ := find?_eq_some_iff.1 hd
  exact find?_eq_some_iff.2 ⟨pre, body, post, List.append_assoc .., hblock, hpre, hbody⟩

/-! ## Lower-case forms of requirements -/

theorem Text.lower_eq_empty_iff {s : String} : lower s = "" ↔ s = "" := by
  rw [← String.toList_eq_nil_iff, ← String.toList_eq_nil_iff, lower, String.toList_ofList,
    ← skeleton_eq_nil_iff, skeleton_lowerChars, skeleton_eq_nil_iff]

theorem TextValue.lower_eq_empty_iff {r : TextValue} : r.lower = .plain "" ↔ r = .plain "" := by
  cases r with
  | plain s => simp [lower, Text.lower_eq_empty_iff]
  | broken ps => simp [lower]

namespace Rule

variable {rule rule' : Rule} {t t' : List Char}

/-- Categories are compared in lower case, and lower case twice is lower case. -/
theorem lists_lower (categories : List String) (r : TextValue) :
    lists categories r.lower = lists categories r := by
  cases r with
  | plain s => rw [TextValue.lower, lists, lists, lower_lower]
  | broken ps => rfl

/-- A requirement is met if it is empty or listed. -/
theorem metBy_iff_lists {categories : List String} :
    rule.MetBy categories ↔ rule.base = .plain "" ∨ lists categories rule.base := by
  rw [MetBy, lists_iff]

/-! ## Texts and requirements -/

/-- A check looks at the first block of a text and at nothing else. -/
theorem check_eq_of_find?_eq (rule : Rule) (h : Docblock.find? t = Docblock.find? t') :
    rule.check t = rule.check t' := by
  have hverdict : rule.verdict t = rule.verdict t' := by rw [verdict, verdict, h]
  simp only [check, hverdict]

/-- The outcomes of two rules can only differ in one of them being a success. -/
theorem outcome_eq_of_pass_iff
    (h : (rule.check t).outcome = .pass ↔ (rule'.check t).outcome = .pass) :
    (rule.check t).outcome = (rule'.check t).outcome := by
  rcases outcome_cases t with ⟨-, hout⟩ | ⟨d, -, -, hout⟩ | ⟨d, v, -, -, hout⟩
  · rw [hout, hout]
  · rw [hout, hout]
  · -- Only here is the requirement looked at.
    simp only [hout] at h ⊢
    split_ifs at h ⊢ <;> simp_all

/-- Rules that are met by the same categories have the same outcomes. -/
theorem outcome_eq_of_metBy_iff (h : ∀ categories, rule.MetBy categories ↔ rule'.MetBy categories) :
    (rule.check t).outcome = (rule'.check t).outcome :=
  outcome_eq_of_pass_iff (by simp only [outcome_eq_pass_iff, h])

/-- A text fails a check for want of a block exactly if it has none, whatever the rule. -/
theorem outcome_eq_missingDocblock_iff :
    (rule.check t).outcome = .missingDocblock ↔ Docblock.find? t = none := by
  rcases outcome_cases t with ⟨hd, hout⟩ | ⟨d, hd, hv, hout⟩ | ⟨d, v, hd, hv, hout⟩
  · simp [hout, hd]
  · simp [hout, hd]
  · rw [hout, hd]
    split <;> simp

theorem outcome_eq_missingCategories_iff_exists :
    (rule.check t).outcome = .missingCategories ↔
      ∃ d, Docblock.find? t = some d ∧ Docblock.header? d = none := by
  cases hd : Docblock.find? t with
  | none => simp [outcome_eq_missingDocblock_iff.2 hd]
  | some d => simp [outcome_eq_missingCategories_iff hd]

/-- The rule that requires a text. -/
def requiring (r : TextValue) : Rule := ofValue (.scalar (.str r))

/-- The result of a check depends on the first block of the text, and its outcome on the
    lower-case form of the requirement; the requirement only decides whether a header is enough. -/
theorem check_independent (t : List Char) :
    (∀ d pre post r, Docblock.find? t = some d → ¬Docblock.opening <:+: pre →
      (requiring r).check (pre ++ d ++ post) = (requiring r).check t) ∧
    (∀ r₁ r₂ : TextValue, r₁ ≠ .plain "" → r₂ ≠ .plain "" → r₁.lower = r₂.lower →
      ((requiring r₁).check t).outcome = ((requiring r₂).check t).outcome) ∧
    (∀ r, ((requiring r).check t).outcome = ((requiring r.lower).check t).outcome) ∧
    (∀ r₁ r₂,
      (((requiring r₁).check t).outcome = .missingDocblock ↔
        ((requiring r₂).check t).outcome = .missingDocblock) ∧
      (((requiring r₁).check t).outcome = .missingCategories ↔
        ((requiring r₂).check t).outcome = .missingCategories)) ∧
    ∀ r, ((requiring r).check t).outcome = .pass →
      ((requiring (.plain "")).check t).outcome = .pass := by
  simp only [requiring, ofValue_str]
  refine ⟨fun d pre post r hd hpre => ?_, fun r₁ r₂ h₁ h₂ h => ?_, fun r => ?_, fun r₁ r₂ => ?_,
    fun r h => ?_⟩
  · exact check_eq_of_find?_eq _ ((Docblock.find?_append_block hd hpre post).trans hd.symm)
  · exact outcome_eq_of_metBy_iff fun categories => by simp [MetBy, h₁, h₂, h]
  · refine outcome_eq_of_metBy_iff fun categories => ?_
    simp only [metBy_iff_lists, lists_lower, TextValue.lower_eq_empty_iff]
  · simp only [outcome_eq_missingDocblock_iff, outcome_eq_missingCategories_iff_exists, and_self]
  · obtain ⟨d, v, hd, hv, -⟩ := outcome_eq_pass_iff.1 h
    exact outcome_check_of_metBy hd hv (.inl rfl)

/-- A block is found behind half a mark that it could complete, and a final sigma is the same
    letter as any other. -/
theorem check_independent_sigma :
    let t := "<?php\n/**\n * Categories: ὀδός, ΟΔΟΣ\n */".toList
    let d := "/**\n * Categories: ὀδός, ΟΔΟΣ\n */".toList
    (requiring "οδος").check ("/*".toList ++ d ++ "/".toList) = (requiring "οδος").check t ∧
      ((requiring "Οδος").check t).outcome = ((requiring "ΟΔΟΣ").check t).outcome := by
  intro t d
  exact ⟨(check_independent t).1 d "/*".toList "/".toList "οδος" (by decide +kernel)
      (by decide +kernel),
    (check_independent t).2.1 "Οδος" "ΟΔΟΣ" (by decide +kernel) (by decide +kernel)
      (by decide +kernel)⟩

end Rule

end CategoryLint
