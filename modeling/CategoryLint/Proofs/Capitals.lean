import CategoryLint.Proofs.Independence
import CategoryLint.Proofs.Requirement
import CategoryLint.Proofs.UpperCase

/-!
# Requirements in capitals

A check compares lower-case forms, so a requirement typed in capitals is the same requirement only
if lower case leads back: exactly if every character of it is steady, or if no text meets it anyway
(`outcome_upper_iff`). A listable requirement that is not steady is told apart from its capitals by
the file that lists it alone. In capitals a requirement has the same marks, so what cannot be met
cannot be met in capitals either. Requirements are plain ones throughout, texts without surrogates.
-/

namespace CategoryLint

open Text

/-! ## Upper-case forms of texts -/

variable {s : String}

/-- Upper case keeps the blanks, the commas and the closings of a text in place. -/
theorem Text.skeleton_upper (s : String) : skeleton (upper s).toList = skeleton s.toList := by
  rw [upper, String.toList_ofList, skeleton_upperChars]

theorem Text.upper_eq_empty_iff : upper s = "" ↔ s = "" := by
  rw [← String.toList_eq_nil_iff, ← skeleton_eq_nil_iff, skeleton_upper, skeleton_eq_nil_iff,
    String.toList_eq_nil_iff]

theorem Listable.of_upper (h : Listable (upper s).toList) : Listable s.toList :=
  h.of_skeleton_eq (skeleton_upper s)

namespace Rule

variable {t : List Char}

/-! ## Requirements that are met -/

/-- A requirement that some text passes is empty or listable. -/
theorem listable_of_outcome (h : ((requiring (.plain s)).check t).outcome = .pass) :
    s = "" ∨ Listable s.toList := by
  rw [requiring, ofValue_str] at h
  exact or_iff_not_imp_left.2 fun hs => listable_of_pass rfl hs h

/-! ## Capitals -/

/-- A steady requirement has the same outcomes in upper case. -/
theorem outcome_upper_of_steady (h : Steady s) (t : List Char) :
    ((requiring (.plain (upper s))).check t).outcome =
      ((requiring (.plain s)).check t).outcome := by
  have hlower : lower (upper s) = lower s := (lower_upper_eq_iff s).2 h
  refine outcome_eq_of_metBy_iff fun categories => ?_
  simp only [requiring, ofValue_str, MetBy, TextValue.plain.injEq, upper_eq_empty_iff,
    TextValue.lower, hlower]

/-- What is not met is not met in capitals. -/
theorem outcome_upper_of_forall_ne (h : ∀ t, ((requiring (.plain s)).check t).outcome ≠ .pass)
    (t : List Char) :
    ((requiring (.plain (upper s))).check t).outcome =
      ((requiring (.plain s)).check t).outcome := by
  refine outcome_eq_of_pass_iff (iff_of_false (fun hpass => ?_) (h t))
  have hs : s = "" ∨ Listable s.toList :=
    (listable_of_outcome hpass).imp upper_eq_empty_iff.1 Listable.of_upper
  obtain ⟨t, ht⟩ := exists_pass hs
  exact h t (by rwa [requiring, ofValue_str])

/-- The file that lists a requirement alone tells it from its capitals, if it is not steady. -/
theorem steady_of_forall_outcome (hs : Listable s.toList)
    (h : ∀ t, ((requiring (.plain (upper s))).check t).outcome =
      ((requiring (.plain s)).check t).outcome) : Steady s := by
  rw [← lower_upper_eq_iff]
  by_cases hempty : s = ""
  · rw [hempty]
    rfl
  obtain ⟨t, d, v, hd, hv, hcategories⟩ :=
    exists_categories hs fun hnil => hempty (String.toList_eq_nil_iff.1 hnil)
  have hpass : ((requiring (.plain s)).check t).outcome = .pass := by
    refine outcome_check_of_metBy hd hv (.inr ?_)
    simp [requiring, ofValue_str, hcategories]
  rw [← h t, outcome_eq_pass_iff] at hpass
  obtain ⟨d', v', hd', hv', hmet⟩ := hpass
  obtain rfl : d = d' := Option.some.inj (hd.symm.trans hd')
  obtain rfl : v = v' := Option.some.inj (hv.symm.trans hv')
  rw [hcategories] at hmet
  simpa [requiring, ofValue_str, MetBy, TextValue.lower, upper_eq_empty_iff, hempty] using hmet

/-- A requirement and its capitals have the same outcome on every text exactly if each character
    of it is steady or if it cannot be met. -/
theorem outcome_upper_iff (s : String) :
    (∀ t, ((requiring (.plain (upper s))).check t).outcome =
        ((requiring (.plain s)).check t).outcome) ↔
      Steady s ∨ ∀ t, ((requiring (.plain s)).check t).outcome ≠ .pass := by
  constructor
  · intro h
    refine or_iff_not_imp_right.2 fun hpass => ?_
    simp only [not_forall, not_not] at hpass
    obtain ⟨t, ht⟩ := hpass
    rcases listable_of_outcome ht with rfl | hs
    · exact (lower_upper_eq_iff "").1 rfl
    · exact steady_of_forall_outcome hs h
  · rintro (hsteady | hnever)
    · exact outcome_upper_of_steady hsteady
    · exact outcome_upper_of_forall_ne hnever

/-- A sharp s becomes two letters, which lower case leaves two. -/
theorem outcome_upper_ne_eszett :
    let t := "/**\n * Categories: straße\n */".toList
    upper "straße" = "STRASSE" ∧ ((requiring "straße").check t).outcome = .pass ∧
      ((requiring (upper "straße")).check t).outcome = .missingBaseCategory := by
  decide +kernel

end Rule

end CategoryLint
