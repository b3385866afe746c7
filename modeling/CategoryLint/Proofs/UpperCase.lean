import CategoryLint.Proofs.LowerCase

/-!
# Upper case and back

Lower case does not always take back what upper case did: of two letters with one capital, such as
`s` and the long `ſ`, it can only lead back to one, and a letter that becomes two, such as `ß`,
stays two. A character for which it does is steady (`IsSteady`), which is a matter of the character
alone, but for the two small sigmas, which must be where a capital one would become them.

The lower-case form of a text in capitals is that of the text exactly if each of its characters is
steady (`lowerAfter_flatMap_upperAt_iff`). One unsteady character is enough, since the forms differ
in the first character that it leads to (`Raised.astray`). The sigmas are the reason for going
through the text with what stands before it: whether a word ends there is told by the letters
around, and a steady character is a letter in capitals too if it is one at all (`Raised.letter`).
-/

namespace CategoryLint.Text

variable {before before' after after' cs : List Char} {c d : Char}

/-! ## Letters -/

/-- A character that shows whether a word has ended: a letter that is not passed over. -/
def IsLetter (c : Char) : Prop := isCased c ∧ ¬isCaseIgnorable c

instance (c : Char) : Decidable (IsLetter c) :=
  inferInstanceAs (Decidable (isCased c ∧ ¬isCaseIgnorable c))

theorem meetsCased_of_isLetter (h : IsLetter c) (cs : List Char) : meetsCased (c :: cs) := by
  rw [meetsCased, List.dropWhile_cons_of_neg h.2]
  exact h.1

/-- What is met from a character on depends on what is met after it. -/
theorem meetsCased_cons_congr (h : meetsCased before' = meetsCased before) :
    meetsCased (c :: before') = meetsCased (c :: before) := by
  by_cases hc : isCaseIgnorable c
  · simpa only [meetsCased, List.dropWhile_cons_of_pos hc] using h
  · simp only [meetsCased, List.dropWhile_cons_of_neg hc]

/-- The sigma that a capital one becomes depends on the letters around it only. -/
theorem smallSigma_congr (hb : meetsCased before' = meetsCased before)
    (ha : meetsCased after' = meetsCased after) :
    smallSigma before' after' = smallSigma before after := by
  rw [smallSigma, smallSigma, hb, ha]

/-! ## Forms of a character -/

/-- The upper-case form of a character. -/
def upperAt (c : Char) : List Char := mapChar upperRuns upperSpecials c

/-- The lower-case form of a character that is no capital sigma. -/
def lowerChar (c : Char) : List Char := mapChar lowerRuns lowerSpecials c

/-- All characters but the capital sigma become the same everywhere. -/
theorem lowerAt_of_ne (h : c ≠ 'Σ') : lowerAt before c after = lowerChar c := if_neg h

theorem lowerChar_ne_nil (c : Char) : lowerChar c ≠ [] := by
  rcases mapChar_cases lowerRuns lowerSpecials c with
    ⟨image, himage, heq⟩ | ⟨s, -, -, heq⟩ | ⟨-, -, heq⟩
  · simpa [lowerChar, heq] using lowerSpecials_ne_nil _ himage
  · simp [lowerChar, heq]
  · simp [lowerChar, heq]

theorem head?_lowerChar_append (c : Char) (cs : List Char) :
    (lowerChar c ++ cs).head? = (lowerChar c).head? := by
  obtain ⟨d, ds, hds⟩ := List.exists_cons_of_ne_nil (lowerChar_ne_nil c)
  rw [hds, List.cons_append, List.head?_cons, List.head?_cons]

/-- All characters but the dotted capital I become one character. -/
theorem exists_lowerChar_eq (h : c ≠ 'İ') : ∃ d, lowerChar c = [d] := by
  rcases mapChar_cases lowerRuns lowerSpecials c with
    ⟨image, himage, -⟩ | ⟨s, -, -, heq⟩ | ⟨-, -, heq⟩
  · rw [lowerSpecials, List.mem_singleton, Prod.mk.injEq] at himage
    exact absurd (Char.toNat_inj.1 himage.1) h
  · exact ⟨_, heq⟩
  · exact ⟨_, heq⟩

/-! ## The tables -/

/-- The code points that the runs move and those that they move them to. -/
def runPoints : Nat := Shift.sources upperRuns ||| Shift.targets upperRuns

/-- A shift of upper case moves between members of one set. -/
theorem testBit_runPoints {s : Shift} {n : Nat} (hs : s ∈ upperRuns) (h : s.moves n) :
    runPoints.testBit n ∧ runPoints.testBit (s.image n).toNat := by
  simp only [runPoints, Nat.testBit_or, Shift.testBit_sources hs h, Shift.testBit_targets hs h,
    Bool.true_or, Bool.or_true, and_self]

/-- What the runs move is a letter and stays one, but for the combining iota U+0345. -/
theorem runPoints_letters :
    runPoints &&& spanSet casedSpans ||| bits ['\u0345'.toNat] = runPoints ∧
      runPoints &&& spanSet caseIgnorableSpans = bits ['\u0345'.toNat] := by
  decide +kernel

/-- What a shift moves is a letter, but for the iota below a letter. -/
theorem isLetter_of_runPoints (h : runPoints.testBit c.toNat) (hc : c ≠ '\u0345') :
    IsLetter c := by
  have hbit : ¬(bits ['\u0345'.toNat]).testBit c.toNat := fun hbit =>
    hc (Char.toNat_inj.1 (List.mem_singleton.1 (testBit_bits.1 hbit)))
  constructor
  · rw [← runPoints_letters.1, Nat.testBit_or, Nat.testBit_and, Bool.or_eq_true,
      Bool.and_eq_true] at h
    exact testBit_spanSet.1 (h.resolve_right hbit).2
  · intro hignorable
    rw [← runPoints_letters.2, Nat.testBit_and, h, testBit_spanSet.2 hignorable] at hbit
    exact hbit rfl

/-- The runs lead to a capital sigma from the small ones only, and never to the dotted `İ`, whose
    lower-case form is two characters, or to the combining iota. -/
theorem upperRuns_images : ∀ s ∈ upperRuns, ∀ n ∈ s.points,
    s.image n ∉ ['Σ', 'İ', '\u0345'] ∨ n ∈ ['σ'.toNat, 'ς'.toNat] := by
  decide +kernel

/-- Lower case leads away from the characters with special forms. -/
theorem upperSpecials_astray : ∀ special ∈ upperSpecials,
    special.2 ≠ [] ∧ ∀ e ∈ special.2.head?, Char.ofNat e ≠ 'Σ' ∧
      (lowerChar (Char.ofNat e)).head? ≠ (lowerChar (Char.ofNat special.1)).head? := by
  decide +kernel

/-! ## Steady characters -/

/-- A character between two texts, the first with its nearest character first, that upper case and
    then lower case lead to its lower-case form. A small sigma must be the one that a capital sigma
    would become. -/
def IsSteady (before : List Char) (c : Char) (after : List Char) : Prop :=
  if c = 'σ' ∨ c = 'ς' then c = smallSigma before after
  else (upperAt c).flatMap lowerChar = lowerChar c

/-- Every character of a text is steady, after the text `before`, nearest character first. -/
def SteadyAfter (before cs : List Char) : Prop :=
  ∀ a c b, cs = a ++ c :: b → IsSteady (a.reverse ++ before) c b

/-- What upper case makes of a character. -/
inductive Raised (c : Char) : Prop where
  /-- It has no other upper-case form. -/
  | same (hupper : upperAt c = [c]) (hc : ¬(c = 'σ' ∨ c = 'ς'))
  /-- It is a small sigma. -/
  | sigma (hc : c = 'σ' ∨ c = 'ς')
  /-- It is a letter and becomes one with its lower-case form. -/
  | letter (d : Char) (hupper : upperAt c = [d]) (hlower : lowerChar d = lowerChar c)
      (hletter : IsLetter c ∧ IsLetter d) (hc : ¬(c = 'σ' ∨ c = 'ς')) (hsigma : c ≠ 'Σ' ∧ d ≠ 'Σ')
  /-- It becomes one or several characters whose lower-case form starts in another way. -/
  | astray (e : Char) (es : List Char) (hupper : upperAt c = e :: es)
      (hhead : (lowerChar e).head? ≠ (lowerChar c).head?) (hc : ¬(c = 'σ' ∨ c = 'ς'))
      (hsigma : c ≠ 'Σ' ∧ e ≠ 'Σ')

/-- A character that is moved by a shift is raised as the shift says. -/
theorem raised_of_run {s : Shift} (hs : s ∈ upperRuns) (hmoves : s.moves c.toNat)
    (hupper : upperAt c = [s.image c.toNat]) (hc : c ∉ ['σ', 'ς', 'Σ', 'İ', '\u0345']) :
    Raised c := by
  simp only [List.mem_cons, List.not_mem_nil, or_false, not_or] at hc
  obtain ⟨hsmall, hfinal, hsigma, hdotted, hiota⟩ := hc
  have hsmall : ¬(c = 'σ' ∨ c = 'ς') := not_or.2 ⟨hsmall, hfinal⟩
  have hpoint : c.toNat ∉ ['σ'.toNat, 'ς'.toNat] := by
    simpa only [List.mem_cons, List.not_mem_nil, or_false, Char.toNat_inj] using hsmall
  have himage := (upperRuns_images s hs _ (Shift.mem_points hmoves)).resolve_right hpoint
  obtain ⟨hsource, htarget⟩ := testBit_runPoints hs hmoves
  generalize s.image c.toNat = d at hupper himage htarget
  simp only [List.mem_cons, List.not_mem_nil, or_false, not_or] at himage
  by_cases hlower : lowerChar d = lowerChar c
  · exact .letter d hupper hlower ⟨isLetter_of_runPoints hsource hiota,
      isLetter_of_runPoints htarget himage.2.2⟩ hsmall ⟨hsigma, himage.1⟩
  · -- Both lower-case forms are one character.
    obtain ⟨x, hx⟩ := exists_lowerChar_eq hdotted
    obtain ⟨y, hy⟩ := exists_lowerChar_eq himage.2.1
    refine .astray d [] hupper (fun hhead => hlower ?_) hsmall ⟨hsigma, himage.1⟩
    rw [hx, hy, List.head?_cons, List.head?_cons, Option.some.injEq] at hhead
    rw [hx, hy, hhead]

/-- How every character is raised: all cases that there are. -/
theorem raised (c : Char) : Raised c := by
  by_cases hc : c ∈ ['σ', 'ς', 'Σ', 'İ', '\u0345']
  · simp only [List.mem_cons, List.not_mem_nil, or_false] at hc
    rcases hc with rfl | rfl | rfl | rfl | rfl
    · exact .sigma (.inl rfl)
    · exact .sigma (.inr rfl)
    · exact .same (by decide) (by decide)
    · exact .same (by decide) (by decide)
    · exact .astray 'Ι' [] (by decide) (by decide) (by decide) (by decide)
  rcases mapChar_cases upperRuns upperSpecials c with
    ⟨image, himage, heq⟩ | ⟨s, hs, hmoves, heq⟩ | ⟨-, -, heq⟩
  · obtain ⟨hne, hhead⟩ := upperSpecials_astray _ himage
    obtain ⟨e, es, rfl⟩ := List.exists_cons_of_ne_nil hne
    obtain ⟨hesigma, hlower⟩ := hhead e rfl
    rw [Char.ofNat_toNat] at hlower
    simp only [List.mem_cons, not_or] at hc
    exact .astray _ _ heq hlower (not_or.2 ⟨hc.1, hc.2.1⟩) ⟨hc.2.2.1, hesigma⟩
  · exact raised_of_run hs hmoves heq hc
  · simp only [List.mem_cons, not_or] at hc
    exact .same heq (not_or.2 ⟨hc.1, hc.2.1⟩)

/-- A small sigma is steady where a capital one would become it. -/
theorem isSteady_iff_of_sigma (hc : c = 'σ' ∨ c = 'ς') :
    IsSteady before c after ↔ c = smallSigma before after := by
  rw [IsSteady, if_pos hc]

theorem isSteady_iff_of_not_sigma (hc : ¬(c = 'σ' ∨ c = 'ς')) :
    IsSteady before c after ↔ (upperAt c).flatMap lowerChar = lowerChar c := by
  rw [IsSteady, if_neg hc]

/-- A character is steady if its one capital becomes what it becomes. -/
theorem isSteady_of_upperAt (hc : ¬(c = 'σ' ∨ c = 'ς')) (hupper : upperAt c = [d])
    (hlower : lowerChar d = lowerChar c) : IsSteady before c after := by
  rw [isSteady_iff_of_not_sigma hc, hupper, List.flatMap_singleton, hlower]

/-- A character is not steady if its capitals begin to become something else. -/
theorem not_isSteady_of_head {e : Char} {es : List Char} (hc : ¬(c = 'σ' ∨ c = 'ς'))
    (hupper : upperAt c = e :: es) (hhead : (lowerChar e).head? ≠ (lowerChar c).head?) :
    ¬IsSteady before c after := by
  rw [isSteady_iff_of_not_sigma hc, hupper, List.flatMap_cons]
  intro heq
  rw [← heq, head?_lowerChar_append] at hhead
  exact hhead rfl

theorem upperAt_of_sigma (hc : c = 'σ' ∨ c = 'ς') : upperAt c = ['Σ'] := by
  rcases hc with rfl | rfl <;> decide

theorem isLetter_sigma : IsLetter 'Σ' := by decide +kernel

theorem isLetter_of_sigma (hc : c = 'σ' ∨ c = 'ς') : IsLetter c := by
  rcases hc with rfl | rfl <;> decide +kernel

theorem isSmall_of_sigma (hc : c = 'σ' ∨ c = 'ς') : IsSmall c.toNat :=
  isSmall_of_images (testBit_images (by rcases hc with rfl | rfl <;> simp [specialImages]))

theorem steadyAfter_nil (before : List Char) : SteadyAfter before [] := by
  intro a c b h
  simp at h

/-- A text is steady if its first character is, and the rest after that. -/
theorem steadyAfter_cons :
    SteadyAfter before (c :: cs) ↔ IsSteady before c cs ∧ SteadyAfter (c :: before) cs := by
  constructor
  · intro h
    refine ⟨h [] c cs rfl, fun a d b hcs => ?_⟩
    simpa using h (c :: a) d b (by rw [hcs, List.cons_append])
  · rintro ⟨hc, hcs⟩ a d b heq
    rcases List.cons_eq_append_iff.1 heq with ⟨rfl, hd⟩ | ⟨a, rfl, hd⟩
    · obtain ⟨rfl, rfl⟩ := List.cons.inj hd
      exact hc
    · simpa using hcs a d b hd

/-! ## Texts in capitals -/

/-- A steady text shows the end of a word that it follows in capitals as it does by itself. -/
theorem meetsCased_flatMap_upperAt (h : SteadyAfter before cs) :
    meetsCased (cs.flatMap upperAt) = meetsCased cs := by
  induction cs generalizing before with
  | nil => rfl
  | cons c cs ih =>
    obtain ⟨hc, hcs⟩ := steadyAfter_cons.1 h
    rw [List.flatMap_cons]
    cases raised c with
    | same hupper =>
      rw [hupper, List.singleton_append]
      exact meetsCased_cons_congr (ih hcs)
    | sigma hsmall =>
      rw [upperAt_of_sigma hsmall, List.singleton_append,
        meetsCased_of_isLetter (isLetter_of_sigma hsmall)]
      exact meetsCased_of_isLetter isLetter_sigma _
    | letter d hupper hlower hletter =>
      rw [hupper, List.singleton_append, meetsCased_of_isLetter hletter.1]
      exact meetsCased_of_isLetter hletter.2 _
    | astray e es hupper hhead hsmall => exact absurd hc (not_isSteady_of_head hsmall hupper hhead)

/-- Lower case takes back what upper case does to a text exactly if the text is steady. -/
theorem lowerAfter_flatMap_upperAt_iff (h : meetsCased before' = meetsCased before) :
    lowerAfter before' (cs.flatMap upperAt) = lowerAfter before cs ↔ SteadyAfter before cs := by
  -- The texts before need not be the same, since one of them is in capitals.
  induction cs generalizing before before' with
  | nil => exact iff_of_true rfl (steadyAfter_nil before)
  | cons c cs ih =>
    rw [List.flatMap_cons, lowerAfter_cons, steadyAfter_cons]
    cases raised c with
    | same hupper hsmall =>
      have hsteady : IsSteady before c cs := isSteady_of_upperAt hsmall hupper rfl
      have ih := ih (meetsCased_cons_congr (c := c) h)
      rw [hupper, List.singleton_append, lowerAfter_cons]
      by_cases hsigma : c = 'Σ'
      · rw [lowerAt, lowerAt, if_pos hsigma, if_pos hsigma, List.singleton_append,
          List.singleton_append, List.cons.injEq, ih]
        exact and_congr_left fun hcs =>
          iff_of_true (smallSigma_congr h (meetsCased_flatMap_upperAt hcs)) hsteady
      · rw [lowerAt_of_ne hsigma, lowerAt_of_ne hsigma, List.append_cancel_left_eq, ih]
        exact (and_iff_right hsteady).symm
    | sigma hsmall =>
      -- Where the sigma in capitals is lowered is told by the tail, which has to be steady.
      have hmeets : meetsCased ('Σ' :: before') = meetsCased (c :: before) := by
        rw [meetsCased_of_isLetter isLetter_sigma,
          meetsCased_of_isLetter (isLetter_of_sigma hsmall)]
      rw [upperAt_of_sigma hsmall, List.singleton_append, lowerAfter_cons, lowerAt, if_pos rfl,
        lowerAt_of_isSmall (isSmall_of_sigma hsmall), List.singleton_append, List.singleton_append,
        List.cons.injEq, ih hmeets, isSteady_iff_of_sigma hsmall]
      refine and_congr_left fun hcs => ?_
      rw [smallSigma_congr h (meetsCased_flatMap_upperAt hcs), eq_comm]
    | letter d hupper hlower hletter hsmall hsigma =>
      have hsteady : IsSteady before c cs := isSteady_of_upperAt hsmall hupper hlower
      have hmeets : meetsCased (d :: before') = meetsCased (c :: before) := by
        rw [meetsCased_of_isLetter hletter.1, meetsCased_of_isLetter hletter.2]
      rw [hupper, List.singleton_append, lowerAfter_cons, lowerAt_of_ne hsigma.1,
        lowerAt_of_ne hsigma.2, hlower, List.append_cancel_left_eq, ih hmeets]
      exact (and_iff_right hsteady).symm
    | astray e es hupper hhead hsmall hsigma =>
      refine iff_of_false (fun heq => hhead ?_)
        fun hsteady => not_isSteady_of_head hsmall hupper hhead hsteady.1
      have hheads := congrArg List.head? heq
      rwa [hupper, List.cons_append, lowerAfter_cons, lowerAt_of_ne hsigma.1,
        lowerAt_of_ne hsigma.2, head?_lowerChar_append, head?_lowerChar_append] at hheads

/-- Every character of a string is steady. -/
def Steady (s : String) : Prop := SteadyAfter [] s.toList

/-- Lower case leads back from capitals exactly if the text is steady. -/
theorem lower_upper_eq_iff (s : String) : lower (upper s) = lower s ↔ Steady s := by
  rw [lower, lower, upper, String.ofList_inj, String.toList_ofList]
  exact lowerAfter_flatMap_upperAt_iff rfl

example : Steady "Οδός" ∧ ¬Steady "Οδόσ" := by
  rw [← lower_upper_eq_iff, ← lower_upper_eq_iff]
  decide +kernel

/-! ## Marks in capitals -/

/-- The code points with special upper-case forms and those in these forms. -/
def specialPoints : Nat :=
  bits (upperSpecials.flatMap fun special =>
    special.1 :: special.2.map fun n => (Char.ofNat n).toNat)

theorem upper_disjoint : spanSet markSpans &&& (runPoints ||| specialPoints) = 0 := by
  decide +kernel

/-- What has capitals is no mark. -/
theorem not_isMark_of_testBit (h : runPoints.testBit c.toNat ∨ specialPoints.testBit c.toNat) :
    ¬isMark c := by
  intro hm
  refine not_testBit_of_land_eq_zero upper_disjoint (testBit_spanSet.2 hm) ?_
  rwa [Nat.testBit_or, Bool.or_eq_true]

theorem testBit_specialPoints {special : Nat × List Nat} (h : special ∈ upperSpecials) {n : Nat}
    (hn : n ∈ special.1 :: special.2.map fun n => (Char.ofNat n).toNat) :
    specialPoints.testBit n :=
  testBit_bits.2 (List.mem_flatMap.2 ⟨special, h, hn⟩)

/-- Upper case changes no marks and makes none. -/
theorem upperAt_cases (c : Char) : upperAt c = [c] ∨
    ¬isMark c ∧ upperAt c ≠ [] ∧ ∀ d ∈ upperAt c, ¬isMark d := by
  rcases mapChar_cases upperRuns upperSpecials c with
    ⟨image, himage, heq⟩ | ⟨s, hs, hmoves, heq⟩ | ⟨-, -, heq⟩
  · rw [upperAt, heq]
    refine .inr ⟨not_isMark_of_testBit (.inr (testBit_specialPoints himage List.mem_cons_self)),
      by simpa using (upperSpecials_astray _ himage).1, fun d hd => ?_⟩
    obtain ⟨n, hn, rfl⟩ := List.mem_map.1 hd
    refine not_isMark_of_testBit (.inr (testBit_specialPoints himage (List.mem_cons_of_mem _ ?_)))
    exact List.mem_map.2 ⟨n, hn, rfl⟩
  · obtain ⟨hsource, htarget⟩ := testBit_runPoints hs hmoves
    rw [upperAt, heq]
    refine .inr ⟨not_isMark_of_testBit (.inl hsource), List.cons_ne_nil _ _, fun d hd => ?_⟩
    rw [List.mem_singleton.1 hd]
    exact not_isMark_of_testBit (.inl htarget)
  · exact .inl heq

/-- A text and its upper-case form have one skeleton. -/
theorem skeleton_upperChars (cs : List Char) : skeleton (upperChars cs) = skeleton cs := by
  rw [upperChars]
  induction cs with
  | nil => rfl
  | cons c cs ih =>
    rw [List.flatMap_cons]
    rcases upperAt_cases c with heq | ⟨hc, hne, hmarks⟩
    · rw [← upperAt, heq, List.singleton_append, skeleton, skeleton, ih]
    · rw [← upperAt, skeleton_append hne hmarks, skeleton_cons_gap hc, ih]

end CategoryLint.Text
