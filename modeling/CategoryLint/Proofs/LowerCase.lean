import CategoryLint.Text.Blank
import CategoryLint.Text.Case
import Mathlib.Logic.Basic

/-!
# Lower case

What can be said of the lower-case form of a text without looking up its characters. The form is
made character by character, but for the capital sigma, whose form depends on its neighbours:

* every character of it is small (`IsSmall`), which is to say that it has no other lower-case
  form, so the lower-case form of a text is its own (`lower_lower`);
* the marks that divide a text, blanks and the characters `*`, `,` and `/`, stay where they are,
  and nothing else becomes one: a text and its lower-case form have one skeleton
  (`skeleton_lowerAfter`).

Both hold since the tables lead away from themselves and from the marks (`tables_disjoint`): as
sets of code points, each a number by its bits, they have no member in common. What a character
becomes is read off the tables once (`lowerAt_cases`).
-/

namespace CategoryLint.Text

/-! ## Sets of code points -/

/-- A set of code points as a number, by its bits. -/
def bits (ns : List Nat) : Nat := ns.foldr (fun n set => 1 <<< n ||| set) 0

/-- The code points of several sets. -/
def union (sets : List Nat) : Nat := sets.foldr (· ||| ·) 0

/-- The set of a list of numbers has exactly these for its members. -/
theorem testBit_bits {ns : List Nat} {n : Nat} : (bits ns).testBit n ↔ n ∈ ns := by
  induction ns with
  | nil => simp [bits]
  | cons m ns ih =>
    rw [bits, List.foldr_cons, ← bits, Nat.testBit_or, Bool.or_eq_true, ih, List.mem_cons,
      Nat.one_shiftLeft, Nat.testBit_two_pow, decide_eq_true_iff, eq_comm]

/-- A union has the members of its sets. -/
theorem testBit_union {sets : List Nat} {n : Nat} :
    (union sets).testBit n ↔ ∃ set ∈ sets, set.testBit n := by
  induction sets with
  | nil => simp [union]
  | cons a sets ih =>
    rw [union, List.foldr_cons, ← union, Nat.testBit_or, Bool.or_eq_true, ih]
    simp only [List.mem_cons, or_and_right, exists_or, exists_eq_left]

/-- Sets without a common member: one word says it of all numbers at once. -/
theorem not_testBit_of_land_eq_zero {a b n : Nat} (h : a &&& b = 0) (ha : a.testBit n) :
    ¬b.testBit n := by
  intro hb
  have hland : (a &&& b).testBit n := by rw [Nat.testBit_and, ha, hb]; rfl
  simp [h] at hland

/-- The code points of spans. -/
def spanSet (spans : List Span) : Nat :=
  union (spans.map fun span => bits (List.range' span.1 (span.2 + 1 - span.1)))

/-- The set of some spans has the characters in them. -/
theorem testBit_spanSet {spans : List Span} {c : Char} :
    (spanSet spans).testBit c.toNat ↔ inSpans spans c := by
  rw [spanSet, testBit_union, inSpans, List.any_eq_true]
  simp only [List.mem_map, exists_exists_and_eq_and, testBit_bits, List.mem_range'_1,
    Bool.and_eq_true, decide_eq_true_eq]
  refine exists_congr fun span => and_congr_right fun _ => ?_
  omega

namespace Shift

variable {s : Shift} {runs : List Shift} {n : Nat}

/-- The character that a shift moves a code point to. -/
def image (s : Shift) (n : Nat) : Char := Char.ofNat (n + s.delta).toNat

/-- The code points that a shift moves. -/
def points (s : Shift) : List Nat :=
  List.range' s.first ((s.last - s.first) / s.step + 1) s.step

/-- A number that a shift moves is among its points. -/
theorem mem_points (h : s.moves n) : n ∈ s.points := by
  simp only [moves, Bool.and_eq_true, decide_eq_true_eq, beq_iff_eq] at h
  obtain ⟨⟨hfirst, hlast⟩, hstep⟩ := h
  refine List.mem_range'.2 ⟨(n - s.first) / s.step, ?_, ?_⟩
  · have hle : (n - s.first) / s.step ≤ (s.last - s.first) / s.step :=
      Nat.div_le_div_right (Nat.sub_le_sub_right hlast _)
    omega
  · rw [Nat.mul_div_cancel' (Nat.dvd_of_mod_eq_zero hstep)]
    omega

/-- The code points that runs move. -/
def sources (runs : List Shift) : Nat := union (runs.map fun s => bits s.points)

/-- The code points that runs move others to. -/
def targets (runs : List Shift) : Nat :=
  union (runs.map fun s => bits (s.points.map fun n => (s.image n).toNat))

theorem testBit_sources (hs : s ∈ runs) (h : s.moves n) : (sources runs).testBit n :=
  testBit_union.2 ⟨_, List.mem_map_of_mem hs, testBit_bits.2 (mem_points h)⟩

theorem testBit_targets (hs : s ∈ runs) (h : s.moves n) :
    (targets runs).testBit (s.image n).toNat :=
  testBit_union.2 ⟨_, List.mem_map_of_mem hs, testBit_bits.2 (List.mem_map_of_mem (mem_points h))⟩

end Shift

/-- A character is looked up among the special forms, then among the runs. -/
theorem mapChar_cases (runs : List Shift) (specials : List (Nat × List Nat)) (c : Char) :
    (∃ image, (c.toNat, image) ∈ specials ∧ mapChar runs specials c = image.map Char.ofNat) ∨
    (∃ s ∈ runs, s.moves c.toNat ∧ mapChar runs specials c = [s.image c.toNat]) ∨
    (∀ s ∈ runs, ¬s.moves c.toNat) ∧ c.toNat ∉ specials.map (·.1) ∧
      mapChar runs specials c = [c] := by
  rw [mapChar]
  cases hlookup : specials.lookup c.toNat with
  | some image =>
    obtain ⟨l₁, l₂, hl, -⟩ := List.lookup_eq_some_iff.1 hlookup
    exact .inl ⟨image, by simp [hl], rfl⟩
  | none =>
    cases hfind : runs.find? (fun s => s.moves c.toNat) with
    | some s =>
      have hmoves : s.moves c.toNat := by simpa using List.find?_some hfind
      exact .inr (.inl ⟨s, List.mem_of_find?_eq_some hfind, hmoves, rfl⟩)
    | none =>
      refine .inr (.inr ⟨List.find?_eq_none.1 hfind, fun hmem => ?_, rfl⟩)
      obtain ⟨p, hp, hpc⟩ := List.mem_map.1 hmem
      simpa [hpc] using List.lookup_eq_none_iff.1 hlookup p hp

/-! ## The tables -/

/-- The code points with another lower-case form. -/
def capitals : Nat :=
  Shift.sources lowerRuns ||| bits ('Σ'.toNat :: lowerSpecials.map (·.1))

/-- The characters of the special lower-case forms. -/
def specialImages : List Char :=
  ['ς', 'σ'] ++ lowerSpecials.flatMap fun special => special.2.map Char.ofNat

/-- The code points that the tables make. -/
def images : Nat := Shift.targets lowerRuns ||| bits (specialImages.map Char.toNat)

/-- The code points that divide a text: `*`, `,`, `/` and the blanks. -/
def markSpans : List Span := (0x2A, 0x2A) :: (0x2C, 0x2C) :: (0x2F, 0x2F) :: blankSpans

/-- The tables lead away from themselves and from the marks. -/
theorem tables_disjoint :
    images &&& capitals = 0 ∧ spanSet markSpans &&& (capitals ||| images) = 0 := by
  -- One pass over the code points of each table, where comparing the runs with each other would
  -- take one for every pair.
  decide +kernel

/-! ## Small characters and marks -/

/-- A code point without another lower-case form. -/
def IsSmall (n : Nat) : Prop :=
  (∀ s ∈ lowerRuns, ¬s.moves n) ∧ n ≠ 'Σ'.toNat ∧ n ∉ lowerSpecials.map (·.1)

/-- Whether `c` divides a text. -/
def isMark (c : Char) : Bool := inSpans markSpans c

variable {before after : List Char} {c d : Char}

/-- What is not among the capitals is small. -/
theorem isSmall_of_not_testBit {n : Nat} (h : ¬capitals.testBit n) : IsSmall n := by
  rw [capitals, Nat.testBit_or, Bool.or_eq_true, not_or] at h
  obtain ⟨hruns, hspecials⟩ := h
  refine ⟨fun s hs hn => hruns (Shift.testBit_sources hs hn), fun hn => ?_, fun hn => ?_⟩
  · exact hspecials (testBit_bits.2 (hn ▸ List.mem_cons_self))
  · exact hspecials (testBit_bits.2 (List.mem_cons_of_mem _ hn))

theorem isSmall_of_images {n : Nat} (h : images.testBit n) : IsSmall n :=
  isSmall_of_not_testBit (not_testBit_of_land_eq_zero tables_disjoint.1 h)

theorem isMark_of_isBlank (h : isBlank c) : isMark c := by
  simp only [isMark, inSpans, markSpans, List.any_cons, Bool.or_eq_true]
  exact .inr (.inr (.inr h))

/-- A mark is no capital, and no capital becomes one. -/
theorem not_testBit_of_isMark (h : isMark c) :
    ¬capitals.testBit c.toNat ∧ ¬images.testBit c.toNat := by
  have hbit := not_testBit_of_land_eq_zero tables_disjoint.2 (testBit_spanSet.2 h)
  rwa [Nat.testBit_or, Bool.or_eq_true, not_or] at hbit

theorem isSmall_of_isMark (h : isMark c) : IsSmall c.toNat :=
  isSmall_of_not_testBit (not_testBit_of_isMark h).1

/-! ## Lower-case forms -/

/-- The lower-case form of a character between two texts, the first with its nearest character
    first. -/
def lowerAt (before : List Char) (c : Char) (after : List Char) : List Char :=
  if c = 'Σ' then [smallSigma before after] else mapChar lowerRuns lowerSpecials c

theorem lowerAfter_cons (before : List Char) (c : Char) (cs : List Char) :
    lowerAfter before (c :: cs) = lowerAt before c cs ++ lowerAfter (c :: before) cs := rfl

/-- Lower case leaves a small character alone, whatever is around it. -/
theorem lowerAt_of_isSmall (h : IsSmall c.toNat) : lowerAt before c after = [c] := by
  obtain ⟨hruns, hsigma, hspecials⟩ := h
  rw [lowerAt, if_neg fun e => hsigma (by rw [e])]
  rcases mapChar_cases lowerRuns lowerSpecials c with
    ⟨image, himage, -⟩ | ⟨s, hs, hmoves, -⟩ | ⟨-, -, heq⟩
  · exact absurd (List.mem_map_of_mem himage) hspecials
  · exact absurd hmoves (hruns s hs)
  · exact heq

theorem testBit_images (h : d ∈ specialImages) : images.testBit d.toNat := by
  rw [images, Nat.testBit_or, testBit_bits.2 (List.mem_map_of_mem h), Bool.or_true]

theorem smallSigma_mem : smallSigma before after ∈ specialImages := by
  rw [smallSigma]
  split <;> simp [specialImages]

theorem lowerSpecials_ne_nil : ∀ special ∈ lowerSpecials, special.2 ≠ [] := by decide

/-- The lower-case form of a character is made by the tables or it is the character itself. -/
theorem lowerAt_cases (before : List Char) (c : Char) (after : List Char) :
    lowerAt before c after ≠ [] ∧ (∀ d ∈ lowerAt before c after, images.testBit d.toNat) ∨
    IsSmall c.toNat ∧ lowerAt before c after = [c] := by
  by_cases hsigma : c = 'Σ'
  · rw [lowerAt, if_pos hsigma]
    exact .inl ⟨by simp, by simpa using testBit_images smallSigma_mem⟩
  rw [lowerAt, if_neg hsigma]
  rcases mapChar_cases lowerRuns lowerSpecials c with
    ⟨image, hspecial, heq⟩ | ⟨s, hs, hmoves, heq⟩ | ⟨hruns, hspecials, heq⟩
  · rw [heq]
    refine .inl ⟨by simpa using lowerSpecials_ne_nil _ hspecial, fun d hd => testBit_images ?_⟩
    exact List.mem_append_right _ (List.mem_flatMap.2 ⟨_, hspecial, hd⟩)
  · rw [heq]
    refine .inl ⟨by simp, fun d hd => ?_⟩
    rw [List.mem_singleton.1 hd, images, Nat.testBit_or, Bool.or_eq_true]
    exact .inl (Shift.testBit_targets hs hmoves)
  · exact .inr ⟨⟨hruns, fun e => hsigma (Char.toNat_inj.1 e), hspecials⟩, heq⟩

/-- No character is lost. -/
theorem lowerAt_ne_nil : lowerAt before c after ≠ [] := by
  rcases lowerAt_cases before c after with ⟨hne, -⟩ | ⟨-, heq⟩
  · exact hne
  · simp [heq]

/-- What a character becomes is small. -/
theorem isSmall_of_mem_lowerAt (h : d ∈ lowerAt before c after) : IsSmall d.toNat := by
  rcases lowerAt_cases before c after with ⟨-, himages⟩ | ⟨hsmall, heq⟩
  · exact isSmall_of_images (himages d h)
  · rw [heq, List.mem_singleton] at h
    exact h ▸ hsmall

/-- What is no mark becomes none. -/
theorem not_isMark_of_mem_lowerAt (hc : ¬isMark c) (h : d ∈ lowerAt before c after) :
    ¬isMark d := by
  rcases lowerAt_cases before c after with ⟨-, himages⟩ | ⟨-, heq⟩
  · exact fun hd => (not_testBit_of_isMark hd).2 (himages d h)
  · rw [heq, List.mem_singleton] at h
    exact h ▸ hc

/-- All characters of a lower-case form are small. -/
theorem isSmall_of_mem_lowerAfter {cs : List Char} (h : d ∈ lowerAfter before cs) :
    IsSmall d.toNat := by
  induction cs generalizing before with
  | nil => simp [lowerAfter] at h
  | cons c cs ih =>
    rw [lowerAfter_cons, List.mem_append] at h
    rcases h with h | h
    · exact isSmall_of_mem_lowerAt h
    · exact ih h

/-- A text of small characters is its own lower-case form. -/
theorem lowerAfter_of_isSmall {cs : List Char} (h : ∀ c ∈ cs, IsSmall c.toNat) :
    lowerAfter before cs = cs := by
  induction cs generalizing before with
  | nil => rfl
  | cons c cs ih =>
    rw [lowerAfter_cons, lowerAt_of_isSmall (h c List.mem_cons_self),
      ih fun d hd => h d (List.mem_cons_of_mem _ hd)]
    rfl

theorem lowerChars_lowerChars (cs : List Char) : lowerChars (lowerChars cs) = lowerChars cs :=
  lowerAfter_of_isSmall fun _ h => isSmall_of_mem_lowerAfter h

/-- The lower-case form of a text is its own. -/
theorem lower_lower (s : String) : lower (lower s) = lower s := by
  rw [lower, lower, String.toList_ofList, lowerChars_lowerChars]

/-! ## Skeletons -/

/-- Puts a gap in front of a skeleton that does not start with one. -/
def gap : List (Option Char) → List (Option Char)
  | none :: rest => none :: rest
  | rest => none :: rest

/-- A text with every mark as it is and every run of other characters as one gap. -/
def skeleton : List Char → List (Option Char)
  | [] => []
  | c :: cs => if isMark c then some c :: skeleton cs else gap (skeleton cs)

variable {cs a b : List Char} {m : Char}

theorem gap_gap (l : List (Option Char)) : gap (gap l) = gap l := by
  rcases l with _ | ⟨_ | c, l⟩ <;> rfl

theorem gap_append_mark (l rest : List (Option Char)) :
    gap (l ++ some m :: rest) = gap l ++ some m :: rest := by
  rcases l with _ | ⟨_ | c, l⟩ <;> rfl

/-- Only the empty text has an empty skeleton. -/
theorem skeleton_eq_nil_iff : skeleton cs = [] ↔ cs = [] := by
  cases cs with
  | nil => simp [skeleton]
  | cons c cs =>
    rw [skeleton]
    split
    · simp
    · fun_cases gap (skeleton cs) <;> simp

/-- Characters that are no marks make one gap. -/
theorem skeleton_append {image : List Char} (hne : image ≠ []) (h : ∀ c ∈ image, ¬isMark c) :
    skeleton (image ++ cs) = gap (skeleton cs) := by
  induction image with
  | nil => exact absurd rfl hne
  | cons c image ih =>
    rw [List.cons_append, skeleton, if_neg (h c List.mem_cons_self)]
    by_cases hnil : image = []
    · rw [hnil, List.nil_append]
    · rw [ih hnil fun d hd => h d (List.mem_cons_of_mem _ hd), gap_gap]

theorem skeleton_cons_mark (hm : isMark m) : skeleton (m :: b) = some m :: skeleton b := by
  rw [skeleton, if_pos hm]

/-- What is no mark goes into the gap before the next one. -/
theorem skeleton_cons_gap (hc : ¬isMark c) : skeleton (c :: b) = gap (skeleton b) := by
  rw [skeleton, if_neg hc]

/-- A mark keeps what is before it apart from what is after it. -/
theorem skeleton_append_mark (hm : isMark m) :
    skeleton (a ++ m :: b) = skeleton a ++ some m :: skeleton b := by
  induction a with
  | nil => exact skeleton_cons_mark hm
  | cons c a ih =>
    by_cases hc : isMark c
    · rw [List.cons_append, skeleton_cons_mark hc, skeleton_cons_mark hc, ih, List.cons_append]
    · rw [List.cons_append, skeleton_cons_gap hc, skeleton_cons_gap hc, ih, gap_append_mark]

/-- A mark of a skeleton that starts with a gap is one of the skeleton after the gap. -/
theorem exists_of_gap_eq {l l₁ l₂ : List (Option Char)} (h : gap l = l₁ ++ some m :: l₂) :
    ∃ l₁', l = l₁' ++ some m :: l₂ ∧ gap l₁' = l₁ := by
  rcases l with _ | ⟨_ | c, l⟩ <;> rcases l₁ with _ | ⟨x, l₁⟩ <;>
    simp only [gap, List.nil_append, List.cons_append, List.cons.injEq, reduceCtorEq,
      false_and] at h
  · obtain ⟨-, h⟩ := h
    exact absurd h (by simp)
  · -- The gap was there before.
    obtain ⟨rfl, rfl⟩ := h
    exact ⟨none :: l₁, rfl, rfl⟩
  · obtain ⟨rfl, h⟩ := h
    refine ⟨l₁, h, ?_⟩
    rcases l₁ with _ | ⟨_ | d, l₁⟩
    · rfl
    · simp at h
    · rfl

/-- A mark of a skeleton is one of the text. -/
theorem exists_of_skeleton_eq {l₁ l₂ : List (Option Char)}
    (h : skeleton cs = l₁ ++ some m :: l₂) :
    ∃ a b, cs = a ++ m :: b ∧ skeleton a = l₁ ∧ skeleton b = l₂ := by
  induction cs generalizing l₁ with
  | nil => simp [skeleton] at h
  | cons c cs ih =>
    by_cases hc : isMark c
    · rw [skeleton_cons_mark hc] at h
      rcases l₁ with _ | ⟨x, l₁⟩
      · obtain ⟨hcm, h⟩ := List.cons.inj h
        exact ⟨[], cs, by rw [Option.some.inj hcm]; rfl, rfl, h⟩
      · obtain ⟨rfl, htail⟩ := List.cons.inj h
        obtain ⟨a, b, rfl, rfl, rfl⟩ := ih htail
        exact ⟨c :: a, b, rfl, skeleton_cons_mark hc, rfl⟩
    · -- The gap before the tail is no mark, so the mark is one of the tail.
      rw [skeleton_cons_gap hc] at h
      obtain ⟨l₁', h', rfl⟩ := exists_of_gap_eq h
      obtain ⟨a, b, rfl, rfl, rfl⟩ := ih h'
      exact ⟨c :: a, b, rfl, skeleton_cons_gap hc, rfl⟩

/-- Lower case keeps the marks of a text and the gaps between them. -/
theorem skeleton_lowerAfter (before cs : List Char) :
    skeleton (lowerAfter before cs) = skeleton cs := by
  induction cs generalizing before with
  | nil => rfl
  | cons c cs ih =>
    rw [lowerAfter_cons]
    by_cases hc : isMark c
    · rw [lowerAt_of_isSmall (isSmall_of_isMark hc), List.singleton_append, skeleton_cons_mark hc,
        skeleton_cons_mark hc, ih]
    · rw [skeleton_append lowerAt_ne_nil fun d hd => not_isMark_of_mem_lowerAt hc hd, ih,
        skeleton_cons_gap hc]

/-- A text and its lower-case form have one skeleton. -/
theorem skeleton_lowerChars (cs : List Char) : skeleton (lowerChars cs) = skeleton cs :=
  skeleton_lowerAfter [] cs

end CategoryLint.Text
