import CategoryLint.Proofs.Block
import Mathlib.Data.List.Infix
import Mathlib.Data.Nat.Find

/-!
# Blocks by the places of their marks

Where the block of a text is can be said by the indices at which its marks stand
(`Text.OccursAt`): it starts at the first index of a `/**` and ends with the first `*/` that stands
right after those three characters or later, counted from the start of its body. A text has no
block if it has no `/**`, or no `*/` behind the first one; then no later `/**` opens a block
either (`find?_first`).
-/

namespace CategoryLint

/-! ## Places in a text -/

namespace Text

variable {lit cs : List Char} {i n : Nat}

/-- The text `lit` stands in another one from the index `i` on. -/
def OccursAt (lit cs : List Char) (i : Nat) : Prop := lit <+: cs.drop i

/-- The first index at which `lit` stands is `i`. -/
def FirstAt (lit cs : List Char) (i : Nat) : Prop :=
  OccursAt lit cs i ∧ ∀ j < i, ¬OccursAt lit cs j

instance : Decidable (OccursAt lit cs i) := inferInstanceAs (Decidable (lit <+: cs.drop i))

/-- A literal is part of a text exactly if it occurs somewhere. -/
theorem infix_iff_exists_occursAt : lit <:+: cs ↔ ∃ i, OccursAt lit cs i := by
  constructor
  · rintro ⟨a, b, rfl⟩
    exact ⟨a.length, b, by simp⟩
  · rintro ⟨i, h⟩
    exact h.isInfix.trans (List.drop_suffix i cs).isInfix

theorem occursAt_drop : OccursAt lit (cs.drop n) i ↔ OccursAt lit cs (n + i) := by
  rw [OccursAt, OccursAt, List.drop_drop]

/-- What stands in the rest of a text stands in the text at the index of the rest or later. -/
theorem infix_drop_iff : lit <:+: cs.drop n ↔ ∃ k, n ≤ k ∧ OccursAt lit cs k := by
  rw [infix_iff_exists_occursAt]
  constructor
  · rintro ⟨i, h⟩
    exact ⟨n + i, Nat.le_add_right n i, occursAt_drop.1 h⟩
  · rintro ⟨k, hk, h⟩
    exact ⟨k - n, occursAt_drop.2 (by rwa [Nat.add_sub_cancel' hk])⟩

/-- A literal that occurs has a first occurrence. -/
theorem exists_firstAt (h : lit <:+: cs) : ∃ i, FirstAt lit cs i := by
  have hex : ∃ i, OccursAt lit cs i := infix_iff_exists_occursAt.1 h
  exact ⟨Nat.find hex, Nat.find_spec hex, fun j hj => Nat.find_min hex hj⟩

end Text

open Text

namespace Docblock

variable {t cs a : List Char} {i : Nat}

/-- A mark behind a text without it stands there first. -/
theorem StartsOnce.forall_not_occursAt_iff {mark : List Char} (hm : StartsOnce mark)
    (b : List Char) :
    (∀ i < a.length, ¬OccursAt mark (a ++ (mark ++ b)) i) ↔ ¬mark <:+: a := by
  constructor
  · rintro h ⟨x, y, rfl⟩
    have hne : mark ≠ [] := by
      obtain ⟨c, cs, rfl, -⟩ := hm
      exact List.cons_ne_nil c cs
    have hlt : x.length < (x ++ mark ++ y).length := by
      have hpos := List.length_pos_iff.2 hne
      simp only [List.length_append]
      omega
    exact h x.length hlt ⟨y ++ (mark ++ b), by simp⟩
  · intro h i hi hocc
    rw [OccursAt, List.drop_append_of_le_length (Nat.le_of_lt hi), List.drop_eq_getElem_cons hi,
      List.cons_append] at hocc
    refine hm.not_prefix_append (fun hin => h ?_) b hocc
    rw [← List.drop_eq_getElem_cons hi] at hin
    exact hin.trans (List.drop_suffix i a).isInfix

/-! ## Blocks -/

theorem throughEnd?_eq_none_iff : throughEnd? cs = none ↔ ¬closing <:+: cs := by
  induction cs with
  | nil => simp [throughEnd?, closing]
  | cons c cs ih =>
    by_cases hc : closing <+: c :: cs
    · obtain ⟨post, hpost⟩ := hc
      rw [← hpost, throughEnd?_closing]
      exact iff_of_false (Option.some_ne_none _) (not_not_intro ⟨[], post, rfl⟩)
    · rw [throughEnd?_cons hc, Option.map_eq_none_iff, ih, List.infix_cons_iff, not_or,
        and_iff_right hc]

/-- The first `/**` opens the block of the text, if any does. -/
theorem find?_of_firstAt (h : FirstAt opening t i) :
    find? t = (throughEnd? (t.drop (i + opening.length))).map (opening ++ ·) := by
  obtain ⟨⟨rest, hrest⟩, hmin⟩ := h
  have ht : t = t.take i ++ (opening ++ rest) := by rw [hrest, List.take_append_drop]
  have hpre : ¬opening <:+: t.take i := by
    refine (startsOnce_opening.forall_not_occursAt_iff rest).1 fun j hj => ?_
    rw [← ht]
    exact hmin j (Nat.lt_of_lt_of_le hj (List.length_take_le i t))
  have hdrop : t.drop (i + opening.length) = rest := by
    rw [← List.drop_drop, ← hrest, List.drop_left]
  rw [hdrop]
  conv_lhs => rw [ht]
  rw [find?_append hpre, find?_opening]

theorem find?_eq_none_of_not_infix (h : ¬opening <:+: t) : find? t = none := by
  rw [Option.eq_none_iff_forall_ne_some]
  intro d hd
  obtain ⟨pre, body, post, rfl, rfl, -⟩ := find?_eq_some_iff.1 hd
  exact h ⟨pre, body ++ closing ++ post, by simp⟩

/-- A text has no block exactly if it has no `/**` or no `*/` behind the first one. -/
theorem find?_eq_none_iff : find? t = none ↔ (∀ i, ¬OccursAt opening t i) ∨
    ∃ i, FirstAt opening t i ∧ ∀ k, i + opening.length ≤ k → ¬OccursAt closing t k := by
  constructor
  · intro hnone
    by_cases h : opening <:+: t
    · obtain ⟨i, hi⟩ := exists_firstAt h
      rw [find?_of_firstAt hi, Option.map_eq_none_iff, throughEnd?_eq_none_iff] at hnone
      exact .inr ⟨i, hi, fun k hk hocc => hnone (infix_drop_iff.2 ⟨k, hk, hocc⟩)⟩
    · exact .inl fun i hi => h (infix_iff_exists_occursAt.2 ⟨i, hi⟩)
  · rintro (h | ⟨i, hi, h⟩)
    · exact find?_eq_none_of_not_infix fun hin => (infix_iff_exists_occursAt.1 hin).elim h
    · rw [find?_of_firstAt hi, Option.map_eq_none_iff, throughEnd?_eq_none_iff]
      intro hin
      obtain ⟨k, hk, hocc⟩ := infix_drop_iff.1 hin
      exact h k hk hocc

/-- What is found in a text: the block from the first `/**` to the first `*/` behind it, and
    nothing exactly if one of the two is missing. The block of a block is the block itself. -/
theorem find?_first (t : List Char) :
    (∀ d, find? t = some d ↔ ∃ pre body post, t = pre ++ (d ++ post) ∧
      d = opening ++ (body ++ closing) ∧ (∀ i < pre.length, ¬OccursAt opening t i) ∧
      ∀ i < body.length, ¬OccursAt closing (body ++ closing) i) ∧
    (find? t = none ↔ (∀ i, ¬OccursAt opening t i) ∨
      ∃ i, FirstAt opening t i ∧ ∀ k, i + opening.length ≤ k → ¬OccursAt closing t k) ∧
    ∀ d, find? t = some d → find? d = some d := by
  have hclosing : ∀ body : List Char,
      (∀ i < body.length, ¬OccursAt closing (body ++ closing) i) ↔ ¬closing <:+: body := by
    intro body
    simpa using startsOnce_closing.forall_not_occursAt_iff (a := body) []
  refine ⟨fun d => ?_, find?_eq_none_iff, fun d hd => ?_⟩
  · rw [find?_eq_some_iff]
    refine exists_congr fun pre => exists_congr fun body => exists_congr fun post => ?_
    rw [hclosing]
    refine and_congr_right fun ht => and_congr_right fun hd => and_congr_left fun _ => ?_
    have hmarks : t = pre ++ (opening ++ (body ++ closing ++ post)) := by
      rw [ht, hd]
      simp
    rw [hmarks, startsOnce_opening.forall_not_occursAt_iff]
  · obtain ⟨-, body, -, -, hblock, -, hbody⟩ := find?_eq_some_iff.1 hd
    exact find?_eq_some_iff.2 ⟨[], body, [], by simp, hblock, by simp [opening], hbody⟩

/-- The asterisks of a `/**` are not used again: `/***/` is a block, and in `/**/` none ends. -/
theorem find?_first_overlapping :
    find? "a/***/b*/".toList = some "/***/".toList ∧ find? "/**/ /**".toList = none ∧
      find? "/***/".toList = some "/***/".toList := by
  have hfound : find? "a/***/b*/".toList = some "/***/".toList :=
    ((find?_first _).1 _).2 ⟨"a".toList, [], "b*/".toList, rfl, rfl, by decide, by simp⟩
  refine ⟨hfound, (find?_first _).2.1.2 (.inr ⟨0, ⟨by decide, by simp⟩, fun k hk h => ?_⟩),
    (find?_first _).2.2 _ hfound⟩
  have hrest : ¬closing <:+: "/**/ /**".toList.drop 3 := by decide
  exact hrest (infix_drop_iff.2 ⟨k, hk, h⟩)

end Docblock

end CategoryLint
