import CategoryLint.Docblock

/-!
# The first block of a text

A block runs from the first `/**` of a text to the nearest `*/` after it (`find?_eq_some_iff`).
The two marks cannot overlap what is around them: of `/*` and a `/**` after it no `/**` starts in
the first part, and a `*` before a `*/` does not close anything. So a block is found wherever it
is put behind a text without `/**`, and it ends where its body does, if the body has no `*/`.
-/

namespace CategoryLint.Docblock

/-- What opens a block. -/
def opening : List Char := ['/', '*', '*']

/-- What closes a block. -/
def closing : List Char := ['*', '/']

/-- A character that is in no `*/` keeps those before it apart from those after it. -/
theorem closing_infix_append_cons {a b : List Char} {c : Char} (hc : c ∉ closing) :
    closing <:+: a ++ c :: b ↔ closing <:+: a ∨ closing <:+: b := by
  obtain ⟨hstar, hslash⟩ : '*' ≠ c ∧ '/' ≠ c := by simpa [closing, eq_comm] using hc
  induction a with
  | nil => simp [closing, List.infix_cons_iff, hstar]
  | cons x a ih =>
    have hx : closing <+: x :: (a ++ c :: b) ↔ closing <+: x :: a := by
      cases a with
      | nil => simp [closing, hslash]
      | cons y a => simp [closing]
    rw [List.cons_append, List.infix_cons_iff, List.infix_cons_iff, hx, ih, or_assoc]

/-- A mark has its first character only once. -/
def StartsOnce (mark : List Char) : Prop := ∃ c cs, mark = c :: cs ∧ c ∉ cs

theorem startsOnce_opening : StartsOnce opening := ⟨'/', ['*', '*'], rfl, by decide⟩

theorem startsOnce_closing : StartsOnce closing := ⟨'*', ['/'], rfl, by decide⟩

/-- A mark after a text does not make another one that starts in the text. -/
theorem StartsOnce.not_prefix_append {mark a : List Char} {c : Char} (hm : StartsOnce mark)
    (h : ¬mark <:+: c :: a) (b : List Char) : ¬mark <+: c :: (a ++ (mark ++ b)) := by
  obtain ⟨d, ds, rfl, hd⟩ := hm
  intro hp
  rw [← List.cons_append] at hp
  rcases List.prefix_or_prefix_of_prefix hp (List.prefix_append _ _) with hin | ⟨z, hz⟩
  · exact h hin.isInfix
  · -- The text is the start of the mark, and `z`, the rest of the mark, starts another one.
    rw [← hz, List.prefix_append_right_inj, hz] at hp
    cases z with
    | nil => exact h ⟨[], [], by rw [← hz]; simp⟩
    | cons e z =>
      obtain ⟨rfl, -⟩ := List.cons_prefix_cons.1 hp
      have hds : ds = a ++ e :: z := (List.cons.inj hz).2.symm
      exact hd (hds ▸ by simp)

/-! ## The end of a block -/

theorem throughEnd?_closing (post : List Char) : throughEnd? (closing ++ post) = some closing := by
  rw [closing, List.cons_append, List.cons_append, throughEnd?]

/-- A character that does not start the end is passed over. -/
theorem throughEnd?_cons {c : Char} {cs : List Char} (h : ¬closing <+: c :: cs) :
    throughEnd? (c :: cs) = (throughEnd? cs).map (c :: ·) := by
  rw [throughEnd?]
  rintro ds rfl rfl
  exact h ⟨ds, rfl⟩

/-- A body without the end in it is passed over as a whole. -/
theorem throughEnd?_append {body : List Char} (h : ¬closing <:+: body) (post : List Char) :
    throughEnd? (body ++ (closing ++ post)) = some (body ++ closing) := by
  induction body with
  | nil => exact throughEnd?_closing post
  | cons c body ih =>
    have hbody : ¬closing <:+: body := fun hb => h (List.infix_cons hb)
    rw [List.cons_append, throughEnd?_cons (startsOnce_closing.not_prefix_append h post), ih hbody]
    rfl

/-- What is found is a body without the end in it, and the end. -/
theorem exists_of_throughEnd? {cs b : List Char} (h : throughEnd? cs = some b) :
    ∃ body post, b = body ++ closing ∧ cs = body ++ (closing ++ post) ∧ ¬closing <:+: body := by
  induction cs generalizing b with
  | nil => exact absurd h (by simp [throughEnd?])
  | cons c cs ih =>
    by_cases hc : closing <+: c :: cs
    · obtain ⟨post, hpost⟩ := hc
      rw [← hpost, throughEnd?_closing, Option.some.injEq] at h
      exact ⟨[], post, h.symm, hpost.symm, by simp [closing]⟩
    · rw [throughEnd?_cons hc, Option.map_eq_some_iff] at h
      obtain ⟨b', hb', rfl⟩ := h
      obtain ⟨body, post, rfl, rfl, hbody⟩ := ih hb'
      refine ⟨c :: body, post, rfl, rfl, fun hi => ?_⟩
      rcases List.infix_cons_iff.1 hi with hp | hi
      · exact hc (hp.trans ⟨closing ++ post, rfl⟩)
      · exact hbody hi

/-! ## The start of a block -/

/-- A block starts at the first opening, and goes on to the first end. -/
theorem find?_opening (cs : List Char) :
    find? (opening ++ cs) = (throughEnd? cs).map (opening ++ ·) := by
  rw [opening, List.cons_append, List.cons_append, List.cons_append, find?]
  rfl

/-- A character that starts no opening is passed over. -/
theorem find?_cons {c : Char} {cs : List Char} (h : ¬opening <+: c :: cs) :
    find? (c :: cs) = find? cs := by
  rw [find?]
  rintro ds rfl rfl
  exact h ⟨ds, rfl⟩

/-- What is before the first opening does not matter. -/
theorem find?_append {pre : List Char} (h : ¬opening <:+: pre) (cs : List Char) :
    find? (pre ++ (opening ++ cs)) = find? (opening ++ cs) := by
  induction pre with
  | nil => rfl
  | cons c pre ih =>
    rw [List.cons_append, find?_cons (startsOnce_opening.not_prefix_append h cs)]
    exact ih fun hp => h (List.infix_cons hp)

/-- The block of a text: it starts with the first `/**` and ends with the nearest `*/`. -/
theorem find?_eq_some_iff {t d : List Char} :
    find? t = some d ↔ ∃ pre body post, t = pre ++ (d ++ post) ∧ d = opening ++ (body ++ closing) ∧
      ¬opening <:+: pre ∧ ¬closing <:+: body := by
  constructor
  · intro h
    induction t with
    | nil => exact absurd h (by simp [find?])
    | cons c t ih =>
      by_cases hc : opening <+: c :: t
      · obtain ⟨cs, hcs⟩ := hc
        rw [← hcs, find?_opening, Option.map_eq_some_iff] at h
        obtain ⟨b, hb, rfl⟩ := h
        obtain ⟨body, post, rfl, rfl, hbody⟩ := exists_of_throughEnd? hb
        exact ⟨[], body, post, by simp [← hcs], rfl, by simp [opening], hbody⟩
      · rw [find?_cons hc] at h
        obtain ⟨pre, body, post, rfl, hd, hpre, hbody⟩ := ih h
        refine ⟨c :: pre, body, post, rfl, hd, fun hi => ?_, hbody⟩
        rcases List.infix_cons_iff.1 hi with hp | hi
        · exact hc (hp.trans ⟨d ++ post, rfl⟩)
        · exact hpre hi
  · rintro ⟨pre, body, post, rfl, rfl, hpre, hbody⟩
    rw [List.append_assoc, find?_append hpre, find?_opening, List.append_assoc,
      throughEnd?_append hbody]
    rfl

end CategoryLint.Docblock
