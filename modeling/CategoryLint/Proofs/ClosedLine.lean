import CategoryLint.Proofs.LineEnds
import CategoryLint.Proofs.Requirement

/-!
# Headers on the last line of a block

The value of a header is what is left of its line. If that is the last line of the block, as in

    /** Title: Hero
     * Categories: featured, hero */

then what closes the block is the end of the value, and of the last category; otherwise the value
has no `*/` (`Header.value_cases`). If the block is closed on the next line instead, the header is
found where it was, for what comes after its asterisk does not matter to those before it
(`Header.IsFirst.of_eq`). Then the value and the last category end before the `*/`, and the outcome
of a check may be another one only if it is the last category that is required, with the `*/` or
without it (`closing_of_header`).
-/

namespace CategoryLint

open Text

namespace Docblock

variable {t d : List Char}

/-! ## Where the first header is -/

/-- Whether an asterisk has a value does not depend on what comes after the next asterisk. -/
theorem isSome_afterAsterisk?_iff {y rest : List Char} :
    (afterAsterisk? (y ++ '*' :: rest)).isSome ↔ headerName <+: y.dropWhile isBlank := by
  have hdrop : (y ++ '*' :: rest).dropWhile isBlank = y.dropWhile isBlank ++ '*' :: rest :=
    dropWhile_append_of_dropWhile_eq (by rw [List.dropWhile_cons, if_neg (by decide)]) y
  rw [afterAsterisk?, hdrop, Option.isSome_iff_exists]
  constructor
  · rintro ⟨v, hv⟩
    obtain ⟨r, hr, -⟩ := Option.bind_eq_some_iff.1 hv
    rw [dropLiteral?_eq_some_iff] at hr
    exact headerName_prefix_of_append (by decide) ⟨r, hr.symm⟩
  · rintro ⟨z, hz⟩
    -- The blanks after the name end with the asterisk.
    have hne : (z ++ '*' :: rest).dropWhile isBlank ≠ [] := fun hnil =>
      absurd (List.dropWhile_eq_nil_iff.1 hnil '*' (by simp)) (by decide)
    refine ⟨_, Option.bind_eq_some_iff.2 ⟨_, ?_, value?_of_dropWhile_ne_nil hne⟩⟩
    rw [dropLiteral?_eq_some_iff, ← hz, List.append_assoc]

/-- Of two asterisks of a text, the first is before the second. -/
theorem exists_of_append_asterisk_eq {s s' rest rest' : List Char}
    (h : s ++ '*' :: rest = s' ++ '*' :: rest') (hlt : s.length < s'.length) :
    ∃ y, s' = s ++ '*' :: y ∧ rest = y ++ '*' :: rest' := by
  rcases List.append_eq_append_iff.1 h with ⟨x, hx, hrest⟩ | ⟨x, rfl, -⟩
  · cases x with
    | nil => simp [hx] at hlt
    | cons c y =>
      obtain ⟨hc, htail⟩ := List.cons.inj hrest
      exact ⟨y, hc ▸ hx, htail⟩
  · rw [List.length_append] at hlt
    omega

/-- The first header of a text is the first whatever comes after its asterisk, if it is one. -/
theorem Header.IsFirst.of_eq {d' : List Char} {h : Header d} {h' : Header d'} (hfirst : h.IsFirst)
    (hl : d.getLast? = some '/') (hstart : h'.before ++ h'.indent = h.before ++ h.indent) :
    h'.IsFirst := by
  intro g
  by_contra hlt
  rw [start, start, hstart, Nat.not_le] at hlt
  have htext := g.text_eq.symm.trans h'.text_eq
  rw [hstart] at htext
  obtain ⟨y, hy, hrest⟩ := exists_of_append_asterisk_eq htext hlt
  -- The name of a header before `h'` is there before `h` too, and is that of a header of `d`.
  have hg := g.afterAsterisk?
  rw [hrest] at hg
  have hname := isSome_afterAsterisk?_iff.1 (Option.isSome_of_eq_some hg)
  obtain ⟨v, hv⟩ := Option.isSome_iff_exists.1 (isSome_afterAsterisk?_iff.2 hname)
  have hd := h.text_eq
  rw [hy, List.append_assoc, List.cons_append] at hd
  obtain ⟨f, hf, -⟩ := exists_header hl hd g.headAfter hv
  have hle := hfirst f
  rw [hf, start] at hle
  omega

/-! ## The end of a value -/

/-- What is before the value of a header. -/
def Header.front (h : Header d) : List Char :=
  h.before ++ h.indent ++ '*' :: h.gap ++ (headerName ++ h.space)

theorem Header.eq_front_append (h : Header d) : d = h.front ++ (h.value ++ h.after) := by
  simpa [front] using h.text_eq

/-- The value comes after a colon or a blank. -/
theorem Header.front_ne_append_asterisk (h : Header d) (s : List Char) : h.front ≠ s ++ ['*'] := by
  intro heq
  have hlast := congrArg List.getLast? heq
  have hne : headerName ++ h.space ≠ [] := List.append_ne_nil_of_left_ne_nil (by decide) _
  rw [front, List.getLast?_append_of_ne_nil _ hne, List.getLast?_concat] at hlast
  rcases List.mem_append.1 (List.mem_of_getLast? hlast) with hc | hc
  · exact absurd hc (by decide)
  · exact absurd (h.blank_space _ hc) (by decide)

/-- If the text ends with the value, what closes the block is the end of the value. -/
theorem Header.exists_of_after_eq_nil (h : Header d) (hd : find? t = some d)
    (hafter : h.after = []) : ∃ w, h.value = w ++ closing ∧ ¬closing <:+: w := by
  obtain ⟨pre, body, post, -, hblock, -, -⟩ := find?_eq_some_iff.1 hd
  have htext := h.eq_front_append.symm.trans hblock
  rw [hafter, List.append_nil, ← List.append_assoc] at htext
  obtain ⟨w, hw⟩ : ∃ w, h.value = w ++ closing := by
    rcases List.append_eq_append_iff.1 htext with ⟨w, -, hw⟩ | ⟨x, hx, hclosing⟩
    · exact ⟨w, hw⟩
    · -- The value is not shorter than what closes the block.
      cases x with
      | nil => exact ⟨[], hclosing.symm⟩
      | cons c x =>
        obtain ⟨hc, htail⟩ := List.cons.inj hclosing
        cases hc
        rcases List.append_eq_singleton_iff.1 htail.symm with ⟨rfl, -⟩ | ⟨-, hnil⟩
        · exact absurd hx (h.front_ne_append_asterisk _)
        · obtain ⟨c, hc, -⟩ := h.startsInk
          rw [hnil] at hc
          cases hc
  refine ⟨w, hw, fun ⟨a, b, hab⟩ => ?_⟩
  have hnil := (closing_last_of_header hd h (a := a) (b := b ++ closing) (by simp [hw, ← hab])).1
  simp [closing] at hnil

/-- The value has no `*/`, unless its line is the last of the block: then it ends with the one
    that closes the block. -/
theorem Header.value_cases (h : Header d) (hd : find? t = some d) :
    h.after ≠ [] ∧ ¬closing <:+: h.value ∨
      h.after = [] ∧ ∃ w, h.value = w ++ closing ∧ ¬closing <:+: w := by
  by_cases hafter : h.after = []
  · exact .inr ⟨hafter, h.exists_of_after_eq_nil hd hafter⟩
  · refine .inl ⟨hafter, ?_⟩
    rintro ⟨a, b, hab⟩
    rw [List.append_assoc] at hab
    exact hafter (closing_last_of_header hd h hab.symm).2

/-! ## The end of a block on the next line -/

/-- A text, and the same text with the end of its block on the next line, after an indent. -/
inductive ClosesBelow : List Char → List Char → Prop where
  /-- The block is the first one. -/
  | intro {pre body indent post : List Char} : ¬opening <:+: pre → ¬closing <:+: body →
      IsIndent indent →
      ClosesBelow (pre ++ ((opening ++ (body ++ closing)) ++ post))
        (pre ++ ((opening ++ (body ++ '\n' :: (indent ++ closing))) ++ post))

variable {t' w : List Char}

/-- The block changes where it is closed, and nowhere else. -/
theorem ClosesBelow.exists_of_find? (h : ClosesBelow t t') (hd : find? t = some d) :
    ∃ init indent, d = init ++ closing ∧
      find? t' = some (init ++ '\n' :: (indent ++ closing)) := by
  obtain @⟨pre, body, indent, post, hpre, hbody, hindent⟩ := h
  cases (find?_eq_some_iff.2 ⟨pre, body, post, rfl, rfl, hpre, hbody⟩).symm.trans hd
  refine ⟨opening ++ body, indent, by simp, find?_eq_some_iff.2
    ⟨pre, body ++ '\n' :: indent, post, by simp, by simp, hpre, fun hclosing => ?_⟩⟩
  -- There is no asterisk in the indent.
  rcases (closing_infix_append_cons (by decide)).1 hclosing with hclosing | hclosing
  · exact hbody hclosing
  · have hstar : '*' ∈ indent := hclosing.subset (by decide)
    exact absurd (hindent _ hstar).1 (by decide)

/-- The header is found where it was, and its value ends before what closed the block. -/
theorem Header.IsFirst.header?_closesBelow {d' init indent : List Char} {h : Header d}
    (hfirst : h.IsFirst) (hd : d = init ++ closing) (hafter : h.after = [])
    (hvalue : h.value = w ++ closing) (hw : w ≠ [])
    (hd' : d' = init ++ '\n' :: (indent ++ closing)) (hl : d.getLast? = some '/')
    (hl' : d'.getLast? = some '/') : header? d' = some w := by
  have hinit : init = h.front ++ w := by
    have htext := hd.symm.trans h.eq_front_append
    rw [hafter, List.append_nil, hvalue, ← List.append_assoc] at htext
    exact List.append_cancel_right htext
  let h' : Header d' :=
    { before := h.before
      indent := h.indent
      gap := h.gap
      space := h.space
      value := w
      after := '\n' :: (indent ++ closing)
      text_eq := by rw [hd', hinit, front]; simp
      startsAfter := h.startsAfter
      isIndent := h.isIndent
      blank_gap := h.blank_gap
      blank_space := h.blank_space
      startsInk := StartsInk.of_append (hvalue ▸ h.startsInk) hw
      newline_not_mem := fun hn => h.newline_not_mem (hvalue ▸ List.mem_append_left _ hn)
      endsBefore := .cons _ }
  exact (header?_eq_some_iff hl').2 ⟨h', hfirst.of_eq hl rfl, rfl⟩

/-- A closing behind a list of categories joins the last one. -/
theorem exists_categories_append (w : List Char) :
    ∃ cs c blanks, (∀ b ∈ blanks, isBlank b) ∧ categories w = cs ++ [c] ∧
      categories (w ++ closing) = cs ++ [c ++ (blanks ++ closing)] := by
  obtain ⟨parts, part, hw, hw'⟩ := splitOn_append_of_not_mem (by decide : ',' ∉ closing) w
  obtain ⟨blanks, hblanks, htrim⟩ := exists_trim_append (by decide : trim closing = closing)
    (by decide) part
  refine ⟨parts.map trim, trim part, blanks, hblanks, ?_, ?_⟩
  · rw [categories, hw, List.map_append, List.map_singleton]
  · rw [categories, hw', List.map_append, List.map_singleton, htrim]

end Docblock

/-! ## Checks -/

namespace Rule

open Docblock

variable {t t' d d' v v' w : List Char} {rule : Rule}

/-- Headers that meet a rule or not alike have one outcome. -/
theorem outcome_check_eq (hd : find? t = some d) (hv : header? d = some v)
    (hd' : find? t' = some d') (hv' : header? d' = some v')
    (h : rule.MetBy ((categories v).map String.ofList) ↔
      rule.MetBy ((categories v').map String.ofList)) :
    (rule.check t').outcome = (rule.check t).outcome := by
  by_cases hmet : rule.MetBy ((categories v).map String.ofList)
  · rw [outcome_check_of_metBy hd hv hmet, outcome_check_of_metBy hd' hv' (h.1 hmet)]
  · rw [(check_of_not_metBy hd hv hmet).1, (check_of_not_metBy hd' hv' (mt h.2 hmet)).1]

/-- Without the `*/` at its end, the value `w` is found in `t'`, and it matters for those rules only
    that require the last category. -/
structure LosesClosing (w t t' : List Char) : Prop where
  /-- The value is that of the header of the other text. -/
  value : ∃ d', find? t' = some d' ∧ header? d' = some w
  /-- The categories are the same, but for what closes the block and the blanks before it, and all
      rules that require neither form of the last one end alike. -/
  categories : ∃ cs c blanks, (∀ b ∈ blanks, isBlank b) ∧
    Docblock.categories w = cs ++ [c] ∧
    Docblock.categories (w ++ closing) = cs ++ [c ++ (blanks ++ closing)] ∧
    ∀ rule : Rule, rule.base.lower ≠ (TextValue.plain (String.ofList c)).lower →
      rule.base.lower ≠ (TextValue.plain (String.ofList (c ++ (blanks ++ closing)))).lower →
      (rule.check t').outcome = (rule.check t).outcome

/-- For the closing at the end of a value only the last category of it matters. -/
theorem losesClosing (hd : find? t = some d) (hv : header? d = some (w ++ closing))
    (hd' : find? t' = some d') (hv' : header? d' = some w) : LosesClosing w t t' := by
  obtain ⟨cs, c, blanks, hblanks, hw, hw'⟩ := exists_categories_append w
  refine ⟨⟨d', hd', hv'⟩, cs, c, blanks, hblanks, hw, hw', fun rule hc hc' => ?_⟩
  refine outcome_check_eq hd hv hd' hv' ?_
  rw [hw, hw', MetBy, MetBy]
  simp only [List.map_append, List.mem_append, List.map_singleton, List.mem_singleton, hc, hc',
    or_false]

/-- The value of a header has no `*/`, unless the block is closed on its line: then the value ends
    with it, and loses it if the block is closed on the next line instead. -/
theorem closing_of_header (hd : find? t = some d) (hv : header? d = some v) :
    ∃ h : Header d, h.IsFirst ∧ h.value = v ∧
      (h.after ≠ [] ∧ ¬closing <:+: v ∨
        h.after = [] ∧ ∃ w, v = w ++ closing ∧ ¬closing <:+: w ∧
          (w ≠ [] → ∀ t', ClosesBelow t t' → LosesClosing w t t')) := by
  obtain ⟨h, hfirst, rfl⟩ := (header?_eq_some_iff (getLast?_of_find? hd)).1 hv
  refine ⟨h, hfirst, rfl, ?_⟩
  rcases h.value_cases hd with hbelow | ⟨hafter, w, hw, hfree⟩
  · exact .inl hbelow
  · refine .inr ⟨hafter, w, hw, hfree, fun hne t' ht' => ?_⟩
    obtain ⟨init, indent, hinit, hd'⟩ := ht'.exists_of_find? hd
    exact losesClosing hd (hw ▸ hv) hd' (hfirst.header?_closesBelow hinit hafter hw hne rfl
      (getLast?_of_find? hd) (getLast?_of_find? hd'))

/-- A header on the last line of its block. -/
def closedLine : List Char := "/**\n * Categories: a, b */".toList

/-- The same header on the line before. -/
def closedBelow : List Char := "/**\n * Categories: a, b \n */".toList

theorem closing_of_header_closedLine :
    find? closedLine = some closedLine ∧ header? closedLine = some "a, b */".toList ∧
      ∃ h : Header closedLine, h.IsFirst ∧ h.value = "a, b */".toList ∧
        (h.after ≠ [] ∧ ¬closing <:+: "a, b */".toList ∨
          h.after = [] ∧ ∃ w, "a, b */".toList = w ++ closing ∧ ¬closing <:+: w ∧
            (w ≠ [] → ∀ t', ClosesBelow closedLine t' → LosesClosing w closedLine t')) := by
  have hd : find? closedLine = some closedLine := by decide +kernel
  have hv : header? closedLine = some "a, b */".toList := by decide +kernel
  exact ⟨hd, hv, closing_of_header hd hv⟩

/-- What closes the block is part of the last category, which is not found then. -/
theorem closing_infix_closedLine :
    ClosesBelow closedLine closedBelow ∧
      header? closedLine = some "a, b */".toList ∧ closing <:+: "a, b */".toList ∧
      ((⟨.plain "b"⟩ : Rule).check closedLine).outcome = .missingBaseCategory ∧
      ((⟨.plain "b"⟩ : Rule).check closedBelow).outcome = .pass := by
  refine ⟨?_, by decide +kernel, by decide +kernel, by decide +kernel, by decide +kernel⟩
  have hbody : ¬closing <:+: "\n * Categories: a, b ".toList := by decide +kernel
  have hindent : IsIndent [' '] := isIndent_cons.2 ⟨by decide, fun _ h => absurd h List.not_mem_nil⟩
  exact @ClosesBelow.intro [] _ [' '] [] (by decide) hbody hindent

end Rule

end CategoryLint
