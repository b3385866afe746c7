import CategoryLint.Proofs.Header

/-!
# The header of any text

In a block the value of a header starts with a character that is not blank, for a block ends with
one (`Header`). In any other text there may be nothing but blanks after the name, and then the value
is among them. A candidate is any way to take a text apart into a header and a value that runs to
the end of its line (`Candidate`). Two candidates differ in their asterisks, or in how many of the
blanks after the name come before the value.

The search finds the best candidate: the first asterisk that has one, and of its candidates the one
with the most blanks before the value (`header?_best`). Blanks alone after the name are given back
one by one until there is a value (`exists_longest`).
-/

namespace CategoryLint.Docblock

open Text

/-! ## Values -/

/-- A text is blanks and a value that runs to the end of its line. -/
structure IsValue (cs space value after : List Char) : Prop where
  text_eq : cs = space ++ (value ++ after)
  blank : ∀ c ∈ space, isBlank c
  ne_nil : value ≠ []
  newline_not_mem : '\n' ∉ value
  endsBefore : EndsBefore '\n' after

/-- No value of a text has more blanks before it. -/
def IsLongest (cs space : List Char) : Prop :=
  ∀ space' value after, IsValue cs space' value after → space'.length ≤ space.length

variable {cs space value after space' value' after' : List Char}

/-- After as many blanks, the value is the same. -/
theorem IsValue.eq_of_length_eq (h : IsValue cs space value after)
    (h' : IsValue cs space' value' after') (hlen : space.length = space'.length) :
    value = value' := by
  obtain ⟨-, htail⟩ := List.append_inj (h.text_eq.symm.trans h'.text_eq) hlen
  rw [← takeWhile_line h.newline_not_mem h.endsBefore, htail,
    takeWhile_line h'.newline_not_mem h'.endsBefore]

/-- If a character that is not blank comes after the first blanks, no value has more of them. -/
theorem IsValue.isLongest (h : IsValue cs space value after) (hink : StartsInk value) :
    IsLongest cs space := by
  intro space' value' after' h'
  have hspace : cs.takeWhile isBlank = space := by
    rw [h.text_eq, takeWhile_blanks h.blank (hink.append after)]
  rw [← hspace, h'.text_eq, List.takeWhile_append_of_pos h'.blank, List.length_append]
  exact Nat.le_add_right _ _

/-- The last blank that does not end a line, and what is before and after it. -/
theorem isValue_of_blanks {c : Char} (hblank : ∀ d ∈ space ++ c :: after, isBlank d)
    (hc : c ≠ '\n') (hafter : ∀ d ∈ after, d = '\n') :
    IsValue (space ++ c :: after) space [c] after ∧ IsLongest (space ++ c :: after) space := by
  refine ⟨⟨rfl, fun d hd => hblank d (List.mem_append_left _ hd), List.cons_ne_nil _ _,
    fun hn => hc (List.mem_singleton.1 hn).symm,
    fun d hd => hafter d (List.mem_of_mem_head? hd)⟩, ?_⟩
  intro space' value' after' h'
  obtain ⟨init, d, rfl⟩ : ∃ init d, value' = init ++ [d] :=
    ⟨_, _, (List.dropLast_append_getLast h'.ne_nil).symm⟩
  have hd : d ≠ '\n' := by
    rintro rfl
    exact h'.newline_not_mem (List.mem_append_right _ List.mem_cons_self)
  -- The last character of the other value ends no line, so it is none of those after `c`.
  have htext : space ++ c :: after = (space' ++ init) ++ d :: after' := by
    rw [h'.text_eq]
    simp
  rcases List.append_eq_append_iff.1 htext with ⟨more, hmore, hrest⟩ | ⟨more, hmore, -⟩
  · cases more with
    | nil =>
      rw [← List.append_nil space, ← hmore, List.length_append]
      exact Nat.le_add_right _ _
    | cons b more =>
      rw [List.cons_append, List.cons.injEq] at hrest
      exact absurd (hafter d (hrest.2 ▸ List.mem_append_right _ List.mem_cons_self)) hd
  · rw [hmore, List.length_append, List.length_append, Nat.add_assoc]
    exact Nat.le_add_right _ _

/-- A value that is found comes after the longest run of blanks that leaves one. -/
theorem exists_longest (h : value? cs = some value) :
    ∃ space after, IsValue cs space value after ∧ IsLongest cs space := by
  cases hrest : cs.dropWhile isBlank with
  | nil =>
    -- Blanks alone: the value is the last one that does not end a line.
    have hblank := List.dropWhile_eq_nil_iff.1 hrest
    rw [value?, hrest, Option.map_eq_some_iff] at h
    obtain ⟨c, hc, rfl⟩ := h
    rw [List.getLast?_filter, List.find?_eq_some_iff_append] at hc
    obtain ⟨hcn, after, before, hcs, hafter⟩ := hc
    rw [List.reverse_eq_iff, List.reverse_append, List.reverse_cons, List.append_assoc,
      List.singleton_append] at hcs
    subst hcs
    exact ⟨_, _, isValue_of_blanks hblank (by simpa using hcn) fun d hd => by
      simpa using hafter d (List.mem_reverse.1 hd)⟩
  | cons c rest =>
    have hink : StartsInk (cs.dropWhile isBlank) := by
      have hc := List.head?_dropWhile_not isBlank cs
      rw [hrest] at hc ⊢
      exact ⟨c, rfl, by simpa using hc⟩
    obtain ⟨space, after, hcs, hs, hv, hn, ha⟩ := exists_of_value? h hink
    have hne : value ≠ [] := by
      rintro rfl
      obtain ⟨c, hc, -⟩ := hv
      cases hc
    have hval : IsValue cs space value after := ⟨hcs, hs, hne, hn, ha⟩
    exact ⟨space, after, hval, hval.isLongest hv⟩

theorem IsValue.value?_ne_none (h : IsValue cs space value after) : value? cs ≠ none := by
  obtain ⟨c, rest, rfl⟩ := List.exists_cons_of_ne_nil h.ne_nil
  have hcn : c ≠ '\n' := by
    rintro rfl
    exact h.newline_not_mem List.mem_cons_self
  have hc : c ∈ cs.filter (· ≠ '\n') := by
    rw [List.mem_filter, h.text_eq]
    exact ⟨List.mem_append_right _ List.mem_cons_self, decide_eq_true hcn⟩
  rw [value?]
  split
  · rw [ne_eq, Option.map_eq_none_iff, List.getLast?_eq_none_iff]
    exact List.ne_nil_of_mem hc
  · exact Option.some_ne_none _

/-! ## Candidates -/

/-- A way to take the text `d` apart into a header and its value. -/
structure Candidate (d : List Char) where
  /-- The lines before that of the asterisk. -/
  before : List Char
  /-- The blanks before the asterisk on its line. -/
  indent : List Char
  /-- The blanks between the asterisk and the name. -/
  gap : List Char
  /-- The text after the name. -/
  tail : List Char
  /-- The blanks between the name and the value. -/
  space : List Char
  /-- The value. -/
  value : List Char
  /-- The text from the end of the value's line on. -/
  after : List Char
  text_eq : d = before ++ indent ++ '*' :: (gap ++ (headerName ++ tail))
  startsAfter : StartsAfter '\n' before
  isIndent : IsIndent indent
  blank_gap : ∀ c ∈ gap, isBlank c
  isValue : IsValue tail space value after

variable {d : List Char}

namespace Candidate

/-- The place of the asterisk. -/
def start (m : Candidate d) : Nat := (m.before ++ m.indent).length

/-- All other candidates have a later asterisk, or the same asterisk and no more blanks before
    their value. -/
def IsBest (m : Candidate d) : Prop :=
  ∀ m' : Candidate d, m.start < m'.start ∨
    m.start = m'.start ∧ m'.space.length ≤ m.space.length

theorem headAfter (m : Candidate d) : headAfter true (m.before ++ m.indent) :=
  headAfter_true_iff.2 ⟨_, _, rfl, m.startsAfter, m.isIndent⟩

theorem afterAsterisk?_ne_none (m : Candidate d) :
    afterAsterisk? (m.gap ++ (headerName ++ m.tail)) ≠ none := by
  rw [afterAsterisk?_append m.blank_gap]
  exact m.isValue.value?_ne_none

/-- What comes after the name is determined by the place of the asterisk. -/
theorem tail_eq_of_start_eq {m m' : Candidate d} (hs : m.start = m'.start) : m.tail = m'.tail :=
  (parts_eq_of_asterisk (m.text_eq.symm.trans m'.text_eq) hs m.blank_gap m'.blank_gap).2

/-- The best candidates have one value. -/
theorem IsBest.value_eq {m m' : Candidate d} (h : m.IsBest) (h' : m'.IsBest) :
    m.value = m'.value := by
  obtain ⟨heq, hlen⟩ : m.start = m'.start ∧ m.space.length = m'.space.length := by
    rcases h m' with hlt | ⟨heq, hle⟩ <;> rcases h' m with hlt' | ⟨heq', hle'⟩ <;> omega
  have hval := m'.isValue
  rw [← tail_eq_of_start_eq heq] at hval
  exact m.isValue.eq_of_length_eq hval hlen

end Candidate

/-- A value that is found belongs to a candidate with the longest blanks. -/
theorem exists_candidate {s rest v : List Char} (hd : d = s ++ '*' :: rest)
    (hhead : headAfter true s) (hv : afterAsterisk? rest = some v) :
    ∃ m : Candidate d, m.start = s.length ∧ m.value = v ∧ IsLongest m.tail m.space := by
  obtain ⟨before, indent, rfl, hb, hi⟩ := headAfter_true_iff.1 hhead
  obtain ⟨gap, tail, rfl, hg, hv⟩ := exists_tail_of_afterAsterisk? hv
  obtain ⟨space, after, hval, hlongest⟩ := exists_longest hv
  exact ⟨⟨before, indent, gap, tail, space, v, after, hd, hb, hi, hg, hval⟩, rfl, rfl, hlongest⟩

/-! ## The search -/

theorem exists_isBest {v : List Char} (h : header? d = some v) :
    ∃ m : Candidate d, m.IsBest ∧ m.value = v := by
  obtain ⟨s, rest, hd, hhead, hv, hfirst⟩ := headerFrom?_eq_some_iff.1 h
  obtain ⟨m, hstart, hval, hlongest⟩ := exists_candidate hd hhead hv
  refine ⟨m, fun m' => ?_, hval⟩
  -- An earlier asterisk has no value, and the value after this one has the most blanks before it.
  rcases Nat.lt_trichotomy m.start m'.start with hlt | heq | hlt
  · exact .inl hlt
  · have hval := m'.isValue
    rw [← Candidate.tail_eq_of_start_eq heq] at hval
    exact .inr ⟨heq, hlongest _ _ _ hval⟩
  · rw [hstart] at hlt
    exact absurd (hfirst _ _ m'.text_eq m'.headAfter hlt) m'.afterAsterisk?_ne_none

theorem header?_eq_none_iff_isEmpty : header? d = none ↔ IsEmpty (Candidate d) := by
  rw [header?, headerFrom?_eq_none_iff]
  constructor
  · intro hnone
    exact ⟨fun m => m.afterAsterisk?_ne_none (hnone _ _ m.text_eq m.headAfter)⟩
  · intro hempty s rest hd hhead
    refine Option.eq_none_iff_forall_ne_some.2 fun v hv => ?_
    obtain ⟨m, -⟩ := exists_candidate hd hhead hv
    exact hempty.false m

/-- The search finds the value of a best candidate. -/
theorem header?_of_isBest {m : Candidate d} (hm : m.IsBest) : header? d = some m.value := by
  cases h : header? d with
  | none => exact ((header?_eq_none_iff_isEmpty.1 h).false m).elim
  | some v =>
    obtain ⟨m', hm', rfl⟩ := exists_isBest h
    rw [hm.value_eq hm']

/-- The search finds nothing in a text exactly if there is no candidate, and otherwise the value
    of the best one. In a block it starts with a character that is not blank, and ends with its
    line. -/
theorem header?_best (d : List Char) :
    (header? d = none ↔ IsEmpty (Candidate d)) ∧
    (∀ v, header? d = some v ↔ ∃ m : Candidate d, m.IsBest ∧ m.value = v) ∧
    ∀ t, find? t = some d → ∀ m : Candidate d, m.IsBest →
      StartsInk m.value ∧ '\n' ∉ m.value ∧ EndsBefore '\n' m.after := by
  refine ⟨header?_eq_none_iff_isEmpty, fun v => ⟨exists_isBest, ?_⟩, fun t ht m hm => ?_⟩
  · rintro ⟨m, hm, rfl⟩
    exact header?_of_isBest hm
  · obtain ⟨h, -, hval⟩ :=
      (header?_eq_some_iff (getLast?_of_find? ht)).1 (header?_of_isBest hm)
    exact ⟨hval ▸ h.startsInk, m.isValue.newline_not_mem, m.isValue.endsBefore⟩

/-- Of blanks alone after the name, the last that does not end a line is the value. -/
theorem header?_best_blanks :
    let d := "\u000b* x\n *\n Categories: \t \u00a0\n\n".toList
    header? d = some ['\u00a0'] ∧ ∃ m : Candidate d, m.IsBest ∧ m.value = ['\u00a0'] := by
  intro d
  have h : header? d = some ['\u00a0'] := by decide +kernel
  exact ⟨h, ((header?_best d).2.1 _).1 h⟩

end CategoryLint.Docblock
