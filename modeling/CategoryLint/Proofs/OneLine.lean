import CategoryLint.Proofs.Header
import CategoryLint.Proofs.Verdict

/-!
# Headers on one line

The header of a block is meant to be one line of it, of the form

    * Categories: featured, hero

and a block without such a line is meant to have no header (`Confined`). The search keeps to this
as long as the first header of the block, in the wide sense of `Header`, is on one line. If it is
not, its asterisk, its name and its value come from different lines, and only by chance does a
later line say the same (`confined_iff`).
-/

namespace CategoryLint.Docblock

open Text

/-- A line that is a header with a value: blanks, an asterisk, blanks, the name, blanks and the
    value. -/
def IsHeaderLine (line v : List Char) : Prop :=
  ∃ indent gap space : List Char, (∀ c ∈ indent, isBlank c) ∧ (∀ c ∈ gap, isBlank c) ∧
    (∀ c ∈ space, isBlank c) ∧ line = indent ++ '*' :: (gap ++ (headerName ++ (space ++ v)))

/-- The header of the block `d` of the text `t` is one of the lines of the block. -/
structure Confined (t d : List Char) : Prop where
  /-- The value that is found is that of a line. -/
  line_of_value : ∀ v, header? d = some v → ∃ line ∈ splitOn '\n' d, IsHeaderLine line v
  /-- If no line has a value, none is found, and no rule accepts the text. -/
  none_of_no_line : (∀ line ∈ splitOn '\n' d, ∀ v, StartsInk v → ¬IsHeaderLine line v) →
    header? d = none ∧ ∀ rule : Rule, (rule.check t).outcome = .missingCategories

variable {t d v : List Char}

/-- A header on one line is a header line of the block. -/
theorem Header.exists_line {h : Header d} (hone : h.OnOneLine) :
    ∃ line ∈ splitOn '\n' d, IsHeaderLine line h.value := by
  obtain ⟨hgap, hspace⟩ := hone
  refine ⟨h.indent ++ '*' :: (h.gap ++ (headerName ++ (h.space ++ h.value))), ?_,
    h.indent, h.gap, h.space, fun c hc => (h.isIndent c hc).1, h.blank_gap, h.blank_space, rfl⟩
  refine mem_splitOn_iff.2 ⟨?_, h.before, h.after, ?_, h.startsAfter, h.endsBefore⟩
  · have hindent : '\n' ∉ h.indent := fun hc => (h.isIndent _ hc).2 rfl
    have hname : '\n' ∉ headerName := by decide
    simp [hindent, hname, hgap, hspace, h.newline_not_mem]
  · simpa using h.text_eq

/-- A header line of the block with a value is a header on one line. -/
theorem IsHeaderLine.exists_header {line : List Char} (hv : IsHeaderLine line v)
    (hink : StartsInk v) (hl : line ∈ splitOn '\n' d) :
    ∃ h : Header d, h.OnOneLine ∧ h.value = v := by
  obtain ⟨hn, before, after, hd, hb, ha⟩ := mem_splitOn_iff.1 hl
  obtain ⟨indent, gap, space, hi, hg, hs, rfl⟩ := hv
  simp only [List.mem_append, List.mem_cons, not_or] at hn
  obtain ⟨hni, -, hng, -, hns, hnv⟩ := hn
  refine ⟨⟨before, indent, gap, space, v, after, by simpa using hd, hb,
    fun c hc => ⟨hi c hc, fun e => hni (e ▸ hc)⟩, hg, hs, hink, hnv, ha⟩, ⟨hng, hns⟩, rfl⟩

/-- The header of a block is one of its lines exactly if the first header is on one line, or a
    later one is and has the same value. -/
theorem confined_iff (hd : find? t = some d) :
    Confined t d ↔ ∀ h : Header d, h.IsFirst →
      h.OnOneLine ∨ ∃ h' : Header d, h.start < h'.start ∧ h'.OnOneLine ∧ h'.value = h.value := by
  have hl := getLast?_of_find? hd
  constructor
  · intro hc h hfirst
    obtain ⟨line, hline, hv⟩ := hc.line_of_value _ ((header?_eq_some_iff hl).2 ⟨h, hfirst, rfl⟩)
    obtain ⟨h', hone, hval⟩ := hv.exists_header h.startsInk hline
    rcases Nat.lt_or_eq_of_le (hfirst h') with hlt | heq
    · exact .inr ⟨h', hlt, hone, hval⟩
    · -- The line is that of the first header itself.
      obtain ⟨hgap, hspace⟩ := Header.blanks_eq_of_start_eq heq
      exact .inl ⟨hgap ▸ hone.1, hspace ▸ hone.2⟩
  · intro hone
    -- Whichever header it is that lies on one line, its line has the value that is found.
    have hline : ∀ v, header? d = some v → ∃ line ∈ splitOn '\n' d, IsHeaderLine line v := by
      intro v hv
      obtain ⟨h, hfirst, rfl⟩ := (header?_eq_some_iff hl).1 hv
      rcases hone h hfirst with hone | ⟨h', -, hone, hval⟩
      · exact h.exists_line hone
      · exact hval ▸ h'.exists_line hone
    refine ⟨hline, fun hno => ?_⟩
    have hnone : header? d = none := by
      cases hv : header? d with
      | none => rfl
      | some v =>
        obtain ⟨line, hmem, hform⟩ := hline v hv
        obtain ⟨h, -, rfl⟩ := (header?_eq_some_iff hl).1 hv
        exact absurd hform (hno line hmem _ h.startsInk)
    exact ⟨hnone, fun rule => (Rule.outcome_eq_missingCategories_iff hd).2 hnone⟩

theorem IsHeaderLine.length_lt {line : List Char} (h : IsHeaderLine line v) :
    headerName.length + v.length < line.length := by
  obtain ⟨indent, gap, space, -, -, -, rfl⟩ := h
  simp only [List.length_append, List.length_cons]
  omega

/-- A block with nothing but a line feed after the name of its header. -/
def emptyHeader : List Char := "/**\n * Categories:\n * Title: Hero\n */".toList

/-- A header with nothing after it, and the line below it. -/
theorem confined_iff_emptyHeader :
    find? emptyHeader = some emptyHeader ∧ (Confined emptyHeader emptyHeader ↔
      ∀ h : Header emptyHeader, h.IsFirst → h.OnOneLine ∨
        ∃ h' : Header emptyHeader, h.start < h'.start ∧ h'.OnOneLine ∧ h'.value = h.value) :=
  have hd : find? emptyHeader = some emptyHeader := by decide +kernel
  ⟨hd, confined_iff hd⟩

/-- The next line is taken for the value, though no line has one, and the text passes. -/
theorem not_confined_emptyHeader :
    find? emptyHeader = some emptyHeader ∧ header? emptyHeader = some "* Title: Hero".toList ∧
      ((⟨.plain ""⟩ : Rule).check emptyHeader).outcome = .pass ∧
      ¬Confined emptyHeader emptyHeader := by
  have hv : header? emptyHeader = some "* Title: Hero".toList := by decide +kernel
  refine ⟨by decide +kernel, hv, by decide +kernel, fun hc => ?_⟩
  obtain ⟨line, hmem, hline⟩ := hc.line_of_value _ hv
  -- A line with this value would be longer than all lines of the block.
  have hshort : ∀ line ∈ splitOn '\n' emptyHeader, line.length ≤ 14 := by decide +kernel
  have hlong : 24 < line.length := hline.length_lt
  exact absurd (hshort line hmem) (by omega)

end CategoryLint.Docblock
