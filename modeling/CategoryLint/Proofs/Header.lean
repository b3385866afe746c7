import CategoryLint.Proofs.Block
import CategoryLint.Proofs.Splitting
import Mathlib.Data.List.TakeWhile

/-!
# Where a header is

A header (`Header`) is an asterisk that begins its line, the header's name and a value, which
runs from a character that is not blank to the end of its line. The blanks before the name and
before the value may hold line feeds: then the asterisk, the name and the value are not on one
line (`Header.OnOneLine`).

The search looks at the asterisks of a text from left to right (`headerFrom?_eq_some_iff`). A
block ends with a character that is not blank, so in a block the value after a name never runs
out: the search finds the value of the first header (`header?_eq_some_iff`).
-/

namespace CategoryLint.Docblock

open Text

/-! ## The search -/

/-- Whether only blanks stand on the last line of a text; `atHead` says whether only blanks
    stand before the text on its first line. -/
def headAfter (atHead : Bool) : List Char → Bool
  | [] => atHead
  | c :: cs => headAfter (c = '\n' || (atHead && isBlank c)) cs

/-- The search looks at an asterisk that begins its line, and else goes on. -/
theorem headerFrom?_cons (atHead : Bool) (c : Char) (cs : List Char) :
    headerFrom? atHead (c :: cs) = (if c = '*' ∧ atHead then afterAsterisk? cs else none).or
      (headerFrom? (c = '\n' || (atHead && isBlank c)) cs) := by
  rw [headerFrom?]
  split
  · next h =>
    have hc : (c = '\n' || (atHead && isBlank c)) = false := by
      rw [h.1]
      cases atHead <;> decide
    rw [hc]
    cases afterAsterisk? cs <;> rfl
  · rfl

/-- The search finds nothing exactly if no asterisk that begins its line has a value after it. -/
theorem headerFrom?_eq_none_iff {atHead : Bool} {cs : List Char} :
    headerFrom? atHead cs = none ↔ ∀ s rest, cs = s ++ '*' :: rest → headAfter atHead s →
      afterAsterisk? rest = none := by
  induction cs generalizing atHead with
  | nil => simp [headerFrom?]
  | cons c cs ih =>
    rw [headerFrom?_cons, Option.or_eq_none_iff, ih]
    -- An asterisk is the first character (`nil`), or one of those after it (`cons`).
    constructor
    · rintro ⟨hc, hcs⟩ s rest hs hhead
      cases s with
      | nil =>
        rw [List.nil_append, List.cons.injEq] at hs
        obtain ⟨rfl, rfl⟩ := hs
        rwa [if_pos ⟨rfl, hhead⟩] at hc
      | cons d s =>
        rw [List.cons_append, List.cons.injEq] at hs
        obtain ⟨rfl, hs⟩ := hs
        exact hcs s rest hs hhead
    · intro h
      refine ⟨?_, fun s rest hs hhead => h (c :: s) rest (by rw [hs]; rfl) hhead⟩
      split
      · next hc => exact h [] cs (by rw [hc.1]; rfl) hc.2
      · rfl

/-- What is found is the value after an asterisk that begins its line, and none before it has
    one. -/
theorem exists_of_headerFrom? {atHead : Bool} {cs v : List Char}
    (h : headerFrom? atHead cs = some v) :
    ∃ s rest, cs = s ++ '*' :: rest ∧ headAfter atHead s ∧ afterAsterisk? rest = some v ∧
      ∀ s' rest', cs = s' ++ '*' :: rest' → headAfter atHead s' → s'.length < s.length →
        afterAsterisk? rest' = none := by
  induction cs generalizing atHead with
  | nil => simp [headerFrom?] at h
  | cons c cs ih =>
    rw [headerFrom?_cons] at h
    by_cases hc : c = '*' ∧ atHead ∧ (afterAsterisk? cs).isSome
    · -- The first asterisk has a value, and there is none before it.
      obtain ⟨rfl, hhead, hv⟩ := hc
      obtain ⟨w, hw⟩ := Option.isSome_iff_exists.1 hv
      rw [if_pos ⟨rfl, hhead⟩, hw, Option.some_or, Option.some.injEq] at h
      exact ⟨[], cs, rfl, hhead, h ▸ hw, fun _ _ _ _ hlt => absurd hlt (Nat.not_lt_zero _)⟩
    · have hnone : (if c = '*' ∧ atHead then afterAsterisk? cs else none) = none := by
        split
        · next h' => exact Option.not_isSome_iff_eq_none.1 fun hs => hc ⟨h'.1, h'.2, hs⟩
        · rfl
      rw [hnone, Option.none_or] at h
      obtain ⟨s, rest, rfl, hhead, hv, hfirst⟩ := ih h
      refine ⟨c :: s, rest, rfl, hhead, hv, fun s' rest' hs' hhead' hlt => ?_⟩
      cases s' with
      | nil =>
        rw [List.nil_append, List.cons.injEq] at hs'
        obtain ⟨rfl, rfl⟩ := hs'
        rwa [if_pos ⟨rfl, hhead'⟩] at hnone
      | cons d s' =>
        rw [List.cons_append, List.cons.injEq] at hs'
        obtain ⟨rfl, hs'⟩ := hs'
        exact hfirst s' rest' hs' hhead' (Nat.lt_of_succ_lt_succ hlt)

/-- The search finds the value of the first asterisk at the head of a line that has one. -/
theorem headerFrom?_eq_some_iff {atHead : Bool} {cs v : List Char} :
    headerFrom? atHead cs = some v ↔
    ∃ s rest, cs = s ++ '*' :: rest ∧ headAfter atHead s ∧ afterAsterisk? rest = some v ∧
      ∀ s' rest', cs = s' ++ '*' :: rest' → headAfter atHead s' → s'.length < s.length →
        afterAsterisk? rest' = none := by
  refine ⟨exists_of_headerFrom?, ?_⟩
  rintro ⟨s, rest, hs, hhead, hv, hfirst⟩
  cases hw : headerFrom? atHead cs with
  | none =>
    rw [headerFrom?_eq_none_iff.1 hw s rest hs hhead] at hv
    exact absurd hv (by simp)
  | some w =>
    obtain ⟨s', rest', hs', hhead', hw', hfirst'⟩ := exists_of_headerFrom? hw
    -- Both asterisks have a value and none before them has, so they are one.
    have hlen : s.length = s'.length := by
      rcases Nat.lt_trichotomy s.length s'.length with hlt | heq | hlt
      · rw [hfirst' s rest hs hhead hlt] at hv
        exact absurd hv (by simp)
      · exact heq
      · rw [hfirst s' rest' hs' hhead' hlt] at hw'
        exact absurd hw' (by simp)
    obtain ⟨-, hrest⟩ := List.append_inj (hs.symm.trans hs') hlen
    obtain rfl : rest = rest' := by simpa using hrest
    rw [← hv, ← hw']

/-! ## The head of a line -/

/-- A text of blanks on one line. -/
def IsIndent (cs : List Char) : Prop := ∀ c ∈ cs, isBlank c ∧ c ≠ '\n'

theorem isIndent_cons {c : Char} {cs : List Char} :
    IsIndent (c :: cs) ↔ (isBlank c ∧ c ≠ '\n') ∧ IsIndent cs :=
  List.forall_mem_cons

/-- Only blanks stand on the last line, which is either the first one or after a line feed. -/
theorem headAfter_iff {atHead : Bool} {cs : List Char} :
    headAfter atHead cs ↔
      (atHead ∧ IsIndent cs) ∨
        ∃ before indent, cs = before ++ '\n' :: indent ∧ IsIndent indent := by
  induction cs generalizing atHead with
  | nil => simp [headAfter, IsIndent]
  | cons c cs ih =>
    rw [headAfter, ih, isIndent_cons]
    -- A line feed starts a line anew; after any other character the line must have been blank.
    by_cases hc : c = '\n'
    · subst hc
      constructor
      · rintro (⟨-, hcs⟩ | ⟨before, indent, rfl, hi⟩)
        · exact .inr ⟨[], cs, rfl, hcs⟩
        · exact .inr ⟨'\n' :: before, indent, rfl, hi⟩
      · rintro (⟨-, ⟨-, hne⟩, -⟩ | ⟨before, indent, hcs, hi⟩)
        · exact absurd rfl hne
        · cases before with
          | nil => exact .inl ⟨rfl, by simp_all⟩
          | cons b before => exact .inr ⟨before, indent, by simp_all, hi⟩
    · constructor
      · rintro (⟨hb, hcs⟩ | ⟨before, indent, rfl, hi⟩)
        · obtain ⟨hhead, hb⟩ : atHead = true ∧ isBlank c = true := by simpa [hc] using hb
          exact .inl ⟨hhead, ⟨hb, hc⟩, hcs⟩
        · exact .inr ⟨c :: before, indent, rfl, hi⟩
      · rintro (⟨hhead, ⟨hb, -⟩, hcs⟩ | ⟨before, indent, hcs, hi⟩)
        · exact .inl ⟨by simp [hhead, hb], hcs⟩
        · cases before with
          | nil => exact absurd (List.cons.inj hcs).1 hc
          | cons b before => exact .inr ⟨before, indent, (List.cons.inj hcs).2, hi⟩

/-- Only blanks stand on the last line of a text if it is a text of whole lines and blanks. -/
theorem headAfter_true_iff {cs : List Char} :
    headAfter true cs ↔
      ∃ before indent, cs = before ++ indent ∧ StartsAfter '\n' before ∧ IsIndent indent := by
  rw [headAfter_iff]
  constructor
  · rintro (⟨-, hcs⟩ | ⟨before, indent, rfl, hi⟩)
    · exact ⟨[], cs, rfl, .nil, hcs⟩
    · exact ⟨before ++ ['\n'], indent, by simp, StartsAfter.nil.append_cons before, hi⟩
  · rintro ⟨before, indent, rfl, hb, hi⟩
    cases hl : before.getLast? with
    | none =>
      rw [List.getLast?_eq_none_iff] at hl
      exact .inl ⟨rfl, by rwa [hl, List.nil_append]⟩
    | some c =>
      obtain ⟨init, rfl⟩ := List.getLast?_eq_some_iff.1 hl
      exact .inr ⟨init, indent, by simp [hb c hl], hi⟩

/-! ## Headers -/

/-- A text starts with a character that is not blank. -/
def StartsInk (cs : List Char) : Prop := ∃ c ∈ cs.head?, ¬isBlank c

theorem StartsInk.append {cs : List Char} (h : StartsInk cs) (rest : List Char) :
    StartsInk (cs ++ rest) := by
  obtain ⟨c, hc, hb⟩ := h
  exact ⟨c, by simp [Option.mem_def.1 hc], hb⟩

theorem StartsInk.of_append {cs rest : List Char} (h : StartsInk (cs ++ rest)) (hne : cs ≠ []) :
    StartsInk cs := by
  obtain ⟨c, cs, rfl⟩ := List.exists_cons_of_ne_nil hne
  exact h

theorem startsInk_headerName (rest : List Char) : StartsInk (headerName ++ rest) :=
  StartsInk.append ⟨'C', rfl, by decide⟩ rest

/-- Blanks are passed over up to the first character that is not blank. -/
theorem dropWhile_blanks {blanks cs : List Char} (hb : ∀ c ∈ blanks, isBlank c)
    (h : StartsInk cs) : (blanks ++ cs).dropWhile isBlank = cs := by
  obtain ⟨c, hc, hink⟩ := h
  obtain ⟨rest, rfl⟩ := List.head?_eq_some_iff.1 hc
  rw [List.dropWhile_append_of_pos hb, List.dropWhile_cons, if_neg hink]

theorem takeWhile_blanks {blanks cs : List Char} (hb : ∀ c ∈ blanks, isBlank c)
    (h : StartsInk cs) : (blanks ++ cs).takeWhile isBlank = blanks := by
  obtain ⟨c, hc, hink⟩ := h
  obtain ⟨rest, rfl⟩ := List.head?_eq_some_iff.1 hc
  rw [List.takeWhile_append_of_pos hb, List.takeWhile_cons, if_neg hink, List.append_nil]

/-- What is around the name of a header is determined by the place of the asterisk before it. -/
theorem parts_eq_of_asterisk {s s' gap gap' tail tail' : List Char}
    (h : s ++ '*' :: (gap ++ (headerName ++ tail)) = s' ++ '*' :: (gap' ++ (headerName ++ tail')))
    (hs : s.length = s'.length) (hg : ∀ c ∈ gap, isBlank c) (hg' : ∀ c ∈ gap', isBlank c) :
    gap = gap' ∧ tail = tail' := by
  obtain ⟨-, hrest⟩ := List.append_inj h hs
  have hrest := (List.cons.inj hrest).2
  have hgap : gap = gap' := by
    rw [← takeWhile_blanks hg (startsInk_headerName tail), hrest,
      takeWhile_blanks hg' (startsInk_headerName tail')]
  rw [hgap, List.append_cancel_left_eq, List.append_cancel_left_eq] at hrest
  exact ⟨hgap, hrest⟩

/-- A header in the text `d`. -/
structure Header (d : List Char) where
  /-- The lines before that of the asterisk. -/
  before : List Char
  /-- The blanks before the asterisk on its line. -/
  indent : List Char
  /-- The blanks between the asterisk and the name. -/
  gap : List Char
  /-- The blanks between the name and the value. -/
  space : List Char
  /-- The value. -/
  value : List Char
  /-- The text from the end of the value's line on. -/
  after : List Char
  text_eq : d = before ++ indent ++ '*' :: (gap ++ (headerName ++ (space ++ (value ++ after))))
  startsAfter : StartsAfter '\n' before
  isIndent : IsIndent indent
  blank_gap : ∀ c ∈ gap, isBlank c
  blank_space : ∀ c ∈ space, isBlank c
  startsInk : StartsInk value
  newline_not_mem : '\n' ∉ value
  endsBefore : EndsBefore '\n' after

namespace Header

variable {d : List Char}

/-- The place of the asterisk. -/
def start (h : Header d) : Nat := (h.before ++ h.indent).length

/-- No header is before this one. -/
def IsFirst (h : Header d) : Prop := ∀ h' : Header d, h.start ≤ h'.start

/-- The asterisk, the name and the value are on one line. -/
def OnOneLine (h : Header d) : Prop := '\n' ∉ h.gap ∧ '\n' ∉ h.space

/-- The blanks of a header are determined by the place of its asterisk. -/
theorem blanks_eq_of_start_eq {h h' : Header d} (hs : h.start = h'.start) :
    h.gap = h'.gap ∧ h.space = h'.space := by
  obtain ⟨hgap, htail⟩ :=
    parts_eq_of_asterisk (h.text_eq.symm.trans h'.text_eq) hs h.blank_gap h'.blank_gap
  refine ⟨hgap, ?_⟩
  rw [← takeWhile_blanks h.blank_space (h.startsInk.append _), htail,
    takeWhile_blanks h'.blank_space (h'.startsInk.append _)]

end Header

/-! ## The value of a header -/

/-- The rest of a line goes up to its line feed. -/
theorem takeWhile_line {value after : List Char} (hv : '\n' ∉ value) (ha : EndsBefore '\n' after) :
    (value ++ after).takeWhile (· ≠ '\n') = value := by
  have hval : ∀ c ∈ value, decide (c ≠ '\n') := fun c hc => by
    simpa using fun e : c = '\n' => hv (e ▸ hc)
  rw [List.takeWhile_append_of_pos hval]
  cases after with
  | nil => simp
  | cons c after => simp [ha c rfl]

theorem value?_of_dropWhile_ne_nil {cs : List Char} (h : cs.dropWhile isBlank ≠ []) :
    value? cs = some ((cs.dropWhile isBlank).takeWhile (· ≠ '\n')) := by
  rw [value?]
  split
  · next hnil => exact absurd hnil h
  · rfl

/-- A value after blanks is found. -/
theorem value?_eq_some {space value after : List Char} (hs : ∀ c ∈ space, isBlank c)
    (hink : StartsInk value) (hv : '\n' ∉ value) (ha : EndsBefore '\n' after) :
    value? (space ++ (value ++ after)) = some value := by
  rw [value?, dropWhile_blanks hs (hink.append after)]
  split
  · next hnil =>
    obtain ⟨c, hc, -⟩ := hink
    simp [(List.append_eq_nil_iff.1 hnil).1] at hc
  · rw [takeWhile_line hv ha]

/-- After blanks and the header's name the value is looked for. -/
theorem afterAsterisk?_append {gap : List Char} (hg : ∀ c ∈ gap, isBlank c) (tail : List Char) :
    afterAsterisk? (gap ++ (headerName ++ tail)) = value? tail := by
  rw [afterAsterisk?, dropWhile_blanks hg (startsInk_headerName _),
    dropLiteral?_eq_some_iff.2 rfl, Option.bind_some]

theorem afterAsterisk?_eq_some {gap space value after : List Char} (hg : ∀ c ∈ gap, isBlank c)
    (hs : ∀ c ∈ space, isBlank c) (hink : StartsInk value) (hv : '\n' ∉ value)
    (ha : EndsBefore '\n' after) :
    afterAsterisk? (gap ++ (headerName ++ (space ++ (value ++ after)))) = some value :=
  (afterAsterisk?_append hg _).trans (value?_eq_some hs hink hv ha)

theorem Header.afterAsterisk? {d : List Char} (h : Header d) :
    afterAsterisk? (h.gap ++ (headerName ++ (h.space ++ (h.value ++ h.after)))) = some h.value :=
  afterAsterisk?_eq_some h.blank_gap h.blank_space h.startsInk h.newline_not_mem h.endsBefore

theorem Header.headAfter {d : List Char} (h : Header d) :
    headAfter true (h.before ++ h.indent) :=
  headAfter_true_iff.2 ⟨_, _, rfl, h.startsAfter, h.isIndent⟩

/-- A text that ends with a character that is not blank has one after its first blanks. -/
theorem startsInk_dropWhile {cs : List Char} {c : Char} (hl : cs.getLast? = some c)
    (hc : ¬isBlank c) : StartsInk (cs.dropWhile isBlank) := by
  have hne : cs.dropWhile isBlank ≠ [] := fun hnil => by
    have hall := List.dropWhile_eq_nil_iff.1 hnil
    exact hc (hall c (List.mem_of_getLast? hl))
  exact ⟨_, List.head?_eq_some_head hne, by simp [List.head_dropWhile_not isBlank hne]⟩

/-- A value that is found runs from a character that is not blank to the end of its line. -/
theorem exists_of_value? {cs v : List Char} (h : value? cs = some v)
    (hink : StartsInk (cs.dropWhile isBlank)) :
    ∃ space after, cs = space ++ (v ++ after) ∧ (∀ c ∈ space, isBlank c) ∧ StartsInk v ∧
      '\n' ∉ v ∧ EndsBefore '\n' after := by
  rw [value?] at h
  split at h
  · next hnil => rw [hnil] at hink; simp [StartsInk] at hink
  · next hne =>
    rw [Option.some.injEq] at h
    refine ⟨cs.takeWhile isBlank, (cs.dropWhile isBlank).dropWhile (· ≠ '\n'), ?_, ?_, ?_, ?_, ?_⟩
    · rw [← h, List.takeWhile_append_dropWhile, List.takeWhile_append_dropWhile]
    · exact fun c hc => List.mem_takeWhile_imp hc
    · obtain ⟨c, hc, hb⟩ := hink
      refine ⟨c, ?_, hb⟩
      have hcn : c ≠ '\n' := fun e => hb (by rw [e]; decide)
      obtain ⟨rest, hrest⟩ := List.head?_eq_some_iff.1 hc
      rw [← h, hrest, List.takeWhile_cons, if_pos (by simpa using hcn)]
      rfl
    · intro hn
      rw [← h] at hn
      simpa using List.mem_takeWhile_imp hn
    · intro c hc
      have hstop := List.head?_dropWhile_not (· ≠ '\n') (cs.dropWhile isBlank)
      rw [Option.mem_def.1 hc] at hstop
      simpa using hstop

/-- A value that is found after an asterisk comes after the header's name. -/
theorem exists_tail_of_afterAsterisk? {cs v : List Char} (h : afterAsterisk? cs = some v) :
    ∃ gap tail, cs = gap ++ (headerName ++ tail) ∧ (∀ c ∈ gap, isBlank c) ∧
      value? tail = some v := by
  rw [afterAsterisk?, Option.bind_eq_some_iff] at h
  obtain ⟨tail, htail, hv⟩ := h
  rw [dropLiteral?_eq_some_iff] at htail
  refine ⟨cs.takeWhile isBlank, tail, ?_, fun c hc => List.mem_takeWhile_imp hc, hv⟩
  rw [← htail, List.takeWhile_append_dropWhile]

theorem exists_of_afterAsterisk? {cs v : List Char} (h : afterAsterisk? cs = some v)
    (hl : cs.getLast? = some '/') :
    ∃ gap space after, cs = gap ++ (headerName ++ (space ++ (v ++ after))) ∧
      (∀ c ∈ gap, isBlank c) ∧ (∀ c ∈ space, isBlank c) ∧ StartsInk v ∧ '\n' ∉ v ∧
      EndsBefore '\n' after := by
  obtain ⟨gap, tail, rfl, hg, hv⟩ := exists_tail_of_afterAsterisk? h
  -- The name does not end as the text does, so there is text after the name.
  have hl' : tail.getLast? = some '/' := by
    rw [List.getLast?_append, List.getLast?_append] at hl
    cases hr : tail.getLast? with
    | none =>
      rw [hr, show headerName.getLast? = some ':' from rfl] at hl
      exact absurd hl (by simp)
    | some c => rwa [hr] at hl
  -- The last character is not blank, so the blanks end before it.
  have hink := startsInk_dropWhile hl' (by decide)
  obtain ⟨space, after, rfl, hs, hv, hn, ha⟩ := exists_of_value? hv hink
  exact ⟨gap, space, after, rfl, hg, hs, hv, hn, ha⟩

/-! ## The first header -/

/-- In a text that ends like a block, an asterisk at the head of a line that has a value is that
    of a header. -/
theorem exists_header {d s rest v : List Char} (hl : d.getLast? = some '/')
    (hd : d = s ++ '*' :: rest) (hhead : headAfter true s) (hv : afterAsterisk? rest = some v) :
    ∃ h : Header d, h.start = s.length ∧ h.value = v := by
  have hl' : rest.getLast? = some '/' := by
    rw [hd, List.getLast?_append, List.getLast?_cons] at hl
    cases hr : rest.getLast? with
    | none => rw [hr] at hl; exact absurd hl (by simp)
    | some c => rwa [hr] at hl
  obtain ⟨before, indent, rfl, hb, hi⟩ := headAfter_true_iff.1 hhead
  obtain ⟨gap, space, after, rfl, hg, hs, hink, hn, ha⟩ := exists_of_afterAsterisk? hv hl'
  exact ⟨⟨before, indent, gap, space, v, after, hd, hb, hi, hg, hs, hink, hn, ha⟩, rfl, rfl⟩

/-- What the search finds in a text that ends like a block is the value of its first header. -/
theorem header?_eq_some_iff {d v : List Char} (hl : d.getLast? = some '/') :
    header? d = some v ↔ ∃ h : Header d, h.IsFirst ∧ h.value = v := by
  rw [header?, headerFrom?_eq_some_iff]
  constructor
  · rintro ⟨s, rest, hd, hhead, hv, hfirst⟩
    obtain ⟨h, hstart, hval⟩ := exists_header hl hd hhead hv
    -- An earlier header would have been found.
    refine ⟨h, fun h' => Nat.not_lt.1 fun hlt => ?_, hval⟩
    have hnone := hfirst _ _ h'.text_eq h'.headAfter (hstart ▸ hlt)
    rw [h'.afterAsterisk?] at hnone
    exact absurd hnone (by simp)
  · rintro ⟨h, hfirst, rfl⟩
    refine ⟨_, _, h.text_eq, h.headAfter, h.afterAsterisk?, fun s' rest' hd hhead hlt => ?_⟩
    cases hv : Docblock.afterAsterisk? rest' with
    | none => rfl
    | some v =>
      obtain ⟨h', hstart, -⟩ := exists_header hl hd hhead hv
      exact absurd (hfirst h') (Nat.not_le.2 (hstart ▸ hlt))

theorem getLast?_of_find? {t d : List Char} (h : find? t = some d) : d.getLast? = some '/' := by
  obtain ⟨pre, body, post, -, rfl, -, -⟩ := find?_eq_some_iff.1 h
  simp [closing, List.getLast?_append]

end CategoryLint.Docblock
