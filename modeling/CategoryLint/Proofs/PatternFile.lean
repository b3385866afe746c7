import CategoryLint.Proofs.Header
import CategoryLint.Proofs.Verdict

/-!
# Pattern files as they are written

A pattern file (`PatternFile`) has a block of metadata lines, one of which is the header:

    <?php
    /**
     * Title: Hero
     * Categories: featured, hero
     * Slug: theme/hero
     */

What a file says is what the rule reads: the block is found whatever is around it, the lines
before the header are passed over, blank ones included, and the header's value is split into the
categories that were joined to it, empty ones included (`check_text`).
-/

namespace CategoryLint

open Text Docblock

/-- A pattern file, by its parts. -/
structure PatternFile where
  /-- The text before the block. -/
  pre : List Char
  /-- The lines of metadata before the header. -/
  before : List (List Char)
  /-- The categories in the header. -/
  categories : List (List Char)
  /-- The lines of metadata after the header. -/
  after : List (List Char)
  /-- The text after the block. -/
  post : List Char
  pre_free : ¬opening <:+: pre
  before_line : ∀ l ∈ before, '\n' ∉ l ∧ ¬closing <:+: l
  before_ne_header : ∀ l ∈ before, ¬headerName <+: l.dropWhile isBlank
  after_line : ∀ l ∈ after, '\n' ∉ l ∧ ¬closing <:+: l
  trim_category : ∀ c ∈ categories, trim c = c
  comma_not_mem : ∀ c ∈ categories, ',' ∉ c
  category_line : ∀ c ∈ categories, '\n' ∉ c ∧ ¬closing <:+: c
  categories_ne_nil : categories ≠ []
  categories_ne_empty : categories ≠ [[]]

/-- Lines of metadata as they are written in a block. -/
def metadata (lines : List (List Char)) : List Char :=
  lines.flatMap fun l => " * ".toList ++ l ++ "\n".toList

namespace PatternFile

/-- The value of the header. -/
def value (f : PatternFile) : List Char := ", ".toList.intercalate f.categories

/-- The text of the file. -/
def text (f : PatternFile) : List Char :=
  f.pre ++ "/**\n".toList ++ metadata f.before ++ " * Categories: ".toList ++ f.value ++
    "\n".toList ++ metadata f.after ++ " */".toList ++ f.post

/-- What is between the marks of the block. -/
def body (f : PatternFile) : List Char :=
  '\n' :: (metadata f.before ++ (' ' :: '*' :: ' ' :: (headerName ++ ' ' :: (f.value ++
    '\n' :: (metadata f.after ++ [' '])))))

/-- The text is what is before the block, the block, and what is after it. -/
theorem text_eq (f : PatternFile) :
    f.text = f.pre ++ ((opening ++ (f.body ++ closing)) ++ f.post) := by
  have hname : " * Categories: ".toList = ' ' :: '*' :: ' ' :: (headerName ++ [' ']) := rfl
  simp only [text, body, hname, opening, closing, String.reduceToList, List.append_assoc,
    List.cons_append, List.nil_append]

end PatternFile

/-! ## Values -/

/-- A trimmed text starts with a character that is not blank. -/
theorem startsInk_of_trim_eq {cs : List Char} (h : trim cs = cs) (hne : cs ≠ []) :
    StartsInk cs := by
  obtain ⟨c, rest, rfl⟩ := List.exists_cons_of_ne_nil hne
  refine ⟨c, rfl, fun hc => ?_⟩
  have hle : (trim (c :: rest)).length ≤ rest.length := by
    rw [trim_cons hc, trim, trimEnd, List.length_reverse]
    calc _ ≤ (rest.dropWhile isBlank).reverse.length := List.length_dropWhile_le _ _
      _ = (rest.dropWhile isBlank).length := List.length_reverse
      _ ≤ rest.length := List.length_dropWhile_le _ _
  rw [h, List.length_cons] at hle
  omega

/-- So does a list of trimmed texts, unless all of it is one empty text. -/
theorem startsInk_intercalate {parts : List (List Char)} (htrim : ∀ p ∈ parts, trim p = p)
    (hnil : parts ≠ []) (hempty : parts ≠ [[]]) : StartsInk ([',', ' '].intercalate parts) := by
  match parts, hnil, hempty with
  | [p], _, hempty =>
    rw [List.intercalate_singleton]
    exact startsInk_of_trim_eq (htrim p List.mem_cons_self) fun hp => hempty (hp ▸ rfl)
  | [] :: q :: parts, _, _ =>
    -- An empty first category leaves the comma after it.
    exact ⟨',', rfl, by decide⟩
  | (c :: p) :: q :: parts, _, _ =>
    rw [List.intercalate_cons_cons, List.append_assoc]
    exact (startsInk_of_trim_eq (htrim _ List.mem_cons_self) (by simp)).append _

namespace PatternFile

variable (f : PatternFile)

theorem value_eq : f.value = [',', ' '].intercalate f.categories := by
  simp only [value, String.reduceToList]

theorem startsInk_value : StartsInk f.value := by
  rw [value_eq]
  exact startsInk_intercalate f.trim_category f.categories_ne_nil f.categories_ne_empty

/-- The value is on one line. -/
theorem newline_not_mem_value : '\n' ∉ f.value := by
  rw [value_eq]
  refine intercalate_of_forall (P := ('\n' ∉ ·)) (by simp) (fun p q hp hq => ?_)
    fun c hc => (f.category_line c hc).1
  simp [hp, hq]

/-- The value does not close the block: no category has the mark, and none starts with half of
    it. -/
theorem not_closing_infix_value : ¬closing <:+: f.value := by
  rw [value_eq]
  refine intercalate_of_forall (P := (¬closing <:+: ·)) (by decide) (fun p q hp hq => ?_)
    fun c hc => (f.category_line c hc).2
  rintro hpq
  rcases (closing_infix_append_cons (by decide)).1 hpq with hc | hc
  · exact hp hc
  · exact hq (((closing_infix_append_cons (a := []) (by decide)).1 hc).resolve_left (by decide))

theorem categories_value : Docblock.categories f.value = f.categories := by
  rw [value_eq]
  exact map_trim_splitOn_join (by decide) f.categories_ne_nil f.trim_category f.comma_not_mem

end PatternFile

/-! ## Lines -/

/-- The lines after each other, each with its asterisk. -/
theorem metadata_cons (l : List Char) (lines : List (List Char)) (rest : List Char) :
    metadata (l :: lines) ++ rest =
      ' ' :: '*' :: ' ' :: (l ++ '\n' :: (metadata lines ++ rest)) := by
  simp only [metadata, List.flatMap_cons, String.reduceToList, List.append_assoc,
    List.cons_append, List.nil_append]

theorem not_closing_infix_line {l rest : List Char} (hl : ¬closing <:+: l)
    (hrest : ¬closing <:+: rest) : ¬closing <:+: ' ' :: '*' :: ' ' :: (l ++ '\n' :: rest) := by
  intro h
  rcases (closing_infix_append_cons (a := [' ', '*']) (by decide)).1 h with h | h
  · exact absurd h (by decide)
  · rcases (closing_infix_append_cons (by decide)).1 h with h | h
    · exact hl h
    · exact hrest h

/-- The lines of the block do not close it either. -/
theorem not_closing_infix_metadata {lines : List (List Char)} {rest : List Char}
    (hl : ∀ l ∈ lines, ¬closing <:+: l) (hrest : ¬closing <:+: rest) :
    ¬closing <:+: metadata lines ++ rest := by
  induction lines with
  | nil => exact hrest
  | cons l lines ih =>
    rw [metadata_cons]
    exact not_closing_infix_line (hl l List.mem_cons_self)
      (ih fun m hm => hl m (List.mem_cons_of_mem _ hm))

/-- The block is closed at its end only. -/
theorem PatternFile.not_closing_infix_body (f : PatternFile) : ¬closing <:+: f.body := by
  have hheader : ¬closing <:+: headerName ++ ' ' :: f.value := fun h => by
    rcases (closing_infix_append_cons (by decide)).1 h with h | h
    · exact absurd h (by decide +kernel)
    · exact f.not_closing_infix_value h
  have hafter : ¬closing <:+: metadata f.after ++ [' '] :=
    not_closing_infix_metadata (fun l hl => (f.after_line l hl).2) (by decide)
  -- Every line feed keeps what is before it apart from what is after it.
  have hbefore := not_closing_infix_metadata (fun l hl => (f.before_line l hl).2)
    (not_closing_infix_line hheader hafter)
  rw [List.append_assoc, List.cons_append] at hbefore
  rw [body, List.infix_cons_iff, not_or]
  exact ⟨by simp [closing], hbefore⟩

theorem PatternFile.find?_text (f : PatternFile) :
    find? f.text = some (opening ++ (f.body ++ closing)) :=
  find?_eq_some_iff.2 ⟨f.pre, f.body, f.post, f.text_eq, rfl, f.pre_free, f.not_closing_infix_body⟩

/-! ## The header among the lines -/

/-- In a line that has begun, the search goes on at the next line. -/
theorem headerFrom?_false_append {s : List Char} (h : '\n' ∉ s) (rest : List Char) :
    headerFrom? false (s ++ '\n' :: rest) = headerFrom? true rest := by
  induction s with
  | nil => rfl
  | cons c s ih =>
    -- Once the line is not blank, no asterisk on it counts.
    have hc : c ≠ '\n' := fun e => h (e ▸ List.mem_cons_self)
    rw [List.cons_append, headerFrom?_cons, if_neg (by simp), Option.none_or]
    simpa [hc] using ih fun hs => h (List.mem_cons_of_mem _ hs)

/-- A name that starts before a character that it has not is before it as a whole. -/
theorem headerName_prefix_of_append {l rest : List Char} {c : Char} (hc : c ∉ headerName)
    (h : headerName <+: l ++ c :: rest) : headerName <+: l := by
  rcases List.prefix_or_prefix_of_prefix h (List.prefix_append l _) with hp | ⟨y, hy⟩
  · exact hp
  · obtain ⟨r, hr⟩ := h
    rw [← hy, List.append_assoc, List.append_cancel_left_eq] at hr
    cases y with
    | nil => exact ⟨[], by simpa using hy.symm⟩
    | cons d y =>
      -- The name would go on with the character.
      obtain rfl : d = c := (List.cons.inj hr).1
      exact absurd (by simp [← hy]) hc

/-- A text whose first character that is not blank is an asterisk. -/
def StartsAsterisk (cs : List Char) : Prop := ∃ tail, cs.dropWhile isBlank = '*' :: tail

/-- A line that does not start with the header's name is no header, whatever the next line starts
    with after its asterisk. -/
theorem afterAsterisk?_of_line {l rest : List Char}
    (hne : ¬headerName <+: l.dropWhile isBlank) (hrest : StartsAsterisk rest) :
    afterAsterisk? (' ' :: (l ++ '\n' :: rest)) = none := by
  rw [afterAsterisk?, Option.bind_eq_none_iff]
  intro r hr
  rw [dropLiteral?_eq_some_iff, List.dropWhile_cons, if_pos (by decide),
    List.dropWhile_append] at hr
  split at hr
  · -- The line is blank, and the next character that is not is the asterisk of another line.
    obtain ⟨tail, htail⟩ := hrest
    rw [List.dropWhile_cons, if_pos (by decide), htail] at hr
    exact absurd (List.cons.inj hr).1 (by decide)
  · exact absurd (headerName_prefix_of_append (by decide) ⟨r, hr.symm⟩) hne

/-- Such a line is passed over. -/
theorem headerFrom?_line {l rest : List Char} (hl : '\n' ∉ l)
    (hne : ¬headerName <+: l.dropWhile isBlank) (hrest : StartsAsterisk rest) :
    headerFrom? true (' ' :: '*' :: ' ' :: (l ++ '\n' :: rest)) = headerFrom? true rest := by
  rw [headerFrom?_cons, if_neg (by decide), Option.none_or, headerFrom?_cons,
    if_pos (by decide), afterAsterisk?_of_line hne hrest, Option.none_or]
  exact headerFrom?_false_append (s := ' ' :: l) (by simpa using hl) rest

theorem startsAsterisk_line (cs : List Char) : StartsAsterisk (' ' :: '*' :: cs) :=
  ⟨cs, by rw [List.dropWhile_cons, if_pos (by decide), List.dropWhile_cons, if_neg (by decide)]⟩

theorem startsAsterisk_metadata (lines : List (List Char)) {rest : List Char}
    (hrest : StartsAsterisk rest) : StartsAsterisk (metadata lines ++ rest) := by
  cases lines with
  | nil => exact hrest
  | cons l lines =>
    rw [metadata_cons]
    exact startsAsterisk_line _

/-- All such lines are passed over. -/
theorem headerFrom?_metadata {lines : List (List Char)} {rest : List Char}
    (hl : ∀ l ∈ lines, '\n' ∉ l) (hne : ∀ l ∈ lines, ¬headerName <+: l.dropWhile isBlank)
    (hrest : StartsAsterisk rest) :
    headerFrom? true (metadata lines ++ rest) = headerFrom? true rest := by
  induction lines with
  | nil => rfl
  | cons l lines ih =>
    rw [metadata_cons, headerFrom?_line (hl l List.mem_cons_self) (hne l List.mem_cons_self)
      (startsAsterisk_metadata lines hrest)]
    exact ih (fun m hm => hl m (List.mem_cons_of_mem _ hm))
      fun m hm => hne m (List.mem_cons_of_mem _ hm)

theorem isBlank_of_mem_space : ∀ c ∈ [' '], isBlank c := by
  intro c hc
  rw [List.mem_singleton] at hc
  rw [hc]
  rfl

/-- The line with the header's name gives its value. -/
theorem headerFrom?_header {value after : List Char} (hink : StartsInk value)
    (hv : '\n' ∉ value) (ha : EndsBefore '\n' after) :
    headerFrom? true (' ' :: '*' :: ' ' :: (headerName ++ ' ' :: (value ++ after))) =
      some value := by
  have hafter : afterAsterisk? ([' '] ++ (headerName ++ ([' '] ++ (value ++ after)))) =
      some value :=
    afterAsterisk?_eq_some isBlank_of_mem_space isBlank_of_mem_space hink hv ha
  rw [headerFrom?_cons, if_neg (by decide), Option.none_or, headerFrom?_cons, if_pos (by decide)]
  exact congrArg (Option.or · _) hafter

/-- On the line of the mark that opens a block there is no header. -/
theorem header?_opening (rest : List Char) :
    header? (opening ++ '\n' :: rest) = headerFrom? true rest := by
  rw [header?, opening, List.cons_append, headerFrom?_cons, if_neg (by decide), Option.none_or]
  exact headerFrom?_false_append (s := ['*', '*']) (by decide) rest

/-- The header of a pattern file. -/
theorem PatternFile.header?_block (f : PatternFile) :
    header? (opening ++ (f.body ++ closing)) = some f.value := by
  have hbody : opening ++ (f.body ++ closing) = opening ++ '\n' :: (metadata f.before ++
      (' ' :: '*' :: ' ' :: (headerName ++ ' ' :: (f.value ++
        '\n' :: (metadata f.after ++ [' '] ++ closing))))) := by
    simp only [body, List.append_assoc, List.cons_append, List.nil_append]
  have hheader : StartsAsterisk (' ' :: '*' :: ' ' :: (headerName ++ ' ' :: (f.value ++
      '\n' :: (metadata f.after ++ [' '] ++ closing)))) :=
    startsAsterisk_line _
  rw [hbody, header?_opening,
    headerFrom?_metadata (fun l hl => (f.before_line l hl).1) f.before_ne_header hheader,
    headerFrom?_header f.startsInk_value f.newline_not_mem_value (.cons _)]

/-! ## The check -/

theorem Rule.ofValue_str (r : TextValue) : Rule.ofValue (.scalar (.str r)) = ⟨r⟩ := by
  by_cases hr : r = .plain ""
  · simp [Rule.ofValue, Value.textOrEmpty, Value.isGiven, hr]
  · simp [Rule.ofValue, Value.textOrEmpty, Value.isGiven, Value.text, hr]

/-- The categories of a pattern file are those that were written, and its check passes exactly
    if they meet the requirement; else the message ends with the requirement and the value. -/
theorem PatternFile.check_text (f : PatternFile) :
    ((find? f.text).bind header?).map Docblock.categories = some f.categories ∧
    ∀ r : TextValue,
      let result := (Rule.ofValue (.scalar (.str r))).check f.text
      (Rule.MetBy ⟨r⟩ (f.categories.map String.ofList) → result.outcome = .pass) ∧
      (¬Rule.MetBy ⟨r⟩ (f.categories.map String.ofList) →
        result.outcome = .missingBaseCategory ∧ ∃ violation, result.violation = some violation ∧
          violation.message = "Pattern file Categories must include the base category \"" ++
            r.shown ++ "\". Found: " ++ String.ofList f.value) := by
  refine ⟨?_, fun r => ?_⟩
  · rw [f.find?_text, Option.bind_some, f.header?_block, Option.map_some, f.categories_value]
  · rw [Rule.ofValue_str]
    refine ⟨fun hmet => ?_, fun hmet => ?_⟩
    · exact Rule.outcome_check_of_metBy f.find?_text f.header?_block
        (f.categories_value.symm ▸ hmet)
    · exact Rule.check_of_not_metBy f.find?_text f.header?_block
        (f.categories_value.symm ▸ hmet)

/-- A file with half a mark before its block, a blank line before its header and empty
    categories. -/
def PatternFile.sample : PatternFile where
  pre := "<?php\n/*/".toList
  before := ["".toList, "Title: Hero *".toList]
  categories := ["".toList, "Hero".toList, "".toList]
  after := ["/Slug: hero".toList]
  post := "\n?>".toList
  pre_free := by decide +kernel
  before_line := by decide +kernel
  before_ne_header := by decide +kernel
  after_line := by decide +kernel
  trim_category := by decide +kernel
  comma_not_mem := by decide +kernel
  category_line := by decide +kernel
  categories_ne_nil := by decide +kernel
  categories_ne_empty := by decide +kernel

theorem PatternFile.check_text_sample :
    ((find? sample.text).bind header?).map Docblock.categories = some sample.categories ∧
      ((Rule.ofValue (.str "HERO")).check sample.text).outcome = .pass ∧
      ((Rule.ofValue (.str "banner")).check sample.text).outcome = .missingBaseCategory :=
  ⟨sample.check_text.1, (sample.check_text.2 "HERO").1 (by decide +kernel),
    ((sample.check_text.2 "banner").2 (by decide +kernel)).1⟩

end CategoryLint
