import CategoryLint.Proofs.Encoding
import CategoryLint.Proofs.Header
import CategoryLint.Proofs.Verdict
import CategoryLint.Project.Check

/-!
# Line ends

How the lines of a pattern file end does not matter. A file is read with a line feed for every
line end (`unifyNewlines_withLineEnds`), so the three ways to end lines give one result. A text
that is checked as it is keeps its carriage returns. They are blanks, and no mark and no name has
one, so blocks and headers are found where they were (`find?_withLineEnds`,
`header?_withLineEnds`); the value of a header may get a carriage return at its end, which is
trimmed off the last category (`categories_append`) and shows in the message only
(`check_withLineEnds`).
-/

namespace CategoryLint

/-! ## Texts with other line ends -/

namespace Text

/-- How the lines of a text end. -/
inductive LineEnd where
  /-- With a line feed. -/
  | feed
  /-- With a carriage return. -/
  | carriage
  /-- With a carriage return and a line feed. -/
  | both
  deriving DecidableEq, Repr

/-- The characters of a line end. -/
def LineEnd.chars : LineEnd → List Char
  | feed => ['\n']
  | carriage => ['\r']
  | both => ['\r', '\n']

/-- A text with other line ends in place of its line feeds. -/
def withLineEnds (e : LineEnd) : List Char → List Char
  | [] => []
  | c :: cs => if c = '\n' then e.chars ++ withLineEnds e cs else c :: withLineEnds e cs

variable {e : LineEnd} {c : Char} {cs : List Char}

theorem withLineEnds_newline (e : LineEnd) (cs : List Char) :
    withLineEnds e ('\n' :: cs) = e.chars ++ withLineEnds e cs := by
  rw [withLineEnds, if_pos rfl]

theorem withLineEnds_cons (e : LineEnd) (h : c ≠ '\n') (cs : List Char) :
    withLineEnds e (c :: cs) = c :: withLineEnds e cs := by
  rw [withLineEnds, if_neg h]

/-- No line feed follows a line end that is a carriage return. -/
theorem head?_withLineEnds_carriage (cs : List Char) :
    (withLineEnds .carriage cs).head? ≠ some '\n' := by
  cases cs with
  | nil => simp [withLineEnds]
  | cons c cs =>
    by_cases h : c = '\n'
    · subst h
      simp [withLineEnds_newline, LineEnd.chars]
    · simpa [withLineEnds_cons _ h] using h

/-- A carriage return alone becomes a line feed. -/
theorem unifyNewlines_return (h : cs.head? ≠ some '\n') :
    unifyNewlines ('\r' :: cs) = '\n' :: unifyNewlines cs := by
  rw [unifyNewlines]
  rintro ds rfl
  exact h rfl

theorem unifyNewlines_cons (h : c ≠ '\r') : unifyNewlines (c :: cs) = c :: unifyNewlines cs := by
  rw [unifyNewlines]
  · rintro ds rfl
    exact absurd rfl h
  · exact h

/-- Reading a text gives its lines back, whatever they end with. -/
theorem unifyNewlines_withLineEnds (e : LineEnd) (h : '\r' ∉ cs) :
    unifyNewlines (withLineEnds e cs) = cs := by
  induction cs with
  | nil => rfl
  | cons c cs ih =>
    rw [List.mem_cons, not_or] at h
    have ih := ih h.2
    by_cases hc : c = '\n'
    · subst hc
      rw [withLineEnds_newline]
      cases e with
      | feed => rw [LineEnd.chars, List.singleton_append, unifyNewlines_cons (by decide), ih]
      | carriage =>
        rw [LineEnd.chars, List.singleton_append,
          unifyNewlines_return (head?_withLineEnds_carriage cs), ih]
      | both =>
        rw [LineEnd.chars, List.cons_append, List.singleton_append, unifyNewlines, ih]
    · rw [withLineEnds_cons e hc, unifyNewlines_cons (Ne.symm h.1), ih]

/-! ## Reading on past line ends -/

theorem withLineEnds_both_newline (cs : List Char) :
    withLineEnds .both ('\n' :: cs) = '\r' :: '\n' :: withLineEnds .both cs :=
  withLineEnds_newline .both cs

/-- No text gets lost. -/
theorem withLineEnds_eq_nil_iff : withLineEnds .both cs = [] ↔ cs = [] := by
  cases cs with
  | nil => exact iff_of_true rfl rfl
  | cons c cs =>
    rw [withLineEnds]
    split <;> simp [LineEnd.chars]

/-- Line ends are blanks. -/
theorem dropWhile_withLineEnds (cs : List Char) :
    (withLineEnds .both cs).dropWhile isBlank = withLineEnds .both (cs.dropWhile isBlank) := by
  induction cs with
  | nil => rfl
  | cons c cs ih =>
    by_cases hc : c = '\n'
    · subst hc
      rw [withLineEnds_both_newline, List.dropWhile_cons, if_pos (by decide), List.dropWhile_cons,
        if_pos (by decide), List.dropWhile_cons, if_pos (by decide), ih]
    · rw [withLineEnds_cons _ hc, List.dropWhile_cons, List.dropWhile_cons]
      split
      · exact ih
      · rw [withLineEnds_cons _ hc]

/-- The carriage return of a line end is on the line. -/
theorem takeWhile_withLineEnds (cs : List Char) :
    (withLineEnds .both cs).takeWhile (· ≠ '\n') =
      cs.takeWhile (· ≠ '\n') ++ if '\n' ∈ cs then ['\r'] else [] := by
  induction cs with
  | nil => rfl
  | cons c cs ih =>
    by_cases hc : c = '\n'
    · subst hc
      rw [withLineEnds_both_newline, if_pos List.mem_cons_self]
      rfl
    · have hmem : '\n' ∈ c :: cs ↔ '\n' ∈ cs := by simp [Ne.symm hc]
      have hpos : decide (c ≠ '\n') = true := decide_eq_true hc
      rw [withLineEnds_cons _ hc, List.takeWhile_cons, List.takeWhile_cons, if_pos hpos,
        if_pos hpos, ih, List.cons_append]
      simp only [hmem]

/-- A literal text is on one line. -/
def IsOneLine (lit : List Char) : Prop := '\r' ∉ lit ∧ '\n' ∉ lit

instance (lit : List Char) : Decidable (IsOneLine lit) := inferInstanceAs (Decidable (_ ∧ _))

/-- What is on one line is dropped alike. -/
theorem dropLiteral?_withLineEnds {lit : List Char} (h : IsOneLine lit) (cs : List Char) :
    dropLiteral? lit (withLineEnds .both cs) = (dropLiteral? lit cs).map (withLineEnds .both) := by
  induction lit generalizing cs with
  | nil => rfl
  | cons l lit ih =>
    obtain ⟨hr, hn⟩ := h
    rw [List.mem_cons, not_or] at hr hn
    cases cs with
    | nil => rfl
    | cons c cs =>
      by_cases hc : c = '\n'
      · subst hc
        rw [withLineEnds_both_newline, dropLiteral?, dropLiteral?, if_neg (Ne.symm hr.1),
          if_neg (Ne.symm hn.1), Option.map_none]
      · rw [withLineEnds_cons _ hc, dropLiteral?, dropLiteral?]
        split
        · exact ih ⟨hr.2, hn.2⟩ cs
        · rfl

/-- A text starts alike with what is on one line. -/
theorem prefix_withLineEnds_iff {lit : List Char} (h : IsOneLine lit) :
    lit <+: withLineEnds .both cs ↔ lit <+: cs := by
  have hdrop := dropLiteral?_withLineEnds h cs
  constructor
  · rintro ⟨rest, hrest⟩
    rw [dropLiteral?_eq_some_iff.2 hrest.symm, eq_comm, Option.map_eq_some_iff] at hdrop
    obtain ⟨rest', hrest', -⟩ := hdrop
    exact ⟨rest', (dropLiteral?_eq_some_iff.1 hrest').symm⟩
  · rintro ⟨rest, hrest⟩
    rw [dropLiteral?_eq_some_iff.2 hrest.symm, Option.map_some] at hdrop
    exact ⟨_, (dropLiteral?_eq_some_iff.1 hdrop).symm⟩

end Text

open Text

/-! ## Blocks and headers -/

namespace Docblock

/-- A block has the same end. -/
theorem throughEnd?_withLineEnds (cs : List Char) :
    throughEnd? (withLineEnds .both cs) = (throughEnd? cs).map (withLineEnds .both) := by
  induction cs with
  | nil => rfl
  | cons c cs ih =>
    by_cases hc : closing <+: c :: cs
    · obtain ⟨post, hpost⟩ := hc
      obtain ⟨post', hpost'⟩ := (prefix_withLineEnds_iff (by decide)).2 ⟨post, hpost⟩
      rw [← hpost', ← hpost, throughEnd?_closing, throughEnd?_closing]
      rfl
    · have hc' := mt (prefix_withLineEnds_iff (by decide)).1 hc
      rw [throughEnd?_cons hc]
      by_cases hn : c = '\n'
      · subst hn
        rw [withLineEnds_both_newline] at hc' ⊢
        rw [throughEnd?_cons hc', throughEnd?_cons (by simp [closing]), ih, Option.map_map,
          Option.map_map, Option.map_map]
        congr 1
      · rw [withLineEnds_cons _ hn] at hc' ⊢
        rw [throughEnd?_cons hc', ih, Option.map_map, Option.map_map]
        congr 1
        funext b
        exact (withLineEnds_cons _ hn b).symm

theorem withLineEnds_opening (cs : List Char) :
    withLineEnds .both (opening ++ cs) = opening ++ withLineEnds .both cs := rfl

/-- A block is found where it was. -/
theorem find?_withLineEnds (t : List Char) :
    find? (withLineEnds .both t) = (find? t).map (withLineEnds .both) := by
  induction t with
  | nil => rfl
  | cons c t ih =>
    by_cases hc : opening <+: c :: t
    · obtain ⟨rest, hrest⟩ := hc
      rw [← hrest, withLineEnds_opening, find?_opening, find?_opening, throughEnd?_withLineEnds,
        Option.map_map, Option.map_map]
      rfl
    · have hc' := mt (prefix_withLineEnds_iff (by decide)).1 hc
      rw [find?_cons hc]
      by_cases hn : c = '\n'
      · subst hn
        rw [withLineEnds_both_newline] at hc' ⊢
        rw [find?_cons hc', find?_cons (by simp [opening]), ih]
      · rw [withLineEnds_cons _ hn] at hc' ⊢
        rw [find?_cons hc', ih]

/-- What a line end may leave at the end of a value. -/
def IsRemnant (tail : List Char) : Prop := tail = [] ∨ tail = ['\r']

/-- A value stays as it is, or gets a carriage return at its end. -/
def Extends (found found' : Option (List Char)) : Prop :=
  ∃ tail, IsRemnant tail ∧ found' = found.map (· ++ tail)

theorem Extends.none : Extends none none := ⟨[], .inl rfl, rfl⟩

/-- A value is the same, but for a carriage return at its end. -/
theorem value?_withLineEnds {cs : List Char} (hl : cs.getLast? = some '/') :
    Extends (value? cs) (value? (withLineEnds .both cs)) := by
  -- The last character is not blank, so the blanks end before it.
  have hne : cs.dropWhile isBlank ≠ [] := by
    obtain ⟨c, hc, -⟩ := startsInk_dropWhile hl (by decide)
    rintro hnil
    rw [hnil] at hc
    cases hc
  have hne' : (withLineEnds .both cs).dropWhile isBlank ≠ [] := by
    rwa [dropWhile_withLineEnds, Ne, withLineEnds_eq_nil_iff]
  refine ⟨if '\n' ∈ cs.dropWhile isBlank then ['\r'] else [], ?_, ?_⟩
  · split
    · exact .inr rfl
    · exact .inl rfl
  · rw [value?_of_dropWhile_ne_nil hne, value?_of_dropWhile_ne_nil hne', dropWhile_withLineEnds,
      takeWhile_withLineEnds, Option.map_some]

/-- The end of a text is that of what is left of it. -/
theorem getLast?_of_append {cs rest : List Char} {c : Char} (h : (cs ++ rest).getLast? = some c)
    (hc : c ∉ cs) : rest.getLast? = some c := by
  rw [List.getLast?_append] at h
  cases hr : rest.getLast? with
  | none =>
    rw [hr, Option.none_or] at h
    exact absurd (List.mem_of_getLast? h) hc
  | some d => rwa [hr, Option.some_or] at h

/-- So is what is found after an asterisk. -/
theorem afterAsterisk?_withLineEnds {cs : List Char} (hl : cs.getLast? = some '/') :
    Extends (afterAsterisk? cs) (afterAsterisk? (withLineEnds .both cs)) := by
  rw [afterAsterisk?, afterAsterisk?, dropWhile_withLineEnds,
    dropLiteral?_withLineEnds (by decide)]
  cases hrest : dropLiteral? headerName (cs.dropWhile isBlank) with
  | none => exact .none
  | some rest =>
    rw [dropLiteral?_eq_some_iff] at hrest
    rw [← List.takeWhile_append_dropWhile (p := isBlank) (l := cs), hrest] at hl
    refine value?_withLineEnds (getLast?_of_append (getLast?_of_append hl ?_) (by decide))
    exact fun hc => absurd (List.mem_takeWhile_imp hc) (by decide)

/-- So is what the search finds: a carriage return is blank, as a line feed is. -/
theorem headerFrom?_withLineEnds {atHead : Bool} {cs : List Char}
    (hl : cs ≠ [] → cs.getLast? = some '/') :
    Extends (headerFrom? atHead cs) (headerFrom? atHead (withLineEnds .both cs)) := by
  induction cs generalizing atHead with
  | nil => exact .none
  | cons c cs ih =>
    have hl' : cs ≠ [] → cs.getLast? = some '/' := fun hne => by
      rw [← hl (List.cons_ne_nil _ _), List.getLast?_cons_of_ne_nil hne]
    by_cases hn : c = '\n'
    · -- The carriage return is one more blank before the next line.
      subst hn
      rw [withLineEnds_both_newline, headerFrom?_cons, headerFrom?_cons, headerFrom?_cons,
        if_neg (by simp), if_neg (by simp), if_neg (by simp), Option.none_or, Option.none_or,
        Option.none_or]
      exact ih hl'
    · rw [withLineEnds_cons _ hn, headerFrom?_cons, headerFrom?_cons]
      split
      · next hc =>
        have hne : cs ≠ [] := by
          rintro rfl
          rw [hc.1] at hl
          exact absurd (hl (List.cons_ne_nil _ _)) (by decide)
        obtain ⟨tail, htail, heq⟩ := afterAsterisk?_withLineEnds (hl' hne)
        rw [heq]
        cases afterAsterisk? cs with
        | none => exact ih hl'
        | some v => exact ⟨tail, htail, rfl⟩
      · exact ih hl'

/-- A header is found where it was; at the end of its value there may be a carriage return. -/
theorem header?_withLineEnds {d : List Char} (hl : d.getLast? = some '/') :
    Extends (header? d) (header? (withLineEnds .both d)) :=
  headerFrom?_withLineEnds fun _ => hl

/-! ## Categories -/

/-- What a line end leaves at the end of a value is trimmed off the last category. -/
theorem categories_append {tail : List Char} (h : IsRemnant tail) (v : List Char) :
    categories (v ++ tail) = categories v := by
  rcases h with rfl | rfl
  · rw [List.append_nil]
  · obtain ⟨parts, part, hv, hv'⟩ := splitOn_append_of_not_mem (by decide : ',' ∉ ['\r']) v
    rw [categories, categories, hv, hv', List.map_append, List.map_append, List.map_singleton,
      List.map_singleton, trim_append_singleton (by decide)]

end Docblock

/-! ## Checks -/

namespace Rule

open Docblock

variable {rule : Rule} {t : List Char}

/-- A verdict stays as it is, or quotes a value with a carriage return at its end. -/
def Quotes (tail : List Char) (found found' : Verdict) : Prop :=
  found' = found ∨ ∃ v, found = .lacking v ∧ found' = .lacking (v ++ String.ofList tail)

/-- A remnant at the end of a value changes its verdict by no more than the value that the verdict
    tells. -/
theorem judge_append {tail : List Char} (h : IsRemnant tail) (v : List Char) :
    Quotes tail (rule.judge v) (rule.judge (v ++ tail)) := by
  have hcategories := categories_append h v
  by_cases hmet : rule.MetBy ((categories v).map String.ofList)
  · left
    simp only [judge, hcategories]
    rcases hmet with hb | hl
    · rw [if_pos hb, if_pos hb]
    · rw [if_pos (lists_iff.2 hl), if_pos (lists_iff.2 hl)]
  · refine .inr ⟨String.ofList v, judge_of_not_metBy hmet, ?_⟩
    rw [← hcategories] at hmet
    rw [judge_of_not_metBy hmet, String.ofList_append]

/-- The verdicts on the two texts differ by no more than a remnant. -/
theorem verdict_withLineEnds (rule : Rule) (t : List Char) :
    ∃ tail, IsRemnant tail ∧
      Quotes tail (rule.verdict t) (rule.verdict (withLineEnds .both t)) := by
  cases hd : find? t with
  | none =>
    refine ⟨[], .inl rfl, .inl ?_⟩
    rw [verdict, verdict, find?_withLineEnds, hd]
    rfl
  | some d =>
    have hd' : find? (withLineEnds .both t) = some (withLineEnds .both d) := by
      rw [find?_withLineEnds, hd, Option.map_some]
    obtain ⟨tail, htail, hheader⟩ := header?_withLineEnds (getLast?_of_find? hd)
    refine ⟨tail, htail, ?_⟩
    cases hv : header? d with
    | none =>
      rw [hv] at hheader
      rw [verdict_of_no_header hd hv, verdict_of_no_header hd' hheader]
      exact .inl rfl
    | some v =>
      rw [hv] at hheader
      rw [verdict_of_header hd hv, verdict_of_header hd' hheader]
      exact judge_append htail v

/-- The results of two checks are the same, but for a carriage return at the end of a message. -/
structure SameBut (tail : List Char) (result result' : Result) : Prop where
  /-- The outcomes are the same. -/
  outcome : result'.outcome = result.outcome
  /-- The violations are the same, up to the message. -/
  violation : result'.violation =
    result.violation.map fun v => { v with message := v.message ++ String.ofList tail }
  /-- The paths are the same. -/
  path : result'.path = result.path

theorem SameBut.stamp {tail : List Char} {result result' : Result} (h : SameBut tail result result')
    (path : String) : SameBut tail (result.stamp path) (result'.stamp path) := by
  refine ⟨h.outcome, ?_, rfl⟩
  change result'.violation.map _ = (result.violation.map _).map _
  rw [h.violation, Option.map_map, Option.map_map]
  rfl

theorem violation?_lacking (v : String) :
    rule.violation? (.lacking v) = some
      { rule := name
        code := "MissingBaseCategory"
        message := (Verdict.lacking v).message rule.base } := rfl

theorem message_lacking_append (v s : String) :
    (Verdict.lacking (v ++ s)).message rule.base = (Verdict.lacking v).message rule.base ++ s :=
  String.append_assoc.symm

/-- Verdicts that differ by a remnant give results that do. -/
theorem sameBut_of_quotes {tail t' : List Char} (htail : IsRemnant tail)
    (h : Quotes tail (rule.verdict t) (rule.verdict t')) :
    ∃ tail, IsRemnant tail ∧ SameBut tail (rule.check t) (rule.check t') := by
  rcases h with heq | ⟨v, hv, hv'⟩
  · refine ⟨[], .inl rfl, ?_, ?_, rfl⟩
    · rw [outcome_check, outcome_check, heq]
    · rw [violation_check, violation_check, heq]
      simp
  · refine ⟨tail, htail, ?_, ?_, rfl⟩
    · rw [outcome_check, outcome_check, hv, hv']
      rfl
    · rw [violation_check, violation_check, hv, hv', violation?_lacking, violation?_lacking,
        message_lacking_append, Option.map_some]

/-- The categories that the header of a text lists. -/
def listed (t : List Char) : Option (List (List Char)) := ((find? t).bind header?).map categories

/-- The same categories are listed. -/
theorem listed_withLineEnds (t : List Char) : listed (withLineEnds .both t) = listed t := by
  rw [listed, listed, find?_withLineEnds]
  cases hd : find? t with
  | none => rfl
  | some d =>
    obtain ⟨tail, htail, hheader⟩ := header?_withLineEnds (getLast?_of_find? hd)
    rw [Option.map_some, Option.bind_some, Option.bind_some, hheader, Option.map_map]
    congr 1
    funext v
    exact categories_append htail v

/-- A file has the result of its text, whatever its lines end with. A text that is checked with
    carriage returns before its line feeds has the same outcome and lists the same categories, and
    only its message may differ, by a carriage return at the end. -/
theorem check_withLineEnds (rule : Rule) (t : List Char) (ht : '\r' ∉ t) :
    (∀ w p e, w.lookup p = .found (.file (encodeUtf8 (withLineEnds e t))) →
      Project.checkFile w rule p = .ok (rule.checkAt (some p.text) t)) ∧
    listed (withLineEnds .both t) = listed t ∧
    ∀ path, ∃ tail, IsRemnant tail ∧
      SameBut tail (rule.checkAt path t) (rule.checkAt path (withLineEnds .both t)) := by
  refine ⟨fun w p e hfile => ?_, listed_withLineEnds t, fun path => ?_⟩
  · have hread : Project.readText (encodeUtf8 (withLineEnds e t)) = .ok t := by
      rw [Project.readText, decodeUtf8_encodeUtf8]
      exact congrArg Except.ok (unifyNewlines_withLineEnds e ht)
    rw [Project.checkFile, Project.patternText]
    simp only [hfile, hread]
    rfl
  · obtain ⟨tail, htail, hquotes⟩ := verdict_withLineEnds rule t
    obtain ⟨tail, htail, hsame⟩ := sameBut_of_quotes htail hquotes
    refine ⟨tail, htail, ?_⟩
    cases path with
    | none => exact hsame
    | some path => exact hsame.stamp path

/-- A file with old line ends. -/
def sampleFile (t : List Char) : Workspace where
  files := .directory [("hero.php", .file (encodeUtf8 (withLineEnds .carriage t)))]
  current := []

/-- A file with carriage returns for line ends, and the three statements about it. -/
theorem check_withLineEnds_sample :
    let rule : Rule := ⟨.plain "news"⟩
    let t := "<?php\n/**\n *\n Categories:\n\n banner, hero\n */".toList
    '\r' ∉ t ∧ (sampleFile t).lookup ⟨0, ["hero.php"]⟩ =
        .found (.file (encodeUtf8 (withLineEnds .carriage t))) ∧
      Project.checkFile (sampleFile t) rule ⟨0, ["hero.php"]⟩ =
        .ok (rule.checkAt (some (Path.mk 0 ["hero.php"]).text) t) ∧
      listed (withLineEnds .both t) = listed t ∧
      ∀ path, ∃ tail, IsRemnant tail ∧
        SameBut tail (rule.checkAt path t) (rule.checkAt path (withLineEnds .both t)) := by
  intro rule t
  have ht : '\r' ∉ t := by decide +kernel
  have hfile : (sampleFile t).lookup ⟨0, ["hero.php"]⟩ =
      .found (.file (encodeUtf8 (withLineEnds .carriage t))) := by
    rfl
  obtain ⟨hcheck, hlisted, hsame⟩ := check_withLineEnds rule t ht
  exact ⟨ht, hfile, hcheck _ _ _ hfile, hlisted, hsame⟩

end Rule

end CategoryLint
