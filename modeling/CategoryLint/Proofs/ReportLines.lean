import CategoryLint.Project.Check
import CategoryLint.Proofs.Candidate
import CategoryLint.Proofs.JsonReport
import CategoryLint.Proofs.Step
import CategoryLint.Proofs.Verdict
import Mathlib.Data.List.Forall2

/-!
# Reports line by line

Of the results that checks make (`Result.Checked`), the reports have one record a line: nothing that
they quote has a line feed in it. For the required category and the path this is assumed, and the
value of a header is on one line whatever the text is (`isLine_message`). So the lines of a report
are those that it was made of (`lines_intercalate`), and the three reports can be compared: they
count the same results and the same failures, and name the same files in the same order
(`reports_agree`).

Checks make few different results (`Result.Checked.violation_cases`); all else about the lines
follows from that.
-/

namespace CategoryLint

/-! ## Lines -/

namespace Text

/-- A text without a line feed. -/
def IsLine (s : String) : Prop := '\n' ∉ s.toList

instance (s : String) : Decidable (IsLine s) := inferInstanceAs (Decidable ('\n' ∉ s.toList))

@[simp]
theorem isLine_append {s t : String} : IsLine (s ++ t) ↔ IsLine s ∧ IsLine t := by
  rw [IsLine, String.toList_append, List.mem_append, not_or]
  rfl

/-- The lines of a text. -/
def lines (s : String) : List String := (splitOn '\n' s.toList).map String.ofList

/-- Lines that are put together are those of the text. -/
theorem lines_intercalate {ls : List String} (hne : ls ≠ []) (h : ∀ l ∈ ls, IsLine l) :
    lines ("\n".intercalate ls) = ls := by
  rw [lines, String.toList_intercalate, show "\n".toList = ['\n'] from rfl, splitOn_intercalate]
  · simp
  · simpa using hne
  · rw [List.forall_mem_map]
    exact h

end Text

open Text

/-- The names in a path are parts of the text that writes it. -/
theorem Path.isLine_text_ofString {s : String} (h : IsLine s) : IsLine (ofString s).text := by
  have hpart : ∀ n ∈ (ofString s).names, IsLine n := by
    intro n hn
    obtain ⟨part, hpart, rfl⟩ := List.mem_map.1 (List.mem_filter.1 hn).1
    obtain ⟨-, before, after, hs, -, -⟩ := mem_splitOn_iff.1 hpart
    rw [IsLine, hs] at h
    rw [IsLine, String.toList_ofList]
    exact fun hc => h (List.mem_append_right _ (List.mem_append_left _ hc))
  rw [text]
  split
  · decide
  · refine isLine_append.2 ⟨?_, ?_⟩
    · rw [IsLine, String.toList_ofList]
      exact fun hc => absurd (List.eq_of_mem_replicate hc) (by decide)
    · rw [IsLine, String.toList_intercalate]
      refine intercalate_of_forall (P := ('\n' ∉ ·)) (by simp) (fun p q hp hq => ?_) ?_
      · simp [hp, hq]
      · rw [List.forall_mem_map]
        exact hpart

/-! ## Texts with surrogates -/

namespace CodePoint

/-- Two surrogates make a character outside of the first plane, and so no line feed. -/
theorem le_toNat_of_pair? {p q : CodePoint} {c : Char} (h : pair? p q = some c) :
    0x10000 ≤ c.toNat := by
  match p, q with
  | .surrogate a, .surrogate b =>
    rw [pair?] at h
    split at h
    · next hab =>
      have hb := b.isLt
      rw [Option.some.injEq] at h
      have hvalid : (0x10000 + a.val * 1024 + (b.val - 1024)).isValidChar :=
        .inr ⟨by omega, by omega⟩
      rw [← h, Char.ofNat, dif_pos hvalid]
      change 0x10000 ≤ 0x10000 + a.val * 1024 + (b.val - 1024)
      omega
    · cases h
  | .char _, _ => cases h
  | .surrogate _, .char _ => cases h

/-- Two halves never make a character that can be written without them. -/
theorem mem_of_mem_joinPairs {ps : List CodePoint} {c : Char} (hc : c.toNat < 0x10000)
    (h : .char c ∈ joinPairs ps) : .char c ∈ ps := by
  fun_induction joinPairs ps with
  | case1 => exact h
  | case2 p => exact h
  | case3 p q ps d hpair ih =>
    rcases List.mem_cons.1 h with heq | h
    · cases heq
      exact absurd (le_toNat_of_pair? hpair) (by omega)
    · exact List.mem_cons_of_mem _ (List.mem_cons_of_mem _ (ih h))
  | case4 p q ps hpair ih =>
    rcases List.mem_cons.1 h with rfl | h
    · exact List.mem_cons_self
    · exact List.mem_cons_of_mem _ (ih h)

end CodePoint

/-- A text without a line feed. -/
def TextValue.IsLine (s : TextValue) : Prop := .char '\n' ∉ s.points

instance (s : TextValue) : Decidable s.IsLine :=
  inferInstanceAs (Decidable (.char '\n' ∉ s.points))

/-- A requirement on one line is shown on one line. -/
theorem TextValue.IsLine.shown {s : TextValue} (h : s.IsLine) : Text.IsLine s.shown := by
  cases s with
  | plain s => exact fun hc => h (List.mem_map_of_mem hc)
  | broken ps =>
    rw [TextValue.shown, Text.IsLine, String.toList_ofList]
    intro hc
    obtain ⟨p, hp, heq⟩ := List.mem_map.1 hc
    cases p with
    | char c =>
      cases heq
      exact h (CodePoint.mem_of_mem_joinPairs (by decide) hp)
    | surrogate half => exact absurd (show '\uFFFD' = '\n' from heq) (by decide)

/-! ## Results of checks -/

namespace Rule

variable {rule : Rule} {t : List Char}

/-- The value that a verdict tells is that of the header. -/
theorem exists_of_verdict_eq_lacking {value : String} (h : rule.verdict t = .lacking value) :
    ∃ d v, Docblock.find? t = some d ∧ Docblock.header? d = some v ∧ value = String.ofList v := by
  rcases hd : Docblock.find? t with _ | d
  · rw [verdict, hd] at h
    cases h
  · rcases hv : Docblock.header? d with _ | v
    · rw [verdict_of_no_header hd hv] at h
      cases h
    · rw [verdict_of_header hd hv, judge] at h
      split at h
      · cases h
      · split at h
        · cases h
        · cases h
          exact ⟨d, v, rfl, hv, rfl⟩

/-- What a check says is one line, whatever the text is. -/
theorem isLine_message (h : rule.base.IsLine) (t : List Char) :
    IsLine ((rule.verdict t).message rule.base) := by
  cases hv : rule.verdict t with
  | noDocblock => exact (by decide +kernel : IsLine (Verdict.message (.plain "") .noDocblock))
  | noHeader => exact (by decide +kernel : IsLine (Verdict.message (.plain "") .noHeader))
  | accepted _ => exact (by decide : IsLine "")
  | found _ => exact (by decide : IsLine "")
  | lacking value =>
    obtain ⟨d, v, -, hheader, rfl⟩ := exists_of_verdict_eq_lacking hv
    obtain ⟨m, -, rfl⟩ := Docblock.exists_isBest hheader
    have hvalue : IsLine (String.ofList m.value) := by
      rw [IsLine, String.toList_ofList]
      exact m.isValue.newline_not_mem
    exact isLine_append.2 ⟨isLine_append.2 ⟨isLine_append.2 ⟨by decide +kernel, h.shown⟩,
      by decide⟩, hvalue⟩

theorem path_checkAt (path : Option String) : (rule.checkAt path t).path = path := by
  cases path <;> rfl

/-- A check has the violation of its outcome, at the path that was given. -/
theorem violation_checkAt (path : Option String) :
    (rule.checkAt path t).violation = (rule.checkAt path t).outcome.code?.map fun code =>
      { rule := name, code, message := (rule.verdict t).message rule.base, path } := by
  cases path with
  | none => rfl
  | some path => exact Option.map_map _ _ _

end Rule

namespace Result

/-- A check made the result, of a text or of a file, and neither the required category nor the path
    has a line feed. -/
inductive Checked : Result → Prop where
  /-- A text was checked, at a path or at none. -/
  | text {rule : Rule} {path : Option String} (t : List Char) :
      rule.base.IsLine → (∀ p ∈ path, IsLine p) → Checked (rule.checkAt path t)
  /-- A file was checked. -/
  | file {w : Workspace} {rule : Rule} {path : String} {r : Result} :
      rule.base.IsLine → IsLine path → Project.checkFile w rule (.ofString path) = .ok r →
      Checked r

/-- The parts of a result fit together. -/
structure Consistent (r : Result) : Prop where
  /-- There is a violation exactly if the check failed. -/
  violation : r.violation = none ↔ r.outcome = .pass
  /-- The violation has the code of the outcome. -/
  code : ∀ v, r.violation = some v → r.outcome.code? = some v.code
  /-- The violation has the path of the result. -/
  path : ∀ v, r.violation = some v → v.path = r.path

variable {r : Result}

/-- A checked result is that of some text, at a path on one line or at none. -/
theorem Checked.exists_checkAt (h : r.Checked) : ∃ (rule : Rule) (path : Option String)
    (t : List Char), rule.base.IsLine ∧ (∀ p ∈ path, IsLine p) ∧ r = rule.checkAt path t := by
  cases h with
  | text t hbase hpath => exact ⟨_, _, t, hbase, hpath, rfl⟩
  | @file w rule path r hbase hpath hr =>
    obtain ⟨t, -, rfl⟩ := map_eq_ok_iff.1 hr
    refine ⟨rule, some _, t, hbase, fun p hp => ?_, rfl⟩
    cases hp
    exact Path.isLine_text_ofString hpath

/-- A check succeeds without a violation, or fails with one at the start of the file. -/
theorem Checked.violation_cases (h : r.Checked) :
    (r.outcome = .pass ∧ r.violation = none) ∨
      ∃ code message, r.outcome ≠ .pass ∧ r.outcome.code? = some code ∧ IsLine code ∧
        IsLine message ∧
        r.violation = some { rule := Rule.name, code, message, path := r.path } := by
  obtain ⟨rule, path, t, hbase, -, rfl⟩ := h.exists_checkAt
  have hviolation := rule.violation_checkAt (t := t) path
  have hmessage := Rule.isLine_message hbase t
  rw [Rule.path_checkAt]
  cases houtcome : (rule.checkAt path t).outcome with
  | pass => exact .inl ⟨rfl, by rw [hviolation, houtcome]; rfl⟩
  | missingDocblock =>
    exact .inr ⟨_, _, by decide, rfl, by decide, hmessage, by rw [hviolation, houtcome]; rfl⟩
  | missingCategories =>
    exact .inr ⟨_, _, by decide, rfl, by decide, hmessage, by rw [hviolation, houtcome]; rfl⟩
  | missingBaseCategory =>
    exact .inr ⟨_, _, by decide, rfl, by decide, hmessage, by rw [hviolation, houtcome]; rfl⟩

/-- A checked result has a violation exactly if it fails. -/
theorem Checked.consistent (h : r.Checked) : r.Consistent := by
  rcases h.violation_cases with ⟨houtcome, hv⟩ | ⟨code, message, houtcome, hcode, -, -, hv⟩
  · exact ⟨iff_of_true hv houtcome, by simp [hv], by simp [hv]⟩
  · exact ⟨iff_of_false (by simp [hv]) houtcome, by simp [hv, hcode], by simp [hv]⟩

/-- The place of a checked result is on one line. -/
theorem Checked.isLine_place (h : r.Checked) : IsLine r.place := by
  obtain ⟨rule, path, t, -, hpath, rfl⟩ := h.exists_checkAt
  rw [place, Rule.path_checkAt]
  split
  · decide
  · decide
  · exact hpath _ rfl

/-- How a report names a file: by its path, if there is one that is not empty. -/
inductive ShownAs : (path : Option String) → (name : String) → Prop where
  /-- There is no path. -/
  | missing : ShownAs none "<text>"
  /-- The path is empty. -/
  | empty : ShownAs (some "") "<text>"
  /-- There is a path. -/
  | path {path : String} : path ≠ "" → ShownAs (some path) path

theorem shownAs_place (r : Result) : ShownAs r.path r.place := by
  rw [place]
  split
  · next h => rw [h]; exact .missing
  · next h => rw [h]; exact .empty
  · next p hne h =>
    rw [h]
    exact .path hne

end Result

/-! ## Reports -/

namespace Report

open Json

variable {r : Result} {rs : List Result}

/-- The results of the checks that failed. -/
def failed (rs : List Result) : List Result := rs.filter (·.outcome ≠ .pass)

theorem failed_cons_of_pass (h : r.outcome = .pass) : failed (r :: rs) = failed rs :=
  List.filter_cons_of_neg (by simpa using h)

theorem failed_cons_of_ne (h : r.outcome ≠ .pass) : failed (r :: rs) = r :: failed rs :=
  List.filter_cons_of_pos (by simpa using h)

theorem length_failed_le (rs : List Result) : (failed rs).length ≤ rs.length :=
  List.length_filter_le _ _

/-- The results that fail are counted. -/
theorem failures_eq (rs : List Result) : failures rs = (failed rs).length := by
  rw [failures, failed]
  congr 1
  refine List.filter_congr fun r _ => ?_
  rw [← Option.not_isNone, r.isNone_violation, Outcome.passed]
  cases r.outcome <;> rfl

/-- A line of the short report, for a result. -/
def IsShortLine (r : Result) (line : String) : Prop :=
  ∃ name code, Result.ShownAs r.path name ∧ r.outcome.code? = some code ∧
    (name ++ ":1:1: error [" ++ code ++ "] ").toList <+: line.toList

/-- A line of the full report that names a file. -/
def IsFileLine (line : String) : Prop := "FILE: ".toList <+: line.toList

instance : DecidablePred IsFileLine := fun line =>
  inferInstanceAs (Decidable ("FILE: ".toList <+: line.toList))

/-! ### The short report -/

/-- A checked result has one line in the short report if it fails, and none if it passes. -/
theorem shortLine?_of_checked (h : r.Checked) :
    (r.outcome = .pass ∧ shortLine? r = none) ∨
      r.outcome ≠ .pass ∧ ∃ line, shortLine? r = some line ∧ IsLine line ∧ IsShortLine r line := by
  rcases h.violation_cases with ⟨houtcome, hv⟩ | ⟨code, message, houtcome, hcode, hc, hm, hv⟩
  · exact .inl ⟨houtcome, by rw [shortLine?, hv]; rfl⟩
  · refine .inr ⟨houtcome, r.place ++ ":1:1: error [" ++ code ++ "] " ++ message, ?_, ?_, ?_⟩
    · rw [shortLine?, hv, Option.map_some, Option.some_inj]
      simp only [String.append_assoc]
      rfl
    · simp only [isLine_append]
      exact ⟨⟨⟨⟨h.isLine_place, by decide⟩, hc⟩, by decide⟩, hm⟩
    · refine ⟨r.place, code, r.shownAs_place, hcode, ?_⟩
      rw [String.toList_append (t := message)]
      exact List.prefix_append _ _

/-- The lines of the short report are those of the failures. -/
theorem forall₂_shortLine (h : ∀ r ∈ rs, r.Checked) :
    List.Forall₂ (fun r line => IsLine line ∧ IsShortLine r line) (failed rs)
      (rs.filterMap shortLine?) := by
  induction rs with
  | nil => exact .nil
  | cons r rs ih =>
    rw [List.forall_mem_cons] at h
    rcases shortLine?_of_checked h.1 with ⟨hpass, hnone⟩ | ⟨hfail, line, hsome, hline⟩
    · rw [failed_cons_of_pass hpass, List.filterMap_cons_none hnone]
      exact ih h.2
    · rw [failed_cons_of_ne hfail, List.filterMap_cons_some hsome]
      exact .cons hline (ih h.2)

/-- The short report has one line for each failure, in order. -/
theorem lines_short (h : ∀ r ∈ rs, r.Checked) (hne : failed rs ≠ []) :
    List.Forall₂ IsShortLine (failed rs) (lines (short rs)) := by
  have hlines := forall₂_shortLine h
  have hcons : rs.filterMap shortLine? ≠ [] := by
    rintro hnil
    rw [hnil] at hlines
    exact hne (List.forall₂_nil_right_iff.1 hlines)
  rw [short]
  split
  · next hnil => exact absurd hnil hcons
  · rw [lines_intercalate hcons]
    · exact hlines.imp fun _ _ h => h.2
    · intro line hline
      obtain ⟨i, hi, rfl⟩ := List.mem_iff_getElem.1 hline
      exact ((List.forall₂_iff_get.1 hlines).2 i (by rw [hlines.length_eq]; exact hi) hi).1

/-- A line for a failure has a colon, and the report without failures has none. -/
theorem short_eq_iff (h : ∀ r ∈ rs, r.Checked) :
    short rs = "No pattern category errors found." ↔ failed rs = [] := by
  constructor
  · intro hshort
    by_contra hne
    have hlines := lines_short h hne
    rw [hshort] at hlines
    have heq : lines "No pattern category errors found." =
        ["No pattern category errors found."] := by
      decide +kernel
    rw [heq] at hlines
    rcases hf : failed rs with _ | ⟨r, fs⟩
    · exact hne hf
    · rw [hf] at hlines
      obtain ⟨⟨name, code, -, -, hprefix⟩, -⟩ := List.forall₂_cons.1 hlines
      have hcolon : ':' ∈ "No pattern category errors found.".toList :=
        hprefix.subset (by simp)
      exact absurd hcolon (by decide)
  · intro hnil
    have hlines := forall₂_shortLine h
    rw [hnil, List.forall₂_nil_left_iff] at hlines
    rw [short, hlines]

/-! ### The full report -/

/-- A checked result has three or four lines in the full report, and one of them names its file. -/
theorem fullLines_of_checked (h : r.Checked) :
    (∀ line ∈ fullLines r, IsLine line) ∧
      (fullLines r).length = (if r.outcome = .pass then 3 else 4) ∧
      (fullLines r).filter IsFileLine = ["FILE: " ++ r.place] := by
  have hfile : IsFileLine ("FILE: " ++ r.place) := by
    rw [IsFileLine, String.toList_append]
    exact List.prefix_append _ _
  have hline : IsLine ("FILE: " ++ r.place) := isLine_append.2 ⟨by decide, h.isLine_place⟩
  rcases h.violation_cases with ⟨houtcome, hv⟩ | ⟨code, message, houtcome, -, hc, hm, hv⟩
  · have hlines : fullLines r = ["FILE: " ++ r.place, "  OK", ""] := by rw [fullLines, hv]; rfl
    rw [hlines, if_pos houtcome]
    refine ⟨?_, rfl, ?_⟩
    · simp only [List.forall_mem_cons]
      exact ⟨hline, by decide, by decide, nofun⟩
    · rw [List.filter_cons_of_pos (by simpa using hfile),
        (by decide : ["  OK", ""].filter IsFileLine = [])]
  · have hlines : fullLines r = ["FILE: " ++ r.place, "  1:1 ERROR " ++ message,
        "  (" ++ (Rule.name ++ "." ++ code) ++ ")", ""] := by
      rw [fullLines, hv]
      have hupper : upper "error" = "ERROR" := by decide +kernel
      simp only [hupper]
      rfl
    rw [hlines, if_neg houtcome]
    refine ⟨?_, rfl, ?_⟩
    · simp only [List.forall_mem_cons, isLine_append]
      exact ⟨isLine_append.1 hline, ⟨by decide, hm⟩,
        ⟨⟨by decide, ⟨by decide, by decide⟩, hc⟩, by decide⟩, by decide, nofun⟩
    · have hmessage : ¬IsFileLine ("  1:1 ERROR " ++ message) := by simp [IsFileLine]
      have hsource : ¬IsFileLine ("  (" ++ (Rule.name ++ "." ++ code) ++ ")") := by
        simp [IsFileLine]
      rw [List.filter_cons_of_pos (by simpa using hfile), List.filter_cons_of_neg (by simpa),
        List.filter_cons_of_neg (by simpa), (by decide : [""].filter IsFileLine = [])]

theorem isLine_toString (n : Nat) : IsLine (toString n) := by
  rw [IsLine]
  intro hc
  have hdigit := isDigit_of_mem_toDigits (n := n) (by simpa using hc)
  exact absurd hdigit (by decide)

/-- The lines of the full report are those that it was made of. -/
theorem lines_full (h : ∀ r ∈ rs, r.Checked) :
    lines (full rs) = ("Checked " ++ toString rs.length ++ " file(s), "
      ++ toString (failed rs).length ++ " error(s)") :: "" :: rs.flatMap fullLines := by
  rw [full, failures_eq, lines_intercalate (List.cons_ne_nil _ _)]
  rw [List.forall_mem_cons, List.forall_mem_cons]
  refine ⟨?_, by decide, fun line hline => ?_⟩
  · simp only [isLine_append]
    exact ⟨⟨⟨⟨by decide, isLine_toString _⟩, by decide⟩, isLine_toString _⟩, by decide⟩
  · obtain ⟨r, hr, hline⟩ := List.mem_flatMap.1 hline
    exact (fullLines_of_checked (h r hr)).1 line hline

/-- A success takes three lines, and a failure four. -/
theorem length_flatMap_fullLines (h : ∀ r ∈ rs, r.Checked) :
    (rs.flatMap fullLines).length =
      3 * (rs.length - (failed rs).length) + 4 * (failed rs).length := by
  induction rs with
  | nil => rfl
  | cons r rs ih =>
    rw [List.forall_mem_cons] at h
    have hle := length_failed_le rs
    rw [List.flatMap_cons, List.length_append, ih h.2, (fullLines_of_checked h.1).2.1,
      List.length_cons]
    by_cases hpass : r.outcome = .pass
    · rw [if_pos hpass, failed_cons_of_pass hpass]
      omega
    · rw [if_neg hpass, failed_cons_of_ne hpass, List.length_cons]
      omega

/-- The lines of the full report that name files name those of the results, in order. -/
theorem filter_lines_full (h : ∀ r ∈ rs, r.Checked) :
    (lines (full rs)).filter IsFileLine = rs.map fun r => "FILE: " ++ r.place := by
  have hhead : ¬IsFileLine ("Checked " ++ toString rs.length ++ " file(s), "
      ++ toString (failed rs).length ++ " error(s)") := by simp [IsFileLine]
  rw [lines_full h, List.filter_cons_of_neg (by simpa using hhead),
    List.filter_cons_of_neg (by decide), List.filter_flatMap]
  clear hhead
  induction rs with
  | nil => rfl
  | cons r rs ih =>
    rw [List.forall_mem_cons] at h
    rw [List.flatMap_cons, (fullLines_of_checked h.1).2.2, ih h.2]
    rfl

/-! ### The JSON report -/

/-- The JSON report starts with the numbers of results and failures. -/
theorem json_prefix (rs : List Result) :
    ("\x7b\n  \"checked\": " ++ toString rs.length ++ ",\n  \"errors\": "
      ++ toString (failed rs).length ++ ",\n  \"results\": ").toList <+: (json rs).toList := by
  rw [json, String.toList_ofList, write, payload, failures_eq]
  refine ⟨writeValue 1 (.list (rs.map Result.toValue)) ++ (newline 0 ++ ['\x7d']), ?_⟩
  have hchecked : writeString "checked" = "\"checked\"".toList := by decide +kernel
  have herrors : writeString "errors" = "\"errors\"".toList := by decide +kernel
  have hresults : writeString "results" = "\"results\"".toList := by decide +kernel
  have hint : ∀ n : Nat, writeScalar (.int n) = Nat.toDigits 10 n := toList_toString_natCast
  simp [writeValue, writeFields, writeName, writeText, hint, hchecked, herrors, hresults, newline]

/-- The machine-readable report counts the results and the failures. -/
theorem exists_asJson [Limits] (hcount : rs.length < 10 ^ Integer.maxDigits)
    (h : ∀ r ∈ rs, r.Checked) :
    ∃ es : Entries, Coercion.asJson (render .json rs) = .ok (some (.mapping es)) ∧
      es.get? (.str "checked") = some (.int rs.length) ∧
      es.get? (.str "errors") = some (.int (failed rs).length) := by
  have hplace : ∀ r ∈ rs, ∀ v ∈ r.violation, v.line.natAbs < 10 ^ Integer.maxDigits ∧
      v.column.natAbs < 10 ^ Integer.maxDigits := by
    -- The only line and column that a check tells are the first ones.
    intro r hr v hv
    rcases (h r hr).violation_cases with ⟨-, hnone⟩ | ⟨code, message, -, -, -, -, hsome⟩
    · rw [hnone] at hv
      cases hv
    · rw [hsome] at hv
      cases hv
      exact ⟨Nat.one_lt_pow (by decide) (by decide), Nat.one_lt_pow (by decide) (by decide)⟩
  refine ⟨_, asJson_write (plain_payload_json hcount hplace), ?_, ?_⟩
  · rfl
  · rw [← failures_eq]
    rfl

/-! ### All three -/

/-- The three reports on results tell the same, one record a line. -/
structure Agree [Limits] (rs : List Result) : Prop where
  /-- The parts of the results fit together. -/
  consistent : ∀ r ∈ rs, r.Consistent
  /-- The short report says so if no check failed. -/
  short_iff : render .short rs = "No pattern category errors found." ↔ failed rs = []
  /-- Otherwise it has a line for each failure. -/
  short_lines : failed rs ≠ [] →
    List.Forall₂ IsShortLine (failed rs) (lines (render .short rs))
  /-- The full report has two lines, three more for each success and four for each failure. -/
  full_length : (lines (render .full rs)).length =
    2 + 3 * (rs.length - (failed rs).length) + 4 * (failed rs).length
  /-- Its first line has the numbers of results and failures. -/
  full_first : (lines (render .full rs)).head? =
    some ("Checked " ++ toString rs.length ++ " file(s), " ++ toString (failed rs).length
      ++ " error(s)")
  /-- Its lines for files name those of the results. -/
  full_files : List.Forall₂ (fun r line => ∃ name, Result.ShownAs r.path name ∧
    line = "FILE: " ++ name) rs ((lines (render .full rs)).filter IsFileLine)
  /-- The JSON report starts with the numbers of results and failures. -/
  json_text : ("\x7b\n  \"checked\": " ++ toString rs.length ++ ",\n  \"errors\": "
    ++ toString (failed rs).length ++ ",\n  \"results\": ").toList <+: (render .json rs).toList
  /-- They are read from it as integers. -/
  json_value : rs.length < 10 ^ Integer.maxDigits →
    ∃ es : Entries, Coercion.asJson (render .json rs) = .ok (some (.mapping es)) ∧
      es.get? (.str "checked") = some (.int rs.length) ∧
      es.get? (.str "errors") = some (.int (failed rs).length)

/-- The reports on any number of results that checks have made agree. -/
theorem reports_agree [Limits] (h : ∀ r ∈ rs, r.Checked) : Agree rs where
  consistent r hr := (h r hr).consistent
  short_iff := short_eq_iff h
  short_lines := lines_short h
  full_length := by
    rw [render, lines_full h, List.length_cons, List.length_cons, length_flatMap_fullLines h]
    omega
  full_first := by
    rw [render, lines_full h]
    rfl
  full_files := by
    rw [render, filter_lines_full h, List.forall₂_map_right_iff, List.forall₂_same]
    exact fun r _ => ⟨r.place, r.shownAs_place, rfl⟩
  json_text := json_prefix rs
  json_value hcount := exists_asJson hcount h

/-- A project with a pattern file whose header runs over several lines. -/
def oneFile : Workspace where
  files := .directory [("patterns", .directory [("hero.php",
    .file "/**\n *\n Categories:\n\n banner, featured\n */".toUTF8.toList)])]
  current := []

/-- Three results, one of them of a file: the three reports agree on them. -/
theorem reports_agree_oneFile :
    let rule : Rule := ⟨.plain "hero"⟩
    ∃ r, Project.checkFile oneFile rule (.ofString "./patterns//hero.php") = .ok r ∧
      r.outcome = .missingBaseCategory ∧
      let rs := [rule.checkAt (some "") [], rule.checkAt none "/** * Categories: a */".toList, r]
      (∀ r ∈ rs, r.Checked) ∧ Agree rs := by
  intro rule
  obtain ⟨r, hr, houtcome⟩ := exists_eq_ok_of_any
    (x := Project.checkFile oneFile rule (.ofString "./patterns//hero.php"))
    (p := fun r => r.outcome = .missingBaseCategory) (by decide +kernel)
  have hchecked : ∀ r' ∈ [rule.checkAt (some "") [],
      rule.checkAt none "/** * Categories: a */".toList, r], r'.Checked := by
    simp only [List.forall_mem_cons]
    have hbase : rule.base.IsLine := by decide
    exact ⟨.text _ hbase (by decide), .text _ hbase nofun, .file hbase (by decide) hr, nofun⟩
  exact ⟨r, hr, of_decide_eq_true houtcome, hchecked, reports_agree hchecked⟩

end Report

end CategoryLint
