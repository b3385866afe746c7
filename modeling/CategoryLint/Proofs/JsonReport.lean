import CategoryLint.Proofs.JsonRoundTrip
import CategoryLint.Proofs.Splitting
import CategoryLint.Report
import CategoryLint.Setting.Coercion

/-!
# The JSON report

The report on a list of results is JSON that has a form for all of it, so the report is read back
as what it says (`asJson_json`), by the reader for JSON in brackets. All of its characters are
ASCII (`isAscii_writeValue`).
-/

namespace CategoryLint

/-! ## ASCII -/

namespace Json

open Text

variable {depth : Nat} {v : Value} {cs ds : List Char}

/-- All characters of a text are ASCII. -/
def IsAscii (cs : List Char) : Prop := ∀ c ∈ cs, c.toNat < 0x80

instance (cs : List Char) : Decidable (IsAscii cs) := List.decidableBAll _ cs

@[simp]
theorem isAscii_nil : IsAscii [] := by simp [IsAscii]

@[simp]
theorem isAscii_cons {c : Char} : IsAscii (c :: cs) ↔ c.toNat < 0x80 ∧ IsAscii cs := by
  simp [IsAscii]

@[simp]
theorem isAscii_append : IsAscii (cs ++ ds) ↔ IsAscii cs ∧ IsAscii ds :=
  List.forall_mem_append

theorem isAscii_hexDigits (width n : Nat) : IsAscii (hexDigits width n) := by
  induction width generalizing n with
  | zero => exact isAscii_nil
  | succ width ih =>
    have hdigit : ∀ d < 16, IsAscii [hexDigit d] := by decide +kernel
    exact isAscii_append.2 ⟨ih _, hdigit _ (Nat.mod_lt _ (by decide))⟩

/-- A character is written in ASCII, if need be by its number. -/
theorem isAscii_escapeChar (c : Char) : IsAscii (escapeChar c) := by
  by_cases h : c ∈ lettered.map (·.1)
  · obtain ⟨l, hl, rfl⟩ := List.mem_map.1 h
    obtain ⟨hc, -, -, hlt⟩ := escapeChar_lettered l hl
    simp [hc, hlt]
  · rw [escapeChar_of_not_mem h]
    split
    · next hc => exact isAscii_cons.2 ⟨by omega, isAscii_nil⟩
    · split <;> simp [unitEscape, isAscii_hexDigits]

/-- Every text is written in ASCII. -/
theorem isAscii_writeString (s : String) : IsAscii (writeString s) := by
  refine isAscii_append.2 ⟨isAscii_cons.2 ⟨by decide, fun c hc => ?_⟩, by decide⟩
  obtain ⟨d, -, hd⟩ := List.mem_flatMap.1 hc
  exact isAscii_escapeChar d c hd

theorem isAscii_toDigits (n : Nat) : IsAscii (Nat.toDigits 10 n) := by
  intro c hc
  have hdigit := isDigit_of_mem_toDigits hc
  simp only [isDigit, Bool.and_eq_true, decide_eq_true_eq] at hdigit
  have hle : c.toNat ≤ '9'.toNat := hdigit.2
  exact Nat.lt_of_le_of_lt hle (by decide)

theorem isAscii_toString (n : Int) : IsAscii (toString n).toList := by
  cases n with
  | ofNat n =>
    rw [Int.ofNat_eq_natCast, toList_toString_natCast]
    exact isAscii_toDigits n
  | negSucc n =>
    rw [toList_toString_negSucc]
    exact isAscii_cons.2 ⟨by decide, isAscii_toDigits _⟩

theorem isAscii_newline (k : Nat) : IsAscii (newline k) := by
  intro c hc
  rcases List.mem_cons.1 hc with rfl | hc
  · decide
  · rw [List.eq_of_mem_replicate hc]
    decide

/-- A list is written in ASCII if its items are. -/
theorem isAscii_writeItems {items : List Value} (k : Nat)
    (h : ∀ v ∈ items, IsAscii (writeValue k v)) : IsAscii (writeItems k items) := by
  induction items with
  | nil => exact isAscii_nil
  | cons v items ih =>
    rw [List.forall_mem_cons] at h
    simp [writeItems, isAscii_newline, h.1, ih h.2]

/-- A mapping is written in ASCII if its values are. -/
theorem isAscii_writeFields {es : Entries} (k : Nat) (hnames : ∀ e ∈ es, IsName e.1)
    (h : ∀ e ∈ es, IsAscii (writeValue k e.2)) : IsAscii (writeFields k es) := by
  induction es with
  | nil => exact isAscii_nil
  | cons e es ih =>
    rw [List.forall_mem_cons] at hnames h
    obtain ⟨key, v⟩ := e
    obtain ⟨⟨name, rfl⟩, hnames⟩ := hnames
    simp [writeFields, writeName, writeText, isAscii_newline, isAscii_writeString, h.1,
      ih hnames h.2]

/-- The text of a value that JSON has a form for is ASCII. -/
theorem isAscii_writeValue (h : Plain depth v) (k : Nat) : IsAscii (writeValue k v) := by
  induction h generalizing k with
  | null => exact (by decide : IsAscii "null".toList)
  | bool b => cases b <;> simp [writeValue, writeScalar]
  | @int _ n h => exact isAscii_toString n
  | str s => exact isAscii_writeString s
  | @list _ items h ih =>
    cases items with
    | nil => simp [writeValue]
    | cons v items =>
      rw [List.forall_mem_cons] at ih
      simp [writeValue, isAscii_newline, ih.1, isAscii_writeItems _ fun w hw => ih.2 w hw (k + 1)]
  | @mapping _ es hnames hnodup h ih =>
    cases es with
    | nil => simp [writeValue]
    | cons e es =>
      rw [List.forall_mem_cons] at hnames ih
      obtain ⟨key, v⟩ := e
      obtain ⟨⟨name, rfl⟩, hnames⟩ := hnames
      simp [writeValue, writeName, writeText, isAscii_newline, isAscii_writeString, ih.1,
        isAscii_writeFields _ hnames fun e he => ih.2 e he (k + 1)]

/-! ## JSON in brackets -/

/-- A mapping that JSON has a form for is read back as JSON in brackets. -/
theorem asJson_write [Limits] {es : Entries} (h : Plain Limits.json (.mapping es)) :
    Coercion.asJson (String.ofList (write (.mapping es))) = .ok (some (.mapping es)) := by
  have hbrackets : ∃ cs, write (.mapping es) = '\x7b' :: cs ++ ['\x7d'] := by
    cases es with
    | nil => exact ⟨[], rfl⟩
    | cons e es => exact ⟨_, rfl⟩
  obtain ⟨cs, hcs⟩ := hbrackets
  have htrim : trim (write (.mapping es)) = write (.mapping es) := by
    rw [hcs, trim_eq_self_iff]
    exact ⟨List.dropWhile_cons_of_neg (by decide), List.rdropWhile_concat_neg _ _ _ (by decide)⟩
  have hbracketed : Coercion.isBracketed (write (.mapping es)) := by
    simp only [Coercion.isBracketed, hcs, List.getLast?_concat]
    rfl
  simp only [Coercion.asJson, String.toList_ofList, htrim, if_pos hbracketed, read_write h]

end Json

/-! ## Reports -/

namespace Report

open Json

variable {depth : Nat}

theorem plain_ofText? (s : Option String) : Plain depth (.ofText? s) := by
  cases s with
  | none => exact .null
  | some s => exact .str s

/-- A violation is plain if its place is written with no more digits than are read. -/
theorem plain_violation {v : Violation} (hline : v.line.natAbs < 10 ^ Integer.maxDigits)
    (hcolumn : v.column.natAbs < 10 ^ Integer.maxDigits) : Plain (depth + 1) v.toValue := by
  refine .mapping (by simp [IsName]) (by simp [Entries.keys]) ?_
  simp only [List.forall_mem_cons]
  exact ⟨plain_ofText? _, .int hline, .int hcolumn, .str _, .str _, .str _, .str _, by simp⟩

/-- A result is plain, one level above its violation. -/
theorem plain_result {r : Result} (h : ∀ v ∈ r.violation,
      v.line.natAbs < 10 ^ Integer.maxDigits ∧ v.column.natAbs < 10 ^ Integer.maxDigits) :
    Plain (depth + 2) r.toValue := by
  refine .mapping (by simp [IsName]) (by simp [Entries.keys]) ?_
  simp only [List.forall_mem_cons]
  refine ⟨plain_ofText? _, .str _, ?_, by simp⟩
  cases hv : r.violation with
  | none => exact .null
  | some v => exact plain_violation (h v hv).1 (h v hv).2

/-- The report on some results is plain, and four levels deep. -/
theorem plain_payload {rs : List Result} (hcount : rs.length < 10 ^ Integer.maxDigits)
    (hplace : ∀ r ∈ rs, ∀ v ∈ r.violation,
      v.line.natAbs < 10 ^ Integer.maxDigits ∧ v.column.natAbs < 10 ^ Integer.maxDigits) :
    Plain (depth + 4) (payload rs) := by
  have hfailures : failures rs < 10 ^ Integer.maxDigits :=
    Nat.lt_of_le_of_lt (List.length_filter_le _ rs) hcount
  refine .mapping (by simp [IsName]) (by simp [Entries.keys]) ?_
  simp only [List.forall_mem_cons]
  refine ⟨.int hcount, .int hfailures, .list fun v hv => ?_, by simp⟩
  obtain ⟨r, hr, rfl⟩ := List.mem_map.1 hv
  exact plain_result (hplace r hr)

/-- A report is not too deep to be read. -/
theorem plain_payload_json [Limits] {rs : List Result}
    (hcount : rs.length < 10 ^ Integer.maxDigits)
    (hplace : ∀ r ∈ rs, ∀ v ∈ r.violation,
      v.line.natAbs < 10 ^ Integer.maxDigits ∧ v.column.natAbs < 10 ^ Integer.maxDigits) :
    Plain Limits.json (payload rs) := by
  rw [← Nat.sub_add_cancel Limits.report_le_json]
  exact plain_payload hcount hplace

/-- The JSON report is read back as the number of results, the number of failures and the results
    themselves, in their order, and it is ASCII. -/
theorem asJson_json [Limits] {rs : List Result} (hcount : rs.length < 10 ^ Integer.maxDigits)
    (hplace : ∀ r ∈ rs, ∀ v ∈ r.violation,
      v.line.natAbs < 10 ^ Integer.maxDigits ∧ v.column.natAbs < 10 ^ Integer.maxDigits) :
    Coercion.asJson (render .json rs) = .ok (some (.mapping
      [(.str "checked", .int rs.length),
       (.str "errors", .int (rs.countP (·.violation.isSome))),
       (.str "results", .list (rs.map Result.toValue))])) ∧
      ∀ c ∈ (render .json rs).toList, c.toNat < 0x80 := by
  have hplain := plain_payload_json hcount hplace
  refine ⟨?_, ?_⟩
  · rw [List.countP_eq_length_filter]
    exact asJson_write hplain
  · rw [render, json, String.toList_ofList]
    exact isAscii_writeValue hplain 0

/-- A failure whose path and message need every kind of escape, and a success. -/
def sample : List Result :=
  [⟨.missingBaseCategory,
      some ⟨"rule", "code", "\"\\\n\t\x00\x7F é", "error", -12, 0, some "a/𝄞.php"⟩,
      some "a/𝄞.php", rfl⟩,
    ⟨.pass, none, none, rfl⟩]

/-- A report on two results reads as what it reports. -/
theorem asJson_json_sample :
    Coercion.asJson (render .json sample) = .ok (some (.mapping
      [(.str "checked", .int 2), (.str "errors", .int 1),
       (.str "results", .list (sample.map Result.toValue))])) ∧
      ∀ c ∈ (render .json sample).toList, c.toNat < 0x80 :=
  asJson_json (by decide +kernel) (by decide +kernel)

end Report

end CategoryLint
