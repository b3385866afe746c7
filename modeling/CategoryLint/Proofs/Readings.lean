import CategoryLint.Proofs.JsonScalar
import CategoryLint.Proofs.LowerCase
import CategoryLint.Proofs.Variable

/-!
# Readings of a text

The text of a variable is tried as a truth value, as an integer, as a decimal number and as JSON in
brackets, and no text can be read in two of these ways (`pairwise_readings`): an integer needs a
digit, a decimal number a point and JSON a bracket, each of which a truth value has no place for,
whatever alphabet the digit is from, since none of them is the lower-case form of anything else
(`isSmall_of_isTell`); and the readings of numbers take nothing but signs, digits and the point. So
the order of the readings does not matter (`coerce_readings`). An integer is found between blanks,
but for the separators, which make it fail (`coerce_toString`): they are trimmed when the text is
looked at, and are still there when it is read. All of this is `coerce_exact`.
-/

namespace CategoryLint

/-! ## Characters that tell the readings apart -/

namespace Text

variable {c : Char} {cs : List Char}

/-- A point, the brackets that JSON starts with, and the digits of all scripts. -/
def tellSpans : List Span :=
  (0x2E, 0x2E) :: (0x5B, 0x5B) :: (0x7B, 0x7B) :: digitZeros.map fun z => (z, z + 9)

/-- Whether `c` tells that a text is a number or JSON. -/
def isTell (c : Char) : Bool := inSpans tellSpans c

theorem tells_disjoint : spanSet tellSpans &&& capitals = 0 := by decide +kernel

/-- Lower case leaves the characters that tell readings apart alone. -/
theorem isSmall_of_isTell (h : isTell c) : IsSmall c.toNat :=
  isSmall_of_not_testBit (not_testBit_of_land_eq_zero tells_disjoint (testBit_spanSet.2 h))

/-- A digit tells that a text is no truth value. -/
theorem isTell_of_isDigit (h : isDigit c) : isTell c := by
  rw [isDigit, digitValue?, Option.isSome_map, List.find?_isSome] at h
  obtain ⟨z, hz, hc⟩ := h
  refine List.any_eq_true.2 ⟨(z, z + 9), by simp [tellSpans, hz], ?_⟩
  simp only [Bool.and_eq_true, decide_eq_true_eq] at hc ⊢
  omega

/-- A small character is in the lower-case form of every text that it is in. -/
theorem mem_lowerAfter_of_isSmall (hc : c ∈ cs) (h : IsSmall c.toNat) (before : List Char) :
    c ∈ lowerAfter before cs := by
  induction cs generalizing before with
  | nil => cases hc
  | cons d cs ih =>
    rw [lowerAfter_cons, List.mem_append]
    rcases List.mem_cons.1 hc with rfl | hc
    · exact .inl (by rw [lowerAt_of_isSmall h]; exact List.mem_singleton_self _)
    · exact .inr (ih hc _)

end Text

open Text

namespace Coercion

variable {raw : String} {cs : List Char}

/-! ## Readings -/

/-- A way to read a text: it gives a value, does not apply, or fails. -/
abbrev Reading := String → Except CoercionError (Option Value)

/-- The text as a truth value. -/
def boolReading : Reading := fun raw => .ok ((asBool raw).map Value.bool)

/-- The text as an integer. -/
def intReading : Reading := fun raw => (asInt raw).map (·.map Value.int)

/-- The text as a decimal number. -/
def floatReading : Reading := fun raw => .ok ((asFloat raw).map fun x => .scalar (.float x))

/-- The four readings, in the order in which they are tried. -/
def readings [Limits] : List Reading := [boolReading, intReading, floatReading, asJson]

/-- The first value that a list of readings gives, and otherwise the text itself. -/
def firstOf : List Reading → String → Except CoercionError Value
  | [], raw => .ok (.str (strip raw))
  | f :: fs, raw =>
    match f raw with
    | .error e => .error e
    | .ok (some v) => .ok v
    | .ok none => firstOf fs raw

/-- A setting is what the first reading that takes its text makes of it. -/
theorem coerce_eq_firstOf [Limits] (raw : String) : coerce raw = firstOf readings raw := by
  simp only [coerce, readings, firstOf, boolReading, intReading, floatReading]
  cases asBool raw with
  | some b => rfl
  | none =>
    simp only [Option.map_none]
    cases asInt raw with
    | error e => rfl
    | ok n? =>
      cases n? with
      | some n => rfl
      | none =>
        simp only [Except.map, Option.map_none]
        cases asFloat raw <;> rfl

/-- Where no two readings apply to a text, their order does not matter. -/
theorem firstOf_perm {fs gs : List Reading} (h : fs.Perm gs)
    (hp : fs.Pairwise fun f g => f raw = .ok none ∨ g raw = .ok none) :
    firstOf fs raw = firstOf gs raw := by
  induction h with
  | nil => rfl
  | cons f _ ih => simp only [firstOf, ih (List.pairwise_cons.1 hp).2]
  | swap f g fs =>
    rw [List.pairwise_cons, List.forall_mem_cons] at hp
    rcases hp.1.1 with hf | hf <;> simp only [firstOf, hf]
  | trans hfg _ ih ih' =>
    exact (ih hp).trans (ih' (hfg.pairwise hp fun h => h.symm))

/-! ## What each reading needs and allows -/

/-- A text with one of these characters is no truth value. -/
theorem boolReading_eq_none {c : Char} (hc : c ∈ trim raw.toList) (h : isTell c) :
    boolReading raw = .ok none := by
  have hletters : ¬"truefals".toList.any isTell := by decide +kernel
  have hword : c ∈ (lower (strip raw)).toList := by
    rw [lower, strip, String.toList_ofList, String.toList_ofList]
    exact mem_lowerAfter_of_isSmall hc (isSmall_of_isTell h) []
  have hne : ∀ word : String, word.toList ⊆ "truefals".toList → lower (strip raw) ≠ word := by
    rintro word hsub rfl
    exact hletters (List.any_eq_true.2 ⟨c, hsub hword, h⟩)
  rw [boolReading, asBool]
  simp only [if_neg (hne "true" (by decide)), if_neg (hne "false" (by decide)), Option.map_none]

/-- The characters of a number: signs, digits and the point. -/
def IsNumeral (c : Char) : Prop := c = '-' ∨ c = '+' ∨ isDigit c ∨ c = '.'

theorem mem_of_mem_takeSign {c : Char} (h : c ∈ (Decimal.takeSign cs).2) : c ∈ cs := by
  revert h
  fun_cases Decimal.takeSign cs with
  | case1 cs => exact List.mem_cons_of_mem _
  | case2 cs => exact List.mem_cons_of_mem _
  | case3 cs => exact id

/-- What a sign takes off a text. -/
theorem mem_takeSign_or {c : Char} (h : c ∈ cs) :
    c = '-' ∨ c = '+' ∨ c ∈ (Decimal.takeSign cs).2 := by
  revert h
  fun_cases Decimal.takeSign cs with
  | case1 cs => exact fun h => (List.mem_cons.1 h).imp id .inr
  | case2 cs => exact fun h => .inr (List.mem_cons.1 h)
  | case3 cs => exact fun h => .inr (.inr h)

theorem isNumeral_of_takeSign (h : ∀ c ∈ (Decimal.takeSign cs).2, isDigit c ∨ c = '.') :
    ∀ c ∈ cs, IsNumeral c :=
  fun c hc => (mem_takeSign_or hc).imp id (.imp id (h c))

/-- An integer has a digit and no point. -/
theorem exists_of_looksInteger (h : looksInteger cs) :
    (∃ c ∈ cs, isDigit c) ∧ '.' ∉ cs ∧ ∀ c ∈ cs, IsNumeral c := by
  rw [looksInteger, Bool.and_eq_true, Bool.not_eq_true', List.isEmpty_eq_false_iff,
    List.all_eq_true] at h
  obtain ⟨hne, hdigits⟩ := h
  obtain ⟨d, hd⟩ := List.exists_mem_of_ne_nil _ hne
  refine ⟨⟨d, mem_of_mem_takeSign hd, hdigits d hd⟩, fun hpoint => ?_,
    isNumeral_of_takeSign fun c hc => .inl (hdigits c hc)⟩
  rcases mem_takeSign_or hpoint with hsign | hsign | hpoint
  · revert hsign
    decide
  · revert hsign
    decide
  · have hdigit := hdigits _ hpoint
    revert hdigit
    decide

theorem exists_takeDigits (cs : List Char) :
    ∃ ds, cs = ds ++ (Decimal.takeDigits cs).2 ∧ ∀ c ∈ ds, isDigit c := by
  induction cs with
  | nil => exact ⟨[], rfl, by simp⟩
  | cons c cs ih =>
    obtain ⟨ds, hcs, hds⟩ := ih
    rw [Decimal.takeDigits]
    cases hc : digitValue? c with
    | none => exact ⟨[], rfl, by simp⟩
    | some d =>
      refine ⟨c :: ds, ?_, List.forall_mem_cons.2 ⟨by simp [isDigit, hc], hds⟩⟩
      rw [List.cons_append, ← hcs]

/-- A floating-point number has a point, and what else numbers have. -/
theorem exists_of_asFloat {x : Binary64} (h : asFloat raw = some x) :
    '.' ∈ trim raw.toList ∧ ∀ c ∈ trim raw.toList, IsNumeral c := by
  obtain ⟨whole, hwhole, hdigits⟩ := exists_takeDigits (Decimal.takeSign (trim raw.toList)).2
  simp only [asFloat] at h
  split at h
  · next cs hcs =>
    obtain ⟨fraction, hfraction, hdigits'⟩ := exists_takeDigits cs
    split at h
    · next hrest =>
      rw [hcs, hfraction, hrest.1, List.append_nil] at hwhole
      refine ⟨mem_of_mem_takeSign (hwhole ▸ by simp), isNumeral_of_takeSign ?_⟩
      rw [hwhole, List.forall_mem_append, List.forall_mem_cons]
      exact ⟨fun c hc => .inl (hdigits c hc), .inr rfl, fun c hc => .inl (hdigits' c hc)⟩
    · cases h
  · cases h

/-- What is taken for a floating-point number has a point. -/
theorem numeral_of_floatReading (h : floatReading raw ≠ .ok none) :
    '.' ∈ trim raw.toList ∧ ∀ c ∈ trim raw.toList, IsNumeral c := by
  rw [floatReading] at h
  cases hx : asFloat raw with
  | none => exact absurd (by rw [hx]; rfl) h
  | some x => exact exists_of_asFloat hx

/-- What does not look like an integer is not taken for one. -/
theorem intReading_eq_none_iff : intReading raw = .ok none ↔ ¬looksInteger (trim raw.toList) := by
  rw [intReading, asInt]
  by_cases h : looksInteger (trim raw.toList)
  · rw [if_pos h]
    cases Integer.read 10 raw <;> simp [h, Except.map, Except.mapError]
  · simp [h, Except.map]

/-- What is taken for JSON has a bracket or a brace. -/
theorem exists_bracket_of_asJson [Limits] (h : asJson raw ≠ .ok none) :
    ∃ c ∈ trim raw.toList, c = '\x7b' ∨ c = '[' := by
  by_contra hnone
  refine h ?_
  rw [asJson, if_neg fun hbracketed => hnone ?_]
  obtain ⟨c, cs, hcs, hc⟩ := exists_of_isBracketed hbracketed
  exact ⟨c, hcs ▸ List.mem_cons_self, hc⟩

/-- Brackets and braces are in no number. -/
theorem not_isNumeral_of_bracket {c : Char} (hc : c = '\x7b' ∨ c = '[') : ¬IsNumeral c := by
  rcases hc with rfl | rfl
  · simp only [IsNumeral]
    decide
  · simp only [IsNumeral]
    decide

/-! ## No two readings apply to one text -/

/-- No text is taken by two readings. -/
theorem pairwise_readings [Limits] (raw : String) :
    readings.Pairwise fun f g => f raw = .ok none ∨ g raw = .ok none := by
  have hint (h : intReading raw ≠ .ok none) :=
    exists_of_looksInteger (not_not.1 (mt intReading_eq_none_iff.2 h))
  have hfloat (h : floatReading raw ≠ .ok none) := numeral_of_floatReading h
  have hjson (h : asJson raw ≠ .ok none) := exists_bracket_of_asJson h
  simp only [readings, List.pairwise_cons, List.forall_mem_cons, List.not_mem_nil, false_imp_iff,
    implies_true, List.Pairwise.nil, and_true]
  refine ⟨⟨?boolInt, ?boolFloat, ?boolJson⟩, ⟨?intFloat, ?intJson⟩, ?floatJson⟩
  all_goals refine or_iff_not_imp_right.2 fun h => ?_
  case boolInt =>
    obtain ⟨⟨d, hd, hdigit⟩, -, -⟩ := hint h
    exact boolReading_eq_none hd (isTell_of_isDigit hdigit)
  case boolFloat => exact boolReading_eq_none (hfloat h).1 (by decide)
  case boolJson =>
    obtain ⟨c, hc, hbracket⟩ := hjson h
    exact boolReading_eq_none hc (by rcases hbracket with rfl | rfl <;> decide)
  case intFloat =>
    by_contra hne
    exact (hint hne).2.1 (hfloat h).1
  case intJson =>
    by_contra hne
    obtain ⟨c, hc, hbracket⟩ := hjson h
    exact not_isNumeral_of_bracket hbracket ((hint hne).2.2 c hc)
  case floatJson =>
    by_contra hne
    obtain ⟨c, hc, hbracket⟩ := hjson h
    exact not_isNumeral_of_bracket hbracket ((hfloat hne).2 c hc)

/-- The order of the readings does not matter. -/
theorem coerce_readings [Limits] {order : List Reading} (h : order.Perm readings) (raw : String) :
    firstOf order raw = coerce raw := by
  rw [coerce_eq_firstOf]
  exact (firstOf_perm h.symm (pairwise_readings raw)).symm

/-! ## A text that stands for itself -/

/-- A text that no reading takes stays a text, without the blanks around it. -/
theorem firstOf_eq_str {fs : List Reading} (h : ∀ f ∈ fs, f raw = .ok none) :
    firstOf fs raw = .ok (.str (strip raw)) := by
  induction fs with
  | nil => rfl
  | cons f fs ih =>
    rw [List.forall_mem_cons] at h
    rw [firstOf, h.1]
    exact ih h.2

theorem trim_strip (raw : String) : trim (strip raw).toList = trim raw.toList := by
  rw [strip, String.toList_ofList, trim_trim]

theorem strip_strip (raw : String) : strip (strip raw) = strip raw := by
  rw [strip, trim_strip, strip]

/-- A reading that does not apply to a text does not apply to it without its blanks. -/
theorem reading_strip [Limits] {f : Reading} (hf : f ∈ readings) (h : f raw = .ok none) :
    f (strip raw) = .ok none := by
  simp only [readings, List.mem_cons, List.not_mem_nil, or_false] at hf
  rcases hf with rfl | rfl | rfl | rfl
  · rwa [boolReading, asBool, strip_strip]
  · rwa [intReading_eq_none_iff, trim_strip, ← intReading_eq_none_iff]
  · rwa [floatReading, asFloat, trim_strip]
  · rwa [asJson, trim_strip]

/-! ## Integers between blanks -/

theorem blanks_disjoint : spanSet blankSpans &&& spanSet tellSpans = 0 := by decide +kernel

theorem not_isDigit_of_isBlank {c : Char} (h : isBlank c) : ¬isDigit c := fun hd =>
  not_testBit_of_land_eq_zero blanks_disjoint (testBit_spanSet.2 h)
    (testBit_spanSet.2 (isTell_of_isDigit hd))

theorem digitValue?_of_isDigit {c : Char} (h : Json.isDigit c) :
    digitValue? c = some (c.toNat - '0'.toNat) := by
  have hfind : digitZeros.find? (fun z => z ≤ c.toNat && c.toNat < z + 10) = some '0'.toNat :=
    List.find?_cons_of_pos (by
      simp only [Json.isDigit, Bool.and_eq_true, decide_eq_true_eq, Char.le_def,
        UInt32.le_iff_toNat_le] at h ⊢
      exact ⟨h.1, Nat.lt_succ_of_le h.2⟩)
  rw [digitValue?, hfind, Option.map_some]

theorem isDigit_of_json {c : Char} (h : Json.isDigit c) : isDigit c := by
  rw [isDigit, digitValue?_of_isDigit h]
  rfl

/-- In base ten a letter is no digit. -/
theorem digitValue?_ten (c : Char) : Integer.digitValue? 10 c = digitValue? c := by
  rw [Integer.digitValue?]
  cases hc : digitValue? c with
  | some d =>
    rw [digitValue?, Option.map_eq_some_iff] at hc
    obtain ⟨z, hz, rfl⟩ := hc
    have hlt := List.find?_some hz
    simp only [Bool.and_eq_true, decide_eq_true_eq] at hlt
    exact Option.filter_some_pos (by simp only [decide_eq_true_eq]; omega)
  | none =>
    simp only
    split
    · simp
    · split <;> simp

/-- In base ten an integer has the same digits as a decimal number. -/
theorem takeDigits_ten (cs : List Char) : Integer.takeDigits 10 cs = Decimal.takeDigits cs := by
  induction cs with
  | nil => rfl
  | cons c cs ih =>
    rw [Integer.takeDigits, Decimal.takeDigits, digitValue?_ten]
    cases digitValue? c with
    | none => rfl
    | some d => simp only [ih]

theorem dropBaseMark_ten (cs : List Char) : Integer.dropBaseMark 10 cs = cs := by
  fun_cases Integer.dropBaseMark 10 cs with
  | case1 c cs h => cases h
  | case2 => rfl
  | case3 => rfl

theorem takeDigits_eq_nil {rest : List Char} (h : ∀ c ∈ rest.head?, ¬isDigit c) :
    Decimal.takeDigits rest = ([], rest) := by
  cases rest with
  | nil => rfl
  | cons c rest =>
    have hc : digitValue? c = none := by simpa [isDigit] using h c rfl
    rw [Decimal.takeDigits, hc]

/-- Digits are taken up to the first character that is none. -/
theorem takeDigits_append {ds rest : List Char} (hds : ∀ c ∈ ds, Json.isDigit c)
    (hrest : ∀ c ∈ rest.head?, ¬isDigit c) :
    Decimal.takeDigits (ds ++ rest) = (ds.map fun d => d.toNat - '0'.toNat, rest) := by
  induction ds with
  | nil => exact takeDigits_eq_nil hrest
  | cons d ds ih =>
    rw [List.forall_mem_cons] at hds
    rw [List.cons_append, Decimal.takeDigits, digitValue?_of_isDigit hds.1, ih hds.2]
    rfl

theorem takeSign_of_ne {c : Char} (hm : c ≠ '-') (hp : c ≠ '+') (cs : List Char) :
    Decimal.takeSign (c :: cs) = (false, c :: cs) := by
  rw [Decimal.takeSign]
  · exact fun _ h => hm (List.cons.inj h).1
  · exact fun _ h => hp (List.cons.inj h).1

/-- A written integer is a sign and the digits of its magnitude. -/
theorem takeSign_toString (n : Int) (rest : List Char) :
    Decimal.takeSign ((toString n).toList ++ rest) =
      (decide (n < 0), Nat.toDigits 10 n.natAbs ++ rest) := by
  cases n with
  | ofNat n =>
    obtain ⟨d, ds, hds, hd⟩ := Json.exists_toDigits_eq_cons n
    have hne : ∀ c ∈ ['-', '+'], d ≠ c := Json.ne_of_isDigit hd (by decide)
    rw [Int.ofNat_eq_natCast, Json.toList_toString_natCast, Int.natAbs_natCast, hds,
      List.cons_append, takeSign_of_ne (hne _ (by simp)) (hne _ (by simp))]
    simp
  | negSucc n =>
    rw [Json.toList_toString_negSucc, Int.natAbs_negSucc, decide_eq_true (Int.negSucc_lt_zero n)]
    rfl

/-- A written integer has no blanks. -/
theorem not_isBlank_of_mem_toString {n : Int} {c : Char} (h : c ∈ (toString n).toList) :
    ¬isBlank c := by
  have hdigits : ∀ m, ∀ c ∈ Nat.toDigits 10 m, ¬isBlank c := fun m c hc hblank =>
    not_isDigit_of_isBlank hblank (isDigit_of_json (Json.isDigit_of_mem_toDigits hc))
  cases n with
  | ofNat n => exact hdigits n c (Json.toList_toString_natCast n ▸ h)
  | negSucc n =>
    rw [Json.toList_toString_negSucc] at h
    rcases List.mem_cons.1 h with rfl | h
    · decide
    · exact hdigits (n + 1) c h

/-- The blanks around a number are all blanks but the four separators. -/
theorem isNumberSpace_iff {c : Char} : isNumberSpace c ↔ isBlank c ∧ ¬isSeparator c := by
  simp [isNumberSpace]

/-- How an integer is read off a text after the blanks at its start. -/
theorem read_of_dropWhile {s : String} {negative : Bool} {cs rest : List Char} {ds : List Nat}
    (hsign : Decimal.takeSign (s.toList.dropWhile isNumberSpace) = (negative, cs))
    (hds : Decimal.takeDigits cs = (ds, rest)) (hlen : ds.length ≤ Integer.maxDigits) :
    Integer.read 10 s =
      if ds = [] ∨ rest.dropWhile isNumberSpace ≠ [] then .error (.malformed 10 s)
      else .ok (if negative then -(digitsToNat 10 ds : Int) else digitsToNat 10 ds) := by
  have hpoints : (TextValue.plain s).points.map CodePoint.shown = s.toList := by
    rw [TextValue.points, List.map_map]
    exact List.map_id _
  simp only [Integer.read, hpoints, hsign, dropBaseMark_ten, takeDigits_ten, hds, true_and,
    Nat.not_lt.2 hlen, if_false]
  by_cases hnil : ds = []
  · rw [if_pos hnil, if_pos (.inl hnil)]
  · simp only [hnil, false_or, if_false]

/-- What is not a number space stops the reading. -/
theorem exists_dropWhile_eq_cons {cs : List Char} (hblank : ∀ c ∈ cs, isBlank c)
    (hsep : ∃ c ∈ cs, isSeparator c) (rest : List Char) :
    ∃ c cs', (cs ++ rest).dropWhile isNumberSpace = c :: cs' ∧ isBlank c ∧ isSeparator c := by
  induction cs with
  | nil => simp at hsep
  | cons c cs ih =>
    rw [List.forall_mem_cons] at hblank
    rw [List.cons_append, List.dropWhile_cons]
    split
    · next hc =>
      obtain ⟨d, hd, hsep⟩ := hsep
      rcases List.mem_cons.1 hd with rfl | hd
      · exact absurd hsep (isNumberSpace_iff.1 hc).2
      · exact ih hblank.2 ⟨d, hd, hsep⟩
    · next hc =>
      refine ⟨c, cs ++ rest, rfl, hblank.1, not_not.1 fun h => hc ?_⟩
      exact isNumberSpace_iff.2 ⟨hblank.1, h⟩

/-- A separator before a number is not passed over, so that there is no number. -/
theorem read_of_separator {a rest : List Char} (ha : ∀ c ∈ a, isBlank c)
    (hsep : ∃ c ∈ a, isSeparator c) {s : String} (hs : s.toList = a ++ rest) :
    Integer.read 10 s = .error (.malformed 10 s) := by
  -- The separator stands where the sign or the first digit should.
  obtain ⟨c, cs, hcs, hblank, hc⟩ := exists_dropWhile_eq_cons ha hsep rest
  have hminus : ¬isSeparator '-' := by decide
  have hplus : ¬isSeparator '+' := by decide
  have hsign := takeSign_of_ne (fun h => hminus (h ▸ hc)) (fun h => hplus (h ▸ hc)) cs
  have hds : Decimal.takeDigits (c :: cs) = ([], c :: cs) :=
    takeDigits_eq_nil (by simpa using not_isDigit_of_isBlank hblank)
  rw [read_of_dropWhile (by rw [hs, hcs, hsign]) hds (Nat.zero_le _), if_pos (.inl rfl)]

/-- Blanks around a number are passed over, but for separators after it. -/
theorem read_of_spaces {n : Int} (hn : n.natAbs < 10 ^ Integer.maxDigits) {a b : List Char}
    (ha : ∀ c ∈ a, isNumberSpace c) (hb : ∀ c ∈ b, isBlank c) {s : String}
    (hs : s.toList = a ++ ((toString n).toList ++ b)) :
    Integer.read 10 s = if b.any isSeparator then .error (.malformed 10 s) else .ok n := by
  have hdrop : s.toList.dropWhile isNumberSpace = (toString n).toList ++ b := by
    obtain ⟨c, cs, hcs, -⟩ := Json.exists_toString_eq_cons n
    have hc : ¬isBlank c := not_isBlank_of_mem_toString (hcs ▸ List.mem_cons_self)
    rw [hs, List.dropWhile_append_of_pos ha, hcs, List.cons_append,
      List.dropWhile_cons_of_neg fun h => hc (isNumberSpace_iff.1 h).1]
  have hds : Decimal.takeDigits (Nat.toDigits 10 n.natAbs ++ b) = (_, b) :=
    takeDigits_append (fun c hc => Json.isDigit_of_mem_toDigits hc)
      fun c hc => not_isDigit_of_isBlank (hb c (List.mem_of_mem_head? hc))
  have hlen : (Nat.toDigits 10 n.natAbs).length ≤ Integer.maxDigits :=
    (Nat.length_toDigits_le_iff (by decide) (by decide)).2 hn
  have hvalue : digitsToNat 10 ((Nat.toDigits 10 n.natAbs).map fun d => d.toNat - '0'.toNat) =
      n.natAbs := Json.digitsNumber_toDigits n.natAbs
  have hsigned : (if decide (n < 0) then -(n.natAbs : Int) else n.natAbs) = n := by
    simp only [decide_eq_true_eq]
    split <;> omega
  have hrest : b.dropWhile isNumberSpace ≠ [] ↔ b.any isSeparator := by
    rw [ne_eq, List.dropWhile_eq_nil_iff, not_forall₂, List.any_eq_true]
    refine exists_congr fun c => ?_
    simp only [isNumberSpace_iff, exists_prop]
    exact and_congr_right fun hc => by simp [hb c hc]
  rw [read_of_dropWhile (by rw [hdrop, takeSign_toString]) hds (by simpa using hlen), hvalue,
    hsigned]
  simp only [List.map_eq_nil_iff, Nat.toDigits_ne_nil, false_or, hrest]

/-- A written integer looks like one. -/
theorem looksInteger_toString (n : Int) : looksInteger (toString n).toList := by
  have hsign := takeSign_toString n []
  rw [List.append_nil, List.append_nil] at hsign
  rw [looksInteger, hsign, Bool.and_eq_true, Bool.not_eq_true', List.isEmpty_eq_false_iff,
    List.all_eq_true]
  exact ⟨Nat.toDigits_ne_nil, fun c hc => isDigit_of_json (Json.isDigit_of_mem_toDigits hc)⟩

/-- An integer is read between blanks; a separator among them makes it fail. -/
theorem coerce_toString [Limits] {n : Int} (hn : n.natAbs < 10 ^ Integer.maxDigits) {a b : String}
    (ha : ∀ c ∈ a.toList, isBlank c) (hb : ∀ c ∈ b.toList, isBlank c) :
    coerce (a ++ toString n ++ b) =
      if (a.toList ++ b.toList).any isSeparator then
        .error (.integer (.malformed 10 (a ++ toString n ++ b)))
      else .ok (.int n) := by
  have hs : (a ++ toString n ++ b).toList = a.toList ++ ((toString n).toList ++ b.toList) := by
    rw [String.toList_append, String.toList_append, List.append_assoc]
  generalize a ++ toString n ++ b = raw at hs ⊢
  have htrim : trim raw.toList = (toString n).toList := by
    rw [hs, trim_blanks_append ha, trim_append_blanks hb,
      trim_of_forall_not_isBlank fun c => not_isBlank_of_mem_toString]
  have hread : Integer.read 10 raw =
      if (a.toList ++ b.toList).any isSeparator then .error (.malformed 10 raw)
      else .ok n := by
    rw [List.any_append]
    by_cases hsep : a.toList.any isSeparator
    · rw [read_of_separator ha (List.any_eq_true.1 hsep) hs, hsep, Bool.true_or, if_pos rfl]
    · have hspaces : ∀ c ∈ a.toList, isNumberSpace c := fun c hc =>
        isNumberSpace_iff.2 ⟨ha c hc, fun h => hsep (List.any_eq_true.2 ⟨c, hc, h⟩)⟩
      rw [read_of_spaces hn hspaces hb hs, eq_false_of_ne_true hsep, Bool.false_or]
  have hlooks : looksInteger (trim raw.toList) := htrim ▸ looksInteger_toString n
  obtain ⟨⟨d, hd, hdigit⟩, -, -⟩ := exists_of_looksInteger hlooks
  rw [coerce_eq_firstOf, readings, firstOf, boolReading_eq_none hd (isTell_of_isDigit hdigit)]
  simp only [firstOf, intReading, asInt, hlooks, if_true, hread]
  split_ifs <;> rfl

/-! ## What a text stands for -/

/-- The readings of a text do not compete: at most one of them gives a value or fails, so they can
    be tried in any order. A text that none applies to stands for itself without its blanks, and so
    does what is left of it. An integer between blanks stands for itself, unless there is a
    separator among the blanks: then the text is taken for an integer and is none. -/
theorem coerce_exact [Limits] (raw : String) :
    (readings.Pairwise fun f g => f raw = .ok none ∨ g raw = .ok none) ∧
    (∀ order : List Reading, order.Perm readings → firstOf order raw = coerce raw) ∧
    ((∀ f ∈ readings, f raw = .ok none) →
      coerce raw = .ok (.str (strip raw)) ∧ coerce (strip raw) = .ok (.str (strip raw))) ∧
    ∀ n : Int, n.natAbs < 10 ^ Integer.maxDigits → ∀ a b : String,
      (∀ c ∈ a.toList, isBlank c) → (∀ c ∈ b.toList, isBlank c) →
      coerce (a ++ toString n ++ b) =
        if (a.toList ++ b.toList).any isSeparator then
          .error (.integer (.malformed 10 (a ++ toString n ++ b)))
        else .ok (.int n) := by
  refine ⟨pairwise_readings raw, fun order h => coerce_readings h raw, fun h => ⟨?_, ?_⟩,
    fun n hn a b ha hb => coerce_toString hn ha hb⟩
  · rw [coerce_eq_firstOf, firstOf_eq_str h]
  · rw [coerce_eq_firstOf, firstOf_eq_str fun f hf => reading_strip hf (h f hf), strip_strip]

/-- A word stays a text, and of two numbers between blanks one is read. -/
theorem coerce_exact_word :
    firstOf readings.reverse " x " = coerce " x " ∧
    coerce " x " = .ok (.str "x") ∧
    coerce (" " ++ toString (-7 : Int) ++ "\n") = .ok (.int (-7)) ∧
    coerce ("\x1F" ++ toString (-7 : Int) ++ "\n") =
      .error (.integer (.malformed 10 "\x1F-7\n")) := by
  obtain ⟨-, horder, hself, hint⟩ := coerce_exact " x "
  have hnone : ∀ f ∈ readings, f " x " = .ok none := by
    simp only [readings, List.forall_mem_cons, List.not_mem_nil, false_imp_iff, implies_true]
    exact ⟨rfl, rfl, rfl, rfl, trivial⟩
  have hblank (s : String) (h : s.toList.all isBlank) : ∀ c ∈ s.toList, isBlank c :=
    List.all_eq_true.1 h
  refine ⟨horder _ (List.reverse_perm _), (hself hnone).1,
    (hint (-7) (by decide +kernel) " " "\n" (hblank _ (by decide)) (hblank _ (by decide))).trans
      (if_neg (by decide)),
    (hint (-7) (by decide +kernel) "\x1F" "\n" (hblank _ (by decide)) (hblank _ (by decide))).trans
      (if_pos (by decide))⟩

end Coercion

end CategoryLint
