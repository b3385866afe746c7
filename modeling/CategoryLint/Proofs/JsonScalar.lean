import CategoryLint.Json.Printer
import CategoryLint.Json.Reader
import Mathlib.Algebra.Group.Nat.Defs

/-!
# Scalars in JSON

The text of a string or an integer is read back, whatever comes after it. A string is read as
code points: a character beyond U+FFFF is written by two surrogates (`units`), and the reader
joins them again (`joinPairs_flatMap_units`). An integer is read up to the first character that
is no digit, so it must not be followed by one, nor by a fraction or an exponent; what follows a
value in JSON is a comma, a line feed or nothing (`FollowsValue`).
-/

namespace CategoryLint.Json

open Text

/-! ## Escapes -/

theorem hexValue?_hexDigit : ∀ d < 16, hexValue? (hexDigit d) = some d := by
  decide +kernel

/-- Four hexadecimal digits are read as the number that they write. -/
theorem hexNumber?_hexDigits {n : Nat} (h : n < 0x10000) :
    hexNumber? (hexDigits 4 n) = some n := by
  have hdigit : ∀ m, hexValue? (hexDigit (m % 16)) = some (m % 16) := fun m =>
    hexValue?_hexDigit _ (Nat.mod_lt _ (by decide))
  simp only [hexNumber?, hexDigits, List.nil_append, List.cons_append, List.mapM_cons, hdigit]
  simp [digitsToNat]
  omega

/-- An escaped number is read as its code point. -/
theorem readPoints_unitEscape {n : Nat} (h : n < 0x10000) (cs : List Char) :
    readPoints (unitEscape n ++ cs) =
      (readPoints cs).map fun (ps, rest) => (CodePoint.ofNat n :: ps, rest) := by
  have hhex := hexNumber?_hexDigits h
  simp only [hexDigits, List.nil_append, List.cons_append] at hhex
  simp only [unitEscape, hexDigits, List.nil_append, List.cons_append, readPoints, hhex]
  cases readPoints cs <;> rfl

/-! ## Characters -/

/-- The code points that a character is written by: itself, or two surrogates. -/
def units (c : Char) : List CodePoint :=
  if c.toNat < 0x10000 then [.char c]
  else
    [.ofNat (0xD800 + (c.toNat - 0x10000) / 0x400), .ofNat (0xDC00 + (c.toNat - 0x10000) % 0x400)]

theorem isValid_toNat (c : Char) : c.toNat < 0xD800 ∨ 0xDFFF < c.toNat ∧ c.toNat < 0x110000 :=
  c.valid

theorem ofNat_toNat (c : Char) : CodePoint.ofNat c.toNat = .char c := by
  have hc := isValid_toNat c
  rw [CodePoint.ofNat, if_neg (by omega), Char.ofNat_toNat]

theorem units_of_lt {c : Char} (h : c.toNat < 0x10000) : units c = [.ofNat c.toNat] := by
  rw [units, if_pos h, ofNat_toNat]

/-- A character that is written as it is. -/
theorem readPoints_cons {c : Char} (hq : c ≠ '"') (hb : c ≠ '\\') (hc : 0x20 ≤ c.toNat)
    (cs : List Char) :
    readPoints (c :: cs) = (readPoints cs).map fun (ps, rest) => (.char c :: ps, rest) := by
  rw [readPoints, if_neg (by simp [hb]; omega)]
  · exact hq
  · exact fun _ _ _ _ _ h => absurd h hb
  · exact fun _ _ h => absurd h hb

/-- A character that is written by a letter after a backslash. -/
theorem readPoints_letter {c e : Char} (he : escaped? e = some c.toNat) (hc : c.toNat < 0x10000)
    (cs : List Char) :
    readPoints (['\\', e] ++ cs) =
      (readPoints cs).map fun (ps, rest) => (units c ++ ps, rest) := by
  have hu : e ≠ 'u' := fun h => by simp [h, escaped?] at he
  rw [List.cons_append, List.cons_append, List.nil_append, readPoints, he, units_of_lt hc]
  · cases readPoints cs <;> rfl
  · exact fun _ _ _ _ _ h => absurd h hu

/-- The characters that are written by a letter after a backslash, with the letter. -/
def lettered : List (Char × Char) :=
  [('"', '"'), ('\\', '\\'), ('\n', 'n'), ('\r', 'r'), ('\t', 't'), ('\x08', 'b'), ('\x0C', 'f')]

/-- The characters that are escaped by letters, checked one by one. -/
theorem escapeChar_lettered : ∀ l ∈ lettered, escapeChar l.1 = ['\\', l.2] ∧
    escaped? l.2 = some l.1.toNat ∧ l.1.toNat < 0x10000 ∧ l.2.toNat < 0x80 := by
  decide

/-- Any other character is itself, or one or two numbers. -/
theorem escapeChar_of_not_mem {c : Char} (h : c ∉ lettered.map (·.1)) :
    escapeChar c =
      if 0x20 ≤ c.toNat ∧ c.toNat ≤ 0x7E then [c]
      else if c.toNat < 0x10000 then unitEscape c.toNat
      else
        unitEscape (0xD800 + (c.toNat - 0x10000) / 0x400) ++
          unitEscape (0xDC00 + (c.toNat - 0x10000) % 0x400) := by
  simp only [lettered, List.map_cons, List.map_nil, List.mem_cons, List.not_mem_nil, or_false,
    not_or] at h
  simp only [escapeChar, h, if_false]

/-- An escaped character is read as its units. -/
theorem readPoints_escapeChar (c : Char) (cs : List Char) :
    readPoints (escapeChar c ++ cs) =
      (readPoints cs).map fun (ps, rest) => (units c ++ ps, rest) := by
  by_cases h : c ∈ lettered.map (·.1)
  · obtain ⟨l, hl, rfl⟩ := List.mem_map.1 h
    obtain ⟨hc, he, hlt, -⟩ := escapeChar_lettered l hl
    rw [hc, readPoints_letter he hlt]
  · rw [escapeChar_of_not_mem h]
    have hquote : c ≠ '"' := fun e => h (e ▸ by decide)
    have hslash : c ≠ '\\' := fun e => h (e ▸ by decide)
    split
    · next hc =>
      rw [List.singleton_append, readPoints_cons hquote hslash hc.1, units, if_pos (by omega)]
      rfl
    · split
      · next hlt => rw [readPoints_unitEscape hlt, units_of_lt hlt]; rfl
      · next hge =>
        have hc := isValid_toNat c
        rw [List.append_assoc, readPoints_unitEscape (by omega), readPoints_unitEscape (by omega),
          units, if_neg hge, Option.map_map]
        rfl

/-! ## Strings -/

/-- The two units of a character outside of the first plane make that character. -/
theorem pair?_units {c : Char} (h : ¬c.toNat < 0x10000) :
    CodePoint.pair? (.ofNat (0xD800 + (c.toNat - 0x10000) / 0x400))
      (.ofNat (0xDC00 + (c.toNat - 0x10000) % 0x400)) = some c := by
  have hc := isValid_toNat c
  obtain ⟨n, hn⟩ : ∃ n, c.toNat = 0x10000 + n := Nat.exists_eq_add_of_le (Nat.not_lt.1 h)
  rw [hn, Nat.add_sub_cancel_left]
  -- Each surrogate keeps ten of the twenty bits of `n`.
  have hhigh : (Fin.ofNat 2048 (0xD800 + n / 0x400 - 0xD800)).val = n / 0x400 := by
    simp only [Fin.val_ofNat]
    omega
  have hlow : (Fin.ofNat 2048 (0xDC00 + n % 0x400 - 0xD800)).val = 0x400 + n % 0x400 := by
    simp only [Fin.val_ofNat]
    omega
  rw [CodePoint.ofNat, if_pos (by omega), CodePoint.ofNat, if_pos (by omega), CodePoint.pair?,
    hhigh, hlow, if_pos (by omega)]
  have hsum : 0x10000 + n / 0x400 * 1024 + (0x400 + n % 0x400 - 1024) = c.toNat := by omega
  rw [hsum, Char.ofNat_toNat]

theorem joinPairs_char (c : Char) (ps : List CodePoint) :
    CodePoint.joinPairs (.char c :: ps) = .char c :: CodePoint.joinPairs ps := by
  cases ps with
  | nil => rfl
  | cons p ps => simp [CodePoint.joinPairs, CodePoint.pair?]

/-- Joining the surrogates gives the characters back. -/
theorem joinPairs_flatMap_units (cs : List Char) :
    CodePoint.joinPairs (cs.flatMap units) = cs.map .char := by
  induction cs with
  | nil => rfl
  | cons c cs ih =>
    rw [List.flatMap_cons, List.map_cons, units]
    split
    · rw [List.singleton_append, joinPairs_char, ih]
    · next h =>
      simp only [List.cons_append, List.nil_append, CodePoint.joinPairs, pair?_units h, ih]

/-- An escaped text is read as its units, up to the quotation mark after it. -/
theorem readPoints_flatMap (cs rest : List Char) :
    readPoints (cs.flatMap escapeChar ++ '"' :: rest) = some (cs.flatMap units, rest) := by
  induction cs with
  | nil => simp [readPoints]
  | cons c cs ih =>
    rw [List.flatMap_cons, List.append_assoc, readPoints_escapeChar, ih, List.flatMap_cons]
    rfl

/-- A string is read back, after its opening quotation mark. -/
theorem readString_flatMap (s : String) (rest : List Char) :
    readString (s.toList.flatMap escapeChar ++ '"' :: rest) = .ok (.plain s, rest) := by
  rw [readString, readPoints_flatMap]
  simp only [joinPairs_flatMap_units, TextValue.ofPoints_map_char, String.ofList_toList]

/-! ## Integers -/

/-- What can follow a value: a comma, the end of a line or nothing. -/
def FollowsValue (rest : List Char) : Prop := ∀ c ∈ rest.head?, c = ',' ∨ c = '\n'

theorem isDigit_of_mem_toDigits {n : Nat} {c : Char} (h : c ∈ Nat.toDigits 10 n) : isDigit c :=
  Nat.isDigit_of_mem_toDigits (by decide) (by decide) h

theorem ne_of_isDigit {d : Char} (hd : isDigit d) {cs : List Char} (h : ¬cs.any isDigit) :
    ∀ c ∈ cs, d ≠ c :=
  fun c hc e => h (List.any_eq_true.2 ⟨c, hc, e ▸ hd⟩)

/-- No digit can follow a value. -/
theorem FollowsValue.not_isDigit {rest : List Char} (h : FollowsValue rest) :
    ∀ c ∈ rest.head?, ¬isDigit c := by
  intro c hc
  rcases h c hc with rfl | rfl <;> decide

/-- The digits of a number start with a zero only if it is zero. -/
theorem exists_toDigits_eq (n : Nat) :
    ∃ d ds, Nat.toDigits 10 n = d :: ds ∧ (d = '0' → n = 0) := by
  induction n using Nat.strongRecOn with
  | ind n ih =>
    by_cases hlt : n < 10
    · have hdigit : ∀ d < 10, Nat.digitChar d = '0' → d = 0 := by decide
      exact ⟨_, [], Nat.toDigits_of_lt_base hlt, hdigit n hlt⟩
    · -- The first digit is that of the number without its last one, which is not zero.
      obtain ⟨d, ds, hds, hzero⟩ := ih (n / 10) (by omega)
      rw [Nat.toDigits_of_base_le (by decide) (Nat.not_lt.1 hlt), hds]
      refine ⟨d, _, List.cons_append, fun hd => ?_⟩
      have hquotient := hzero hd
      omega

/-- The digits of a number are taken, and no more. -/
theorem takeWhole_toDigits (n : Nat) {rest : List Char} (h : FollowsValue rest) :
    takeWhole (Nat.toDigits 10 n ++ rest) = (Nat.toDigits 10 n, rest) := by
  by_cases hn : n = 0
  · rw [hn, Nat.toDigits_zero]
    rfl
  · have hdigits : ∀ c ∈ Nat.toDigits 10 n, isDigit c := fun c hc => isDigit_of_mem_toDigits hc
    rw [takeWhole, List.takeWhile_append_of_pos hdigits, List.dropWhile_append_of_pos hdigits]
    · cases rest with
      | nil => simp
      | cons c rest =>
        have hc := h.not_isDigit c rfl
        rw [List.takeWhile_cons, if_neg hc, List.dropWhile_cons, if_neg hc, List.append_nil]
    · obtain ⟨d, ds, hds, hzero⟩ := exists_toDigits_eq n
      intro cs hcs
      rw [hds, List.cons_append, List.cons.injEq] at hcs
      exact hn (hzero hcs.1)

theorem digitsNumber_toDigits (n : Nat) : digitsNumber (Nat.toDigits 10 n) = n := by
  rw [digitsNumber, digitsToNat, List.foldl_map]
  simpa only [Nat.ofDigitChars, Nat.mul_comm] using @Nat.ofDigitChars_ten_toDigits n

/-- A written magnitude is read with its sign, if it has no more digits than are read. -/
theorem readNumber_toDigits (negative : Bool) {n : Nat} (hn : n < 10 ^ Integer.maxDigits)
    {rest : List Char} (h : FollowsValue rest) :
    readNumber negative (Nat.toDigits 10 n ++ rest) =
      .ok (.int (if negative then -(n : Int) else n), rest) := by
  have hfraction : takeFraction? rest = none := by
    rcases rest with _ | ⟨c, rest⟩
    · rfl
    · rcases h c rfl with rfl | rfl <;> simp [takeFraction?]
  have hexponent : takeExponent? rest = none := by
    rcases rest with _ | ⟨c, rest⟩
    · rfl
    · rcases h c rfl with rfl | rfl <;> simp [takeExponent?]
  have hlen : ¬Integer.maxDigits < (Nat.toDigits 10 n).length :=
    Nat.not_lt.2 ((Nat.length_toDigits_le_iff (by decide) (by decide)).2 hn)
  simp only [readNumber, takeWhole_toDigits n h, if_neg Nat.toDigits_ne_nil, hfraction, hexponent,
    Option.getD_none, Option.isSome_none, Bool.or_self, Bool.false_eq_true, if_false, if_neg hlen,
    digitsNumber_toDigits]

/-! ## Scalars -/

theorem toList_toString_natCast (n : Nat) :
    (toString (n : Int)).toList = Nat.toDigits 10 n := Nat.toList_repr

theorem toList_toString_negSucc (n : Nat) :
    (toString (Int.negSucc n)).toList = '-' :: Nat.toDigits 10 (n + 1) := by
  have hrepr : toString (Int.negSucc n) = "-" ++ Nat.repr (n + 1) := rfl
  rw [hrepr, String.toList_append, Nat.toList_repr]
  rfl

/-- No word for a value starts with a quotation mark or with a digit after an optional sign. -/
theorem readWord?_eq_none {c : Char} (hc : c = '"' ∨ isDigit c) (cs : List Char) :
    readWord? (c :: cs) = none ∧ readWord? ('-' :: c :: cs) = none := by
  have hne : ∀ d ∈ ['n', 't', 'f', 'N', 'I', '-'], d ≠ c := by
    rcases hc with rfl | hc
    · simp
    · exact fun d hd => (ne_of_isDigit hc (by decide) d hd).symm
  simp only [List.forall_mem_cons, List.not_mem_nil] at hne
  simp [readWord?, words, dropLiteral?, hne]

/-- A written text is read as that text. -/
theorem readScalar_string (s : String) (rest : List Char) :
    readScalar (writeString s ++ rest) = .ok (.str s, rest) := by
  rw [writeString, List.append_assoc, List.cons_append, List.singleton_append, readScalar,
    (readWord?_eq_none (.inl rfl) _).1]
  simp only [readString_flatMap]
  rfl

theorem exists_toDigits_eq_cons (n : Nat) :
    ∃ d ds, Nat.toDigits 10 n = d :: ds ∧ isDigit d := by
  obtain ⟨d, ds, hds, -⟩ := exists_toDigits_eq n
  exact ⟨d, ds, hds, isDigit_of_mem_toDigits (hds ▸ List.mem_cons_self)⟩

/-- The text of an integer starts with a digit or a minus sign. -/
theorem exists_toString_eq_cons (n : Int) :
    ∃ c cs, (toString n).toList = c :: cs ∧ (c = '-' ∨ isDigit c) := by
  cases n with
  | ofNat n =>
    obtain ⟨d, ds, hds, hd⟩ := exists_toDigits_eq_cons n
    exact ⟨d, ds, (toList_toString_natCast n).trans hds, .inr hd⟩
  | negSucc n => exact ⟨'-', _, toList_toString_negSucc n, .inl rfl⟩

theorem readScalar_null (rest : List Char) :
    readScalar ("null".toList ++ rest) = .ok (.null, rest) := by
  simp [readScalar, readWord?, words, dropLiteral?]

theorem readScalar_bool (b : Bool) (rest : List Char) :
    readScalar (writeScalar (.bool b) ++ rest) = .ok (.bool b, rest) := by
  cases b <;> simp [writeScalar, readScalar, readWord?, words, dropLiteral?]

/-- A written integer is read as that integer. -/
theorem readScalar_int {n : Int} (hn : n.natAbs < 10 ^ Integer.maxDigits) {rest : List Char}
    (h : FollowsValue rest) :
    readScalar ((toString n).toList ++ rest) = .ok (.int n, rest) := by
  cases n with
  | ofNat n =>
    obtain ⟨d, ds, hds, hd⟩ := exists_toDigits_eq_cons n
    have hnumber : readNumber false (Nat.toDigits 10 n ++ rest) = .ok (.int n, rest) :=
      readNumber_toDigits false hn h
    rw [Int.ofNat_eq_natCast, toList_toString_natCast, hds, List.cons_append, readScalar,
      (readWord?_eq_none (.inr hd) _).1]
    rw [hds, List.cons_append] at hnumber
    · exact hnumber
    · exact fun _ hcons => by simp [(List.cons.inj hcons).1, isDigit] at hd
    · exact fun _ hcons => by simp [(List.cons.inj hcons).1, isDigit] at hd
  | negSucc n =>
    obtain ⟨d, ds, hds, hd⟩ := exists_toDigits_eq_cons (n + 1)
    have hnumber : readNumber true (Nat.toDigits 10 (n + 1) ++ rest) =
        .ok (.int (Int.negSucc n), rest) :=
      readNumber_toDigits true hn h
    rw [toList_toString_negSucc, hds, List.cons_append, List.cons_append, readScalar,
      (readWord?_eq_none (.inr hd) _).2]
    rw [hds, List.cons_append] at hnumber
    exact hnumber

end CategoryLint.Json
