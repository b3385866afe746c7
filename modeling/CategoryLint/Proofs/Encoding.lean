import CategoryLint.Text.Utf8

/-!
# Encoded text

Decoding undoes encoding: the bytes of a text, those of each character after those of the one
before, are read as that text (`decodeUtf8_encodeUtf8`). It is enough to see this for the first
character, whatever bytes come after it (`nextChar?_append`), once for each of the four lengths
that a character can have.
-/

namespace CategoryLint.Text

/-- The bytes that encode a text. -/
def encodeUtf8 (cs : List Char) : List UInt8 := cs.flatMap String.utf8EncodeChar

/-! ## Bytes as numbers -/

variable {a b c d l h : UInt8} {m n : Nat} {r : List UInt8}

theorem not_le_of_toNat_lt (hlt : h.toNat < a.toNat) : ¬a ≤ h := fun hle =>
  Nat.not_le.2 hlt (UInt8.le_iff_toNat_le.1 hle)

/-- Ranges of bytes are ranges of numbers. -/
theorem between_iff :
    (decide (l ≤ a) && decide (a ≤ h)) = true ↔ l.toNat ≤ a.toNat ∧ a.toNat ≤ h.toNat := by
  rw [Bool.and_eq_true, decide_eq_true_iff, decide_eq_true_iff, UInt8.le_iff_toNat_le,
    UInt8.le_iff_toNat_le]

theorem not_between_of_toNat_lt (hlt : h.toNat < a.toNat) :
    ¬(decide (l ≤ a) && decide (a ≤ h)) = true := fun hle =>
  Nat.not_le.2 hlt (between_iff.1 hle).2

/-- A condition on a byte that counts after one first byte only. -/
theorem bne_or_iff {p : Bool} : (a != l || p) = true ↔ (a.toNat = l.toNat → p = true) := by
  rw [Bool.or_eq_true, bne_iff_ne, Ne, ← UInt8.toNat_inj, Decidable.imp_iff_not_or]

/-- What may come second in three bytes, by numbers. -/
theorem isSecondOfThree_iff : isSecondOfThree a b ↔ isTail b ∧
    (a.toNat = 0xE0 → 0xA0 ≤ b.toNat) ∧ (a.toNat = 0xED → b.toNat ≤ 0x9F) := by
  rw [isSecondOfThree, Bool.and_eq_true, Bool.and_eq_true, bne_or_iff, bne_or_iff,
    decide_eq_true_iff, decide_eq_true_iff, UInt8.le_iff_toNat_le, UInt8.le_iff_toNat_le, and_assoc]
  rfl

/-- What may come second in four bytes, by numbers. -/
theorem isSecondOfFour_iff : isSecondOfFour a b ↔ isTail b ∧
    (a.toNat = 0xF0 → 0x90 ≤ b.toNat) ∧ (a.toNat = 0xF4 → b.toNat ≤ 0x8F) := by
  rw [isSecondOfFour, Bool.and_eq_true, Bool.and_eq_true, bne_or_iff, bne_or_iff,
    decide_eq_true_iff, decide_eq_true_iff, UInt8.le_iff_toNat_le, UInt8.le_iff_toNat_le, and_assoc]
  rfl

/-! ## Reading a character of some length -/

/-- A character of one byte is read. -/
theorem nextChar?_one (ha : a.toNat ≤ 0x7F) :
    nextChar? (a :: r) = some (Char.ofNat a.toNat, r) := by
  have hone : a ≤ 0x7F := UInt8.le_iff_toNat_le.2 ha
  unfold nextChar?
  simp only [if_pos hone]

/-- A character of two bytes is read. -/
theorem nextChar?_two (ha : 0xC2 ≤ a.toNat ∧ a.toNat ≤ 0xDF) (hb : isTail b) :
    nextChar? (a :: b :: r) = some (Char.ofNat (a.toNat % 32 * 64 + tailBits b), r) := by
  have hone : ¬a ≤ 0x7F := not_le_of_toNat_lt (by change 0x7F < _; omega)
  have htwo : (0xC2 ≤ a && a ≤ 0xDF) = true := between_iff.2 ha
  unfold nextChar?
  simp only [if_neg hone, if_pos htwo, if_pos hb]

/-- A character of three bytes is read. -/
theorem nextChar?_three (ha : 0xE0 ≤ a.toNat ∧ a.toNat ≤ 0xEF) (hb : isSecondOfThree a b)
    (hc : isTail c) : nextChar? (a :: b :: c :: r) =
      some (Char.ofNat ((a.toNat % 16 * 64 + tailBits b) * 64 + tailBits c), r) := by
  have hone : ¬a ≤ 0x7F := not_le_of_toNat_lt (by change 0x7F < _; omega)
  have htwo : ¬(0xC2 ≤ a && a ≤ 0xDF) = true :=
    not_between_of_toNat_lt (by change 0xDF < _; omega)
  have hthree : (0xE0 ≤ a && a ≤ 0xEF) = true := between_iff.2 ha
  have htail : (isSecondOfThree a b && isTail c) = true := Bool.and_eq_true_iff.2 ⟨hb, hc⟩
  unfold nextChar?
  simp only [if_neg hone, if_neg htwo, if_pos hthree, if_pos htail]

/-- A character of four bytes is read. -/
theorem nextChar?_four (ha : 0xF0 ≤ a.toNat ∧ a.toNat ≤ 0xF4) (hb : isSecondOfFour a b)
    (hc : isTail c) (hd : isTail d) : nextChar? (a :: b :: c :: d :: r) =
      some (Char.ofNat
        (((a.toNat % 8 * 64 + tailBits b) * 64 + tailBits c) * 64 + tailBits d), r) := by
  have hone : ¬a ≤ 0x7F := not_le_of_toNat_lt (by change 0x7F < _; omega)
  have htwo : ¬(0xC2 ≤ a && a ≤ 0xDF) = true :=
    not_between_of_toNat_lt (by change 0xDF < _; omega)
  have hthree : ¬(0xE0 ≤ a && a ≤ 0xEF) = true :=
    not_between_of_toNat_lt (by change 0xEF < _; omega)
  have hfour : (0xF0 ≤ a && a ≤ 0xF4) = true := between_iff.2 ha
  have htail : (0xF0 ≤ a && a ≤ 0xF4 && isSecondOfFour a b && isTail c && isTail d) = true := by
    rw [hfour, hb, hc, hd]
    rfl
  unfold nextChar?
  simp only [if_neg hone, if_neg htwo, if_neg hthree, if_pos htail]

/-! ## Writing a character -/

/-- The first byte of a character: bits of its code point after the mark for its length. -/
def headByte (m n : Nat) : UInt8 := UInt8.ofNat (n + m)

/-- A continuation byte: the last six bits of a number after the mark for continuation. -/
def tailByte (n : Nat) : UInt8 := UInt8.ofNat (n % 64 + 0x80)

theorem toNat_headByte (hlt : n + m < 256) : (headByte m n).toNat = n + m := by
  rw [headByte, UInt8.toNat_ofNat', Nat.mod_eq_of_lt hlt]

theorem toNat_tailByte (n : Nat) : (tailByte n).toNat = n % 64 + 0x80 := by
  rw [tailByte, UInt8.toNat_ofNat', Nat.mod_eq_of_lt (by omega)]

/-- The bytes after the first continue a character. -/
theorem isTail_tailByte (n : Nat) : isTail (tailByte n) := by
  rw [isTail, between_iff, toNat_tailByte]
  change 0x80 ≤ _ ∧ _ ≤ 0xBF
  omega

theorem tailBits_tailByte (n : Nat) : tailBits (tailByte n) = n % 64 := by
  rw [tailBits, toNat_tailByte]
  omega

/-- The bytes of the character with a code point, as `String.utf8EncodeChar` has them. -/
def codeBytes (n : Nat) : List UInt8 :=
  if n ≤ 0x7F then [headByte 0 n]
  else if n ≤ 0x7FF then [headByte 0xC0 (n / 64 % 32), tailByte n]
  else if n ≤ 0xFFFF then [headByte 0xE0 (n / 4096 % 16), tailByte (n / 64), tailByte n]
  else [headByte 0xF0 (n / 262144 % 8), tailByte (n / 4096), tailByte (n / 64), tailByte n]

/-- A code point is read from its bytes, and the bytes after it are left. -/
theorem nextChar?_codeBytes (hn : n < 0xD800 ∨ 0xDFFF < n ∧ n < 0x110000) (r : List UInt8) :
    nextChar? (codeBytes n ++ r) = some (Char.ofNat n, r) := by
  rw [codeBytes]
  split
  · have ha : (headByte 0 n).toNat = n := toNat_headByte (by omega)
    rw [List.singleton_append, nextChar?_one (by omega), ha]
  split
  · have ha : (headByte 0xC0 (n / 64 % 32)).toNat = n / 64 % 32 + 0xC0 :=
      toNat_headByte (by omega)
    have hcode : (n / 64 % 32 + 0xC0) % 32 * 64 + n % 64 = n := by omega
    rw [List.cons_append, List.singleton_append, nextChar?_two (by omega) (isTail_tailByte n), ha,
      tailBits_tailByte, hcode]
  split
  · have ha : (headByte 0xE0 (n / 4096 % 16)).toNat = n / 4096 % 16 + 0xE0 :=
      toNat_headByte (by omega)
    have hb : isSecondOfThree (headByte 0xE0 (n / 4096 % 16)) (tailByte (n / 64)) := by
      -- A shorter code point and a surrogate would fail here.
      refine isSecondOfThree_iff.2 ⟨isTail_tailByte _, ?_, ?_⟩
      · rw [ha, toNat_tailByte]
        omega
      · rw [ha, toNat_tailByte]
        omega
    have hcode : ((n / 4096 % 16 + 0xE0) % 16 * 64 + n / 64 % 64) * 64 + n % 64 = n := by omega
    rw [List.cons_append, List.cons_append, List.singleton_append,
      nextChar?_three (by omega) hb (isTail_tailByte n), ha, tailBits_tailByte, tailBits_tailByte,
      hcode]
  · have ha : (headByte 0xF0 (n / 262144 % 8)).toNat = n / 262144 % 8 + 0xF0 :=
      toNat_headByte (by omega)
    have hb : isSecondOfFour (headByte 0xF0 (n / 262144 % 8)) (tailByte (n / 4096)) := by
      refine isSecondOfFour_iff.2 ⟨isTail_tailByte _, ?_, ?_⟩
      · rw [ha, toNat_tailByte]
        omega
      · rw [ha, toNat_tailByte]
        omega
    have hcode : (((n / 262144 % 8 + 0xF0) % 8 * 64 + n / 4096 % 64) * 64 + n / 64 % 64) * 64 +
        n % 64 = n := by omega
    rw [List.cons_append, List.cons_append, List.cons_append, List.singleton_append,
      nextChar?_four (by omega) hb (isTail_tailByte _) (isTail_tailByte n), ha, tailBits_tailByte,
      tailBits_tailByte, tailBits_tailByte, hcode]

/-- A character is read from its bytes, and the bytes after it are left. -/
theorem nextChar?_append (c : Char) (r : List UInt8) :
    nextChar? (String.utf8EncodeChar c ++ r) = some (c, r) := by
  have hread := nextChar?_codeBytes (n := c.toNat) c.valid r
  rwa [Char.ofNat_toNat] at hread

/-! ## Texts -/

theorem decodeFrom_nil (offset : Nat) : decodeFrom offset [] = .ok [] := by
  rw [decodeFrom, if_pos rfl]

/-- The decoder stops where no character starts. -/
theorem decodeFrom_of_nextChar?_eq_none {bs : List UInt8} (hne : bs ≠ [])
    (h : nextChar? bs = none) (offset : Nat) : decodeFrom offset bs = .error offset := by
  rw [decodeFrom, if_neg hne]
  split
  · rfl
  · next hsome =>
    rw [h] at hsome
    cases hsome

/-- The decoder goes on after a character. -/
theorem decodeFrom_of_nextChar? {bs : List UInt8} {c : Char} (h : nextChar? bs = some (c, r))
    (offset : Nat) :
    decodeFrom offset bs = (decodeFrom (offset + (bs.length - r.length)) r).map (c :: ·) := by
  have hne : bs ≠ [] := fun hnil => by simp [hnil, nextChar?] at h
  rw [decodeFrom, if_neg hne]
  split
  · next hnone =>
    rw [h] at hnone
    cases hnone
  · next hsome =>
    rw [h] at hsome
    cases hsome
    rfl

/-- The bytes of a text are read as that text, and the bytes after them from there on. -/
theorem decodeFrom_encodeUtf8_append (offset : Nat) (cs : List Char) (r : List UInt8) :
    decodeFrom offset (encodeUtf8 cs ++ r) =
      (decodeFrom (offset + (encodeUtf8 cs).length) r).map (cs ++ ·) := by
  induction cs generalizing offset with
  | nil =>
    rw [encodeUtf8, List.flatMap_nil, List.nil_append, List.length_nil, Nat.add_zero]
    cases decodeFrom offset r <;> rfl
  | cons c cs ih =>
    have henc : encodeUtf8 (c :: cs) ++ r = String.utf8EncodeChar c ++ (encodeUtf8 cs ++ r) :=
      List.append_assoc ..
    have hlen : offset + ((encodeUtf8 (c :: cs) ++ r).length - (encodeUtf8 cs ++ r).length) +
        (encodeUtf8 cs).length = offset + (encodeUtf8 (c :: cs)).length := by
      rw [henc, List.length_append, Nat.add_sub_cancel]
      simp only [encodeUtf8, List.flatMap_cons, List.length_append]
      omega
    rw [decodeFrom_of_nextChar? (henc ▸ nextChar?_append c (encodeUtf8 cs ++ r)), ih, hlen]
    cases decodeFrom (offset + (encodeUtf8 (c :: cs)).length) r <;> rfl

/-- The bytes of a text are read as that text. -/
theorem decodeUtf8_encodeUtf8 (cs : List Char) : decodeUtf8 (encodeUtf8 cs) = .ok cs := by
  have hread := decodeFrom_encodeUtf8_append 0 cs []
  rw [decodeFrom_nil, List.append_nil] at hread
  exact hread.trans (congrArg Except.ok (List.append_nil cs))

end CategoryLint.Text
