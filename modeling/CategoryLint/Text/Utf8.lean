/-!
# UTF-8

Reading bytes as characters. A character takes one to four bytes; the byte after
the first is restricted so that every character has one encoding only and no
surrogate has any. Decoding stops at the first byte at which no whole character
starts, and reports how many bytes were read before it.
-/

namespace CategoryLint.Text

/-- Whether `b` continues a character. -/
def isTail (b : UInt8) : Bool := 0x80 ≤ b && b ≤ 0xBF

/-- The bits that a continuation byte adds to a code point. -/
def tailBits (b : UInt8) : Nat := b.toNat % 64

/-- Whether `b` may follow the first byte `a` of a character of three bytes. -/
def isSecondOfThree (a b : UInt8) : Bool :=
  isTail b && (a != 0xE0 || 0xA0 ≤ b) && (a != 0xED || b ≤ 0x9F)

/-- Whether `b` may follow the first byte `a` of a character of four bytes. -/
def isSecondOfFour (a b : UInt8) : Bool :=
  isTail b && (a != 0xF0 || 0x90 ≤ b) && (a != 0xF4 || b ≤ 0x8F)

/-- The character that starts a list of bytes, and the bytes after it. -/
def nextChar? : List UInt8 → Option (Char × List UInt8)
  | [] => none
  | a :: r =>
    if a ≤ 0x7F then some (Char.ofNat a.toNat, r)
    else match r with
    | [] => none
    | b :: r =>
      if 0xC2 ≤ a && a ≤ 0xDF then
        if isTail b then some (Char.ofNat (a.toNat % 32 * 64 + tailBits b), r) else none
      else match r with
      | [] => none
      | c :: r =>
        if 0xE0 ≤ a && a ≤ 0xEF then
          if isSecondOfThree a b && isTail c then
            some (Char.ofNat ((a.toNat % 16 * 64 + tailBits b) * 64 + tailBits c), r)
          else none
        else match r with
        | [] => none
        | d :: r =>
          if 0xF0 ≤ a && a ≤ 0xF4 && isSecondOfFour a b && isTail c && isTail d then
            some (Char.ofNat
              (((a.toNat % 8 * 64 + tailBits b) * 64 + tailBits c) * 64 + tailBits d), r)
          else none

/-- A character takes at least one byte. -/
theorem length_lt_of_nextChar? {bs r : List UInt8} {c : Char} (h : nextChar? bs = some (c, r)) :
    r.length < bs.length := by
  unfold nextChar? at h
  repeat' split at h
  all_goals simp_all
  all_goals grind

/-- The characters that a list of bytes encodes, or the offset of the first byte
    at which no whole character starts; `offset` bytes were read before. -/
def decodeFrom (offset : Nat) (bs : List UInt8) : Except Nat (List Char) :=
  if bs = [] then .ok []
  else match _h : nextChar? bs with
    | none => .error offset
    | some (c, r) => (decodeFrom (offset + (bs.length - r.length)) r).map (c :: ·)
termination_by bs.length
decreasing_by exact length_lt_of_nextChar? (by assumption)

/-- The characters that a list of bytes encodes, or the offset of the first byte
    at which no whole character starts. -/
def decodeUtf8 (bs : List UInt8) : Except Nat (List Char) := decodeFrom 0 bs

end CategoryLint.Text
