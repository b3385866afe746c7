/-!
# Base 64

Reading bytes that are written in base 64: four characters for three bytes, and padding at
the end. Characters outside of the alphabet are passed over, and so is what follows the
padding. A text that ends within a group of four has no value.
-/

namespace CategoryLint.Text

/-- The value of a character of the alphabet. -/
def base64Value? (c : Char) : Option Nat :=
  if 'A' ≤ c ∧ c ≤ 'Z' then some (c.toNat - 'A'.toNat)
  else if 'a' ≤ c ∧ c ≤ 'z' then some (c.toNat - 'a'.toNat + 26)
  else if '0' ≤ c ∧ c ≤ '9' then some (c.toNat - '0'.toNat + 52)
  else if c = '+' then some 62
  else if c = '/' then some 63
  else none

/-- How far a group of four characters has been read. -/
structure Base64Group where
  /-- The number of characters read. -/
  count : Nat := 0
  /-- The bits that have not become part of a byte. -/
  bits : Nat := 0
  /-- The number of padding characters since the last other one. -/
  pads : Nat := 0

/-- The group after a character with a value, and the byte that it completes. -/
def Base64Group.step (g : Base64Group) (value : Nat) : Base64Group × List UInt8 :=
  match g.count with
  | 0 => ({ count := 1, bits := value }, [])
  | 1 => ({ count := 2, bits := value % 16 }, [UInt8.ofNat (g.bits * 4 + value / 16)])
  | 2 => ({ count := 3, bits := value % 4 }, [UInt8.ofNat (g.bits * 16 + value / 4)])
  | _ => ({}, [UInt8.ofNat (g.bits * 64 + value)])

/-- The bytes that a text writes after a part of a group. -/
def decodeBase64After (g : Base64Group) : List Char → Option (List UInt8)
  | [] => if g.count = 0 then some [] else none
  | c :: cs =>
    if c = '=' then
      if g.count < 2 then decodeBase64After g cs
      else if 4 ≤ g.count + g.pads + 1 then some []
      else decodeBase64After { g with pads := g.pads + 1 } cs
    else
      match base64Value? c with
      | none => decodeBase64After g cs
      | some value =>
        let (g, bytes) := g.step value
        (decodeBase64After g cs).map (bytes ++ ·)

/-- The bytes that a text writes in base 64. -/
def decodeBase64? (cs : List Char) : Option (List UInt8) := decodeBase64After {} cs

end CategoryLint.Text
