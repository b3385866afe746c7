import CategoryLint.Number.Binary64
import CategoryLint.Text.Blank
import CategoryLint.Text.Digit

/-!
# Decimal numbers

A decimal number is `± digits * 10 ^ exponent`. It is read from text (with a point,
an exponent, digits of any script) and rounded to a binary number.
-/

namespace CategoryLint

/-- The number `± digits * 10 ^ exponent`. -/
structure Decimal where
  /-- Whether the number has a minus sign. -/
  negative : Bool
  /-- The digits, without a point. -/
  digits : Nat
  /-- The power of ten that they are multiplied with. -/
  exponent : Int
  deriving DecidableEq, Repr

namespace Decimal

/-- A power of ten. -/
def tenPow (n : Nat) : Nat := Nat.pow 10 n

/-- The number of decimal digits of `n`, one for zero. -/
def width (n : Nat) : Nat := (Nat.toDigits 10 n).length

/-- The nearest binary number. What lies outside of the binary format by orders
    of magnitude is decided by the size alone. -/
def toBinary64 (d : Decimal) : Binary64 :=
  let size : Int := width d.digits + d.exponent
  if d.digits = 0 then .finite d.negative 0 Binary64.minExponent
  else if 310 < size then .infinite d.negative
  else if size < -330 then .finite d.negative 0 Binary64.minExponent
  else .ofQuotient d.negative (d.digits * tenPow d.exponent.toNat) (tenPow (-d.exponent).toNat)

/-- The sign at the head of a text and the text after it. -/
def takeSign : List Char → Bool × List Char
  | '-' :: cs => (true, cs)
  | '+' :: cs => (false, cs)
  | cs => (false, cs)

/-- The values of the digits at the head of a text and the text after them. -/
def takeDigits : List Char → List Nat × List Char
  | [] => ([], [])
  | c :: cs =>
    match Text.digitValue? c with
    | some d => let (ds, rest) := takeDigits cs; (d :: ds, rest)
    | none => ([], c :: cs)

/-- The fraction at the head of a text, after a point, and the text after it. -/
def takeFraction : List Char → List Nat × List Char
  | '.' :: cs => takeDigits cs
  | cs => ([], cs)

/-- The exponent that is the whole of a text: nothing, or a mark and an integer. -/
def readExponent? : List Char → Option Int
  | [] => some 0
  | c :: cs =>
    let (negative, cs) := takeSign cs
    let (ds, rest) := takeDigits cs
    if (c = 'e' ∨ c = 'E') ∧ ds ≠ [] ∧ rest = [] then
      some (if negative then -(Text.digitsToNat 10 ds : Int) else Text.digitsToNat 10 ds)
    else none

/-- Reads a sign, digits with a point among them or not, and an exponent. -/
def read? (cs : List Char) : Option Decimal :=
  let (negative, cs) := takeSign cs
  let (whole, cs) := takeDigits cs
  let (fraction, cs) := takeFraction cs
  match readExponent? cs with
  | some e =>
    if whole ++ fraction = [] then none
    else some ⟨negative, Text.digitsToNat 10 (whole ++ fraction), e - fraction.length⟩
  | none => none

end Decimal

/-- A text without its underscores; each of them must stand between two digits. `prior`
    says whether a digit stands before the text. -/
def Decimal.dropUnderscores? (prior : Bool) : List Char → Option (List Char)
  | [] => some []
  | c :: cs =>
    if c = '_' then
      if prior ∧ cs.head?.any Text.isDigit then dropUnderscores? false cs else none
    else (dropUnderscores? (Text.isDigit c) cs).map (c :: ·)

/-- Whether a text is `word`, in letters of either case of the Latin alphabet. -/
def Binary64.isWord (word : String) (cs : List Char) : Bool :=
  cs.map Char.toLower == word.toList

/-- Reads a decimal number, an infinity or the word for no number, with space around it and
    underscores between digits. The label is that of a number which is none. -/
def Binary64.read? (label : Nat) (cs : List Char) : Option Binary64 :=
  match Decimal.dropUnderscores? false cs with
  | none => none
  | some cs =>
    let cs := Text.trimNumber cs
    let (negative, word) := Decimal.takeSign cs
    if isWord "nan" word then some (.nan label)
    else if isWord "inf" word || isWord "infinity" word then some (.infinite negative)
    else (Decimal.read? cs).map Decimal.toBinary64

end CategoryLint
