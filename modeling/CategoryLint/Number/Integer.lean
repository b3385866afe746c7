import CategoryLint.Number.Decimal
import CategoryLint.Text.CodePoint

/-!
# Integers in text

Reading an integer in some base: blanks, a sign, digits, blanks. The separators
U+001C to U+001F are blank elsewhere and not here. In base ten at most 4300 digits
are converted; the length of the digits is tested before what follows them.
-/

namespace CategoryLint

/-- Why a text is not read as an integer. -/
inductive IntegerError where
  /-- The text is no integer in the base. -/
  | malformed (base : Nat) (text : TextValue)
  /-- The text has more digits than are converted. -/
  | tooLong (digits : Nat)
  deriving DecidableEq, Repr

namespace IntegerError

/-- The wording of the error; a long text is cut. -/
def message : IntegerError → String
  | malformed base text =>
    s!"invalid literal for int() with base {base}: " ++
      String.ofList (text.quote.toList.take 200)
  | tooLong digits =>
    s!"Exceeds the limit (4300 digits) for integer string conversion: value has {digits} digits; "
      ++ "use sys.set_int_max_str_digits() to increase the limit"

end IntegerError

namespace Integer

/-- The greatest number of digits that are converted. -/
def maxDigits : Nat := 4300

/-- The value of a digit or a Latin letter in a base above ten. -/
def digitValue? (base : Nat) (c : Char) : Option Nat :=
  let value? :=
    match Text.digitValue? c with
    | some d => some d
    | none =>
      if 'a' ≤ c ∧ c ≤ 'z' then some (c.toNat - 'a'.toNat + 10)
      else if 'A' ≤ c ∧ c ≤ 'Z' then some (c.toNat - 'A'.toNat + 10)
      else none
  value?.filter (· < base)

/-- The digits at the head of a text and the text after them. -/
def takeDigits (base : Nat) : List Char → List Nat × List Char
  | [] => ([], [])
  | c :: cs =>
    match digitValue? base c with
    | some d => let (ds, rest) := takeDigits base cs; (d :: ds, rest)
    | none => ([], c :: cs)

/-- The letter that marks a base, after a zero. -/
def baseMark? : Nat → Option Char
  | 2 => some 'b'
  | 8 => some 'o'
  | 16 => some 'x'
  | _ => none

/-- A text without the mark of its base. -/
def dropBaseMark (base : Nat) : List Char → List Char
  | '0' :: c :: cs => if baseMark? base = some c.toLower then cs else '0' :: c :: cs
  | cs => cs

/-- Reads an integer. -/
def read (base : Nat) (text : TextValue) : Except IntegerError Int :=
  let cs := (text.points.map CodePoint.shown).dropWhile Text.isNumberSpace
  let (negative, cs) := Decimal.takeSign cs
  let (ds, rest) := takeDigits base (dropBaseMark base cs)
  if ds = [] then .error (.malformed base text)
  else if base = 10 ∧ maxDigits < ds.length then .error (.tooLong ds.length)
  else if rest.dropWhile Text.isNumberSpace ≠ [] then .error (.malformed base text)
  else .ok (if negative then -(Text.digitsToNat base ds : Int) else Text.digitsToNat base ds)

/-- Whether an integer has at most as many digits as are converted to text. -/
def isWritable (n : Int) : Bool := n.natAbs < Decimal.tenPow maxDigits

end Integer

end CategoryLint
