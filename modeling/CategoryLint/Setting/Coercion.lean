import CategoryLint.Json.Reader
import CategoryLint.Text.Case

/-!
# Values in environment variables

The value of an environment variable is text; what it looks like decides which value
it stands for: a truth value, an integer, a decimal number with a point, or JSON in
brackets. Anything else stands for itself, without the blanks around it.
-/

namespace CategoryLint

/-- Why a text has no value. -/
inductive CoercionError where
  /-- An integer cannot be read. -/
  | integer (e : IntegerError)
  /-- A list or an object is inside too many others. -/
  | tooDeep (shape : Shape)
  deriving DecidableEq, Repr

namespace Coercion

/-- A truth value, in letters of either case. -/
def asBool (raw : String) : Option Bool :=
  let word := Text.lower (Text.strip raw)
  if word = "true" then some true
  else if word = "false" then some false
  else none

/-- Whether a text is digits after an optional sign. -/
def looksInteger (cs : List Char) : Bool :=
  let ds := (Decimal.takeSign cs).2
  !ds.isEmpty && ds.all Text.isDigit

/-- An integer. The blanks around it are judged by the rules for reading integers,
    which are stricter than those for trimming. -/
def asInt (raw : String) : Except CoercionError (Option Int) :=
  if looksInteger (Text.trim raw.toList) then
    ((Integer.read 10 raw).map some).mapError .integer
  else .ok none

/-- A decimal number with a point and at least one digit beside it. -/
def asFloat (raw : String) : Option Binary64 :=
  let (negative, cs) := Decimal.takeSign (Text.trim raw.toList)
  let (whole, cs) := Decimal.takeDigits cs
  match cs with
  | '.' :: cs =>
    let (fraction, rest) := Decimal.takeDigits cs
    if rest = [] ∧ whole ++ fraction ≠ [] then
      let d : Decimal := ⟨negative, Text.digitsToNat 10 (whole ++ fraction), -fraction.length⟩
      some d.toBinary64
    else none
  | _ => none

/-- Whether a text stands between two brackets of one kind. -/
def isBracketed (cs : List Char) : Bool :=
  (cs.head? == some '\x7b' && cs.getLast? == some '\x7d')
    || (cs.head? == some '[' && cs.getLast? == some ']')

/-- JSON in brackets; what is not JSON is no value, but an integer with too many digits
    and a value that is too deep are errors. -/
def asJson [Limits] (raw : String) : Except CoercionError (Option Value) :=
  let cs := Text.trim raw.toList
  if isBracketed cs then
    match Json.read cs with
    | .ok v => .ok (some v)
    | .error (.tooLong digits) => .error (.integer (.tooLong digits))
    | .error (.tooDeep shape) => .error (.tooDeep shape)
    | .error _ => .ok none
  else .ok none

/-- The value that a text stands for: the first of the four that it looks like, or
    else itself. -/
def coerce [Limits] (raw : String) : Except CoercionError Value :=
  match asBool raw with
  | some b => .ok (.bool b)
  | none =>
    match asInt raw with
    | .error e => .error e
    | .ok (some n) => .ok (.int n)
    | .ok none =>
      match asFloat raw with
      | some x => .ok (.scalar (.float x))
      | none =>
        match asJson raw with
        | .error e => .error e
        | .ok (some v) => .ok v
        | .ok none => .ok (.str (Text.strip raw))

end Coercion

end CategoryLint
