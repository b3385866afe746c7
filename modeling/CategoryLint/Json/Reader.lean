import CategoryLint.Limits
import CategoryLint.Number.Decimal
import CategoryLint.Number.Integer
import CategoryLint.Text.Split
import CategoryLint.Value.Basic

/-!
# Reading JSON

A reader for JSON text, with the words `NaN`, `Infinity` and `-Infinity` as numbers
besides. A number without a fraction and an exponent is an integer, of at most 4300
digits; any other is rounded to a floating-point number. Of the fields of an object
with one name the last gives the value and the first the position. Lists and objects are
read up to a depth.
-/

namespace CategoryLint.Json

/-- Why a text is not read. -/
inductive ReadError where
  /-- No value starts at an offset. -/
  | noValue (offset : Nat)
  /-- There is more than a value, from an offset on. -/
  | extra (offset : Nat)
  /-- The text is not JSON. -/
  | malformed
  /-- The text holds an integer with more digits than are converted. -/
  | tooLong (digits : Nat)
  /-- A list or an object is inside too many others. -/
  | tooDeep (shape : Shape)
  deriving DecidableEq, Repr

/-- The place of an offset in a text, by its line and its column. -/
def placeText (text : List Char) (offset : Nat) : String :=
  let before := text.take offset
  let line := before.count '\n' + 1
  let column := (before.reverse.takeWhile (· ≠ '\n')).length + 1
  s!"line {line} column {column} (char {offset})"

/-- The wording of the error about a text. -/
def ReadError.message (text : List Char) : ReadError → String
  | noValue offset => "Expecting value: " ++ placeText text offset
  | extra offset => "Extra data: " ++ placeText text offset
  | malformed => "the text is not JSON"
  | tooLong digits => s!"an integer has {digits} digits"
  | tooDeep .list =>
    "maximum recursion depth exceeded while decoding a JSON array from a unicode string"
  | tooDeep _ =>
    "maximum recursion depth exceeded while decoding a JSON object from a unicode string"

/-- Whether `c` may stand between the parts of a text. -/
def isSpace (c : Char) : Bool := c = ' ' || c = '\t' || c = '\n' || c = '\r'

/-- A text without the space at its head. -/
def skipSpace (cs : List Char) : List Char := cs.dropWhile isSpace

/-! ## Strings -/

/-- The value of a hexadecimal digit. -/
def hexValue? (c : Char) : Option Nat :=
  if '0' ≤ c ∧ c ≤ '9' then some (c.toNat - '0'.toNat)
  else if 'a' ≤ c ∧ c ≤ 'f' then some (c.toNat - 'a'.toNat + 10)
  else if 'A' ≤ c ∧ c ≤ 'F' then some (c.toNat - 'A'.toNat + 10)
  else none

/-- The number written by hexadecimal digits. -/
def hexNumber? (cs : List Char) : Option Nat := (cs.mapM hexValue?).map (Text.digitsToNat 16)

/-- The character that a letter after a backslash stands for. -/
def escaped? : Char → Option Nat
  | '"' => some 0x22
  | '\\' => some 0x5C
  | '/' => some 0x2F
  | 'b' => some 0x08
  | 'f' => some 0x0C
  | 'n' => some 0x0A
  | 'r' => some 0x0D
  | 't' => some 0x09
  | _ => none

/-- The code points that the characters and escapes of a string stand for, up to its
    closing quotation mark, and the text after it. -/
def readPoints : List Char → Option (List CodePoint × List Char)
  | [] => none
  | '"' :: cs => some ([], cs)
  | '\\' :: 'u' :: a :: b :: c :: d :: cs =>
    match hexNumber? [a, b, c, d], readPoints cs with
    | some n, some (ps, rest) => some (.ofNat n :: ps, rest)
    | _, _ => none
  | '\\' :: c :: cs =>
    match escaped? c, readPoints cs with
    | some n, some (ps, rest) => some (.ofNat n :: ps, rest)
    | _, _ => none
  | c :: cs =>
    if c.toNat < 0x20 ∨ c = '\\' then none
    else (readPoints cs).map fun (ps, rest) => (.char c :: ps, rest)

/-- A string, after its opening quotation mark, and the text after it. Two surrogates that
    make a character are that character. -/
def readString (cs : List Char) : Except ReadError (TextValue × List Char) :=
  match readPoints cs with
  | some (ps, rest) => .ok (.ofPoints (CodePoint.joinPairs ps), rest)
  | none => .error .malformed

/-! ## Numbers -/

/-- Whether `c` is one of the digits 0 to 9. -/
def isDigit (c : Char) : Bool := '0' ≤ c && c ≤ '9'

/-- The number written by digits 0 to 9. -/
def digitsNumber (ds : List Char) : Nat := Text.digitsToNat 10 (ds.map fun d => d.toNat - '0'.toNat)

/-- The whole part at the head of a number: a zero, or digits without one at their
    head. -/
def takeWhole : List Char → List Char × List Char
  | '0' :: cs => (['0'], cs)
  | cs => (cs.takeWhile isDigit, cs.dropWhile isDigit)

/-- The digits after a point, and the text after them; without a digit the point is
    no part of the number. -/
def takeFraction? : List Char → Option (List Char × List Char)
  | '.' :: cs =>
    let ds := cs.takeWhile isDigit
    if ds = [] then none else some (ds, cs.dropWhile isDigit)
  | _ => none

/-- The exponent at the head of a text, and the text after it. -/
def takeExponent? : List Char → Option (Int × List Char)
  | c :: cs =>
    let (negative, digits) := Decimal.takeSign cs
    let ds := digits.takeWhile isDigit
    if (c = 'e' ∨ c = 'E') ∧ ds ≠ [] then
      some (if negative then -(digitsNumber ds : Int) else digitsNumber ds,
        digits.dropWhile isDigit)
    else none
  | [] => none

/-- A number, after its sign, and the text after it. -/
def readNumber (negative : Bool) (cs : List Char) : Except ReadError (Value × List Char) :=
  let (whole, cs) := takeWhole cs
  if whole = [] then .error .malformed
  else
    let fraction? := takeFraction? cs
    let (fraction, cs) := fraction?.getD ([], cs)
    let exponent? := takeExponent? cs
    let (exponent, cs) := exponent?.getD (0, cs)
    if fraction?.isSome || exponent?.isSome then
      let d : Decimal := ⟨negative, digitsNumber (whole ++ fraction), exponent - fraction.length⟩
      .ok (.scalar (.float d.toBinary64), cs)
    else if Integer.maxDigits < whole.length then .error (.tooLong whole.length)
    else .ok (.int (if negative then -(digitsNumber whole : Int) else digitsNumber whole), cs)

/-! ## Values -/

/-- The words that stand for a value. -/
def words : List (String × Value) :=
  [("null", .null), ("true", .bool true), ("false", .bool false),
   ("NaN", .scalar (.float (.nan 0))), ("Infinity", .scalar (.float (.infinite false))),
   ("-Infinity", .scalar (.float (.infinite true)))]

/-- The word at the head of a text, and the text after it. -/
def readWord? (cs : List Char) : Option (Value × List Char) :=
  words.findSome? fun (word, v) => (Text.dropLiteral? word.toList cs).map fun rest => (v, rest)

/-- A scalar, and the text after it. -/
def readScalar (cs : List Char) : Except ReadError (Value × List Char) :=
  match readWord? cs with
  | some result => .ok result
  | none =>
    match cs with
    | '"' :: cs => (readString cs).map fun (s, rest) => (.scalar (.str s), rest)
    | '-' :: cs => readNumber true cs
    | cs => readNumber false cs

mutual

/-- A value, and the text after it. At most `depth` lists and objects are inside each other;
    `fuel` bounds the number of parts, and the length of the text suffices. -/
def readValue : (fuel depth : Nat) → List Char → Except ReadError (Value × List Char)
  | 0, _, _ => .error .malformed
  | _ + 1, 0, '[' :: _ => .error (.tooDeep .list)
  | fuel + 1, depth + 1, '[' :: cs =>
    match skipSpace cs with
    | ']' :: rest => .ok (.list [], rest)
    | cs => (readItems fuel depth cs).map fun (vs, rest) => (.list vs, rest)
  | _ + 1, 0, '\x7b' :: _ => .error (.tooDeep .mapping)
  | fuel + 1, depth + 1, '\x7b' :: cs =>
    match skipSpace cs with
    | '\x7d' :: rest => .ok (.mapping [], rest)
    | cs => (readFields fuel depth [] cs).map fun (es, rest) => (.mapping es, rest)
  | _ + 1, _, cs => readScalar cs

/-- The items of a list up to its end, and the text after it. -/
def readItems : (fuel depth : Nat) → List Char → Except ReadError (List Value × List Char)
  | 0, _, _ => .error .malformed
  | fuel + 1, depth, cs =>
    match readValue fuel depth cs with
    | .error e => .error e
    | .ok (v, rest) =>
      match skipSpace rest with
      | ']' :: rest => .ok ([v], rest)
      | ',' :: rest =>
        (readItems fuel depth (skipSpace rest)).map fun (vs, rest) => (v :: vs, rest)
      | _ => .error .malformed

/-- The fields of an object up to its end, after the entries read before, and the
    text after it. -/
def readFields :
    (fuel depth : Nat) → Entries → List Char → Except ReadError (Entries × List Char)
  | 0, _, _, _ => .error .malformed
  | fuel + 1, depth, es, '"' :: cs =>
    match readString cs with
    | .error e => .error e
    | .ok (name, rest) =>
      match skipSpace rest with
      | ':' :: rest =>
        match readValue fuel depth (skipSpace rest) with
        | .error e => .error e
        | .ok (v, rest) =>
          let es := es.put (.str name) v
          match skipSpace rest with
          | '\x7d' :: rest => .ok (es, rest)
          | ',' :: rest => readFields fuel depth es (skipSpace rest)
          | _ => .error .malformed
      | _ => .error .malformed
  | _ + 1, _, _, _ => .error .malformed

end

/-- Whether a string, a list or an object starts at the head of a text. -/
def opensValue : List Char → Bool
  | '"' :: _ | '[' :: _ | '\x7b' :: _ => true
  | _ => false

/-- The value that a text is, with space around it. -/
def read [Limits] (cs : List Char) : Except ReadError Value :=
  let body := skipSpace cs
  match readValue (cs.length + 1) Limits.json body with
  | .error .malformed =>
    .error (if opensValue body then .malformed else .noValue (cs.length - body.length))
  | .error e => .error e
  | .ok (v, rest) =>
    match skipSpace rest with
    | [] => .ok v
    | rest => .error (.extra (cs.length - rest.length))

end CategoryLint.Json
