import CategoryLint.Text.Quoted
import CategoryLint.Value.Literal

/-!
# Writing JSON

A value as JSON text of ASCII characters, each item and field on a line of its own,
two blanks further in than what it belongs to. A character beyond ASCII is written
by its number, one beyond U+FFFF by a pair of surrogates.
-/

namespace CategoryLint.Json

/-- An escape by a number of four hexadecimal digits. -/
def unitEscape (n : Nat) : List Char := '\\' :: 'u' :: Text.hexDigits 4 n

/-- A character inside a string. -/
def escapeChar (c : Char) : List Char :=
  if c = '"' then ['\\', '"']
  else if c = '\\' then ['\\', '\\']
  else if c = '\n' then ['\\', 'n']
  else if c = '\r' then ['\\', 'r']
  else if c = '\t' then ['\\', 't']
  else if c = '\x08' then ['\\', 'b']
  else if c = '\x0C' then ['\\', 'f']
  else if 0x20 ≤ c.toNat ∧ c.toNat ≤ 0x7E then [c]
  else if c.toNat < 0x10000 then unitEscape c.toNat
  else
    let n := c.toNat - 0x10000
    unitEscape (0xD800 + n / 0x400) ++ unitEscape (0xDC00 + n % 0x400)

/-- A string. -/
def writeString (s : String) : List Char := '"' :: s.toList.flatMap escapeChar ++ ['"']

/-- A code point inside a string. -/
def escapePoint : CodePoint → List Char
  | .char c => escapeChar c
  | .surrogate half => unitEscape (0xD800 + half.val)

/-- A text as a string. -/
def writeText : TextValue → List Char
  | .plain s => writeString s
  | .broken ps => '"' :: ps.flatMap escapePoint ++ ['"']

/-- A floating-point number, by its shortest text or by a word. -/
def writeFloat : Binary64 → List Char
  | .nan _ => "NaN".toList
  | .infinite negative => if negative then "-Infinity".toList else "Infinity".toList
  | x => x.text.toList

/-- A scalar; bytes, a day and a time are written as text. -/
def writeScalar : Scalar → List Char
  | .null => "null".toList
  | .bool b => if b then "true".toList else "false".toList
  | .int n => (toString n).toList
  | .float x => writeFloat x
  | .str s => writeText s
  | .bytes bs => writeString (Text.quoteBytes bs)
  | .date d => writeString d.text
  | .timestamp t => writeString (t.text "T")

/-- The name of a field with a key. -/
def writeName : Scalar → List Char
  | .str s => writeText s
  | k => writeString k.text

/-- The start of a line at a depth. -/
def newline (depth : Nat) : List Char := '\n' :: List.replicate (2 * depth) ' '

mutual

/-- A value whose first line stands at a depth; what JSON has no form for is written as
    text. -/
def writeValue (depth : Nat) : Value → List Char
  | .scalar s => writeScalar s
  | .list [] => ['[', ']']
  | .list (v :: vs) =>
    '[' :: newline (depth + 1) ++ writeValue (depth + 1) v ++ writeItems (depth + 1) vs
      ++ newline depth ++ [']']
  | .mapping [] => ['\x7b', '\x7d']
  | .mapping ((k, v) :: es) =>
    '\x7b' :: newline (depth + 1) ++ writeName k ++ [':', ' '] ++ writeValue (depth + 1) v
      ++ writeFields (depth + 1) es ++ newline depth ++ ['\x7d']
  | .pairs items => writeString (Value.literal (.pairs items))
  | .set members => writeString (Value.literal (.set members))
  | .link shape number => writeString (Value.literal (.link shape number))

/-- The items of a list after the first. -/
def writeItems (depth : Nat) : List Value → List Char
  | [] => []
  | v :: vs => ',' :: newline depth ++ writeValue depth v ++ writeItems depth vs

/-- The entries of a mapping after the first. -/
def writeFields (depth : Nat) : List (Scalar × Value) → List Char
  | [] => []
  | (k, v) :: es =>
    ',' :: newline depth ++ writeName k ++ [':', ' '] ++ writeValue depth v
      ++ writeFields depth es

end

/-- A value as JSON text. -/
def write (v : Value) : List Char := writeValue 0 v

end CategoryLint.Json
