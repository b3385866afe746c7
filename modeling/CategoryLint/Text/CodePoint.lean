import CategoryLint.Text.Case
import CategoryLint.Text.Quoted

/-!
# Texts with surrogates

A string is made of characters. An escape in a document can also write half of a surrogate
pair, which is a code point and no character, so the text of a value is a string or, if it
has such halves in it, a list of code points. A text is a string whenever it can be one, so
equal texts are written in one way.
-/

namespace CategoryLint

/-- A code point of a text. -/
inductive CodePoint where
  /-- A character. -/
  | char (c : Char)
  /-- A surrogate, by its distance from U+D800. -/
  | surrogate (half : Fin 2048)
  deriving DecidableEq, Repr

namespace CodePoint

/-- The code point with a number. -/
def ofNat (n : Nat) : CodePoint :=
  if 0xD800 ≤ n ∧ n ≤ 0xDFFF then .surrogate (Fin.ofNat 2048 (n - 0xD800))
  else .char (Char.ofNat n)

/-- The character that a code point is shown as; a surrogate is replaced. -/
def shown : CodePoint → Char
  | char c => c
  | surrogate _ => '\uFFFD'

/-- The character that a code point is. -/
def char? : CodePoint → Option Char
  | char c => some c
  | surrogate _ => none

/-- The character that two halves make, if the first is a first half and the second a
    second one. -/
def pair? : CodePoint → CodePoint → Option Char
  | surrogate a, surrogate b =>
    if a.val < 1024 ∧ 1024 ≤ b.val then
      some (Char.ofNat (0x10000 + a.val * 1024 + (b.val - 1024)))
    else none
  | _, _ => none

/-- A text in which two halves that make a character are that character. -/
def joinPairs : List CodePoint → List CodePoint
  | [] => []
  | [p] => [p]
  | p :: q :: ps =>
    match pair? p q with
    | some c => .char c :: joinPairs ps
    | none => p :: joinPairs (q :: ps)

/-- A code point inside the quotation marks `mark`; a surrogate is written by its number. -/
def quote (mark : Char) : CodePoint → List Char
  | char c => Text.quoteChar mark c
  | surrogate half => '\\' :: 'u' :: Text.hexDigits 4 (0xD800 + half.val)

/-- The lower-case form of a text, after the characters `run`, the last first, since its
    last surrogate. -/
def lowerAfter (run : List Char) : List CodePoint → List CodePoint
  | [] => (Text.lowerChars run.reverse).map .char
  | char c :: ps => lowerAfter (c :: run) ps
  | surrogate half :: ps =>
    (Text.lowerChars run.reverse).map .char ++ .surrogate half :: lowerAfter [] ps

end CodePoint

/-- The text of a value. -/
inductive TextValue where
  /-- A string. -/
  | plain (s : String)
  /-- A text with surrogates in it. -/
  | broken (points : List CodePoint)
  deriving DecidableEq, Repr

instance : Coe String TextValue := ⟨.plain⟩

namespace TextValue

/-- The text that code points make. -/
def ofPoints (ps : List CodePoint) : TextValue :=
  match ps.mapM CodePoint.char? with
  | some cs => .plain (String.ofList cs)
  | none => .broken ps

/-- The code points of a text. -/
def points : TextValue → List CodePoint
  | plain s => s.toList.map .char
  | broken ps => ps

/-- The text as it is shown: two surrogates that make a character are that character, and
    any other surrogate is replaced. -/
def shown : TextValue → String
  | plain s => s
  | broken ps => String.ofList ((CodePoint.joinPairs ps).map CodePoint.shown)

/-- The text between quotation marks. -/
def quote : TextValue → String
  | plain s => Text.quote s
  | broken ps =>
    let mark := Text.quoteMark (ps.map CodePoint.shown)
    String.ofList (mark :: ps.flatMap (CodePoint.quote mark) ++ [mark])

/-- The lower-case form of a text. -/
def lower : TextValue → TextValue
  | plain s => .plain (Text.lower s)
  | broken ps => .broken (CodePoint.lowerAfter [] ps)

/-- Characters make a string. -/
theorem ofPoints_map_char (cs : List Char) :
    ofPoints (cs.map CodePoint.char) = .plain (String.ofList cs) := by
  have h : (cs.map CodePoint.char).mapM CodePoint.char? = some cs := by
    induction cs with
    | nil => rfl
    | cons c cs ih => simp [CodePoint.char?, ih]
  rw [ofPoints, h]

/-- A text is made by the code points of the string that it is. -/
theorem ofPoints_points_plain (s : String) : ofPoints (points (.plain s)) = .plain s := by
  rw [points, ofPoints_map_char, String.ofList_toList]

end TextValue

end CategoryLint
