import CategoryLint.Text.Blank
import CategoryLint.Text.Split

/-!
# Documentation blocks and their category header

A pattern file names its categories in its first documentation block, the text from
the first `/**` to the nearest `*/` after it, in a header

    * Categories: featured, hero

The header's asterisk has only blanks before it on its line. The blanks around the
asterisk and after the colon may run over several lines; the value is what is left
of the line after them. If nothing but blanks follows the colon, the value is the
last of them that does not end a line.
-/

namespace CategoryLint.Docblock

/-! ## The block -/

/-- The text up to the end of the first `*/`. -/
def throughEnd? : List Char → Option (List Char)
  | [] => none
  | '*' :: '/' :: _ => some ['*', '/']
  | c :: cs => (throughEnd? cs).map (c :: ·)

/-- The first documentation block of a text. -/
def find? : List Char → Option (List Char)
  | [] => none
  | '/' :: '*' :: '*' :: cs => (throughEnd? cs).map fun body => '/' :: '*' :: '*' :: body
  | _ :: cs => find? cs

/-! ## The header -/

/-- The name of the header. -/
def headerName : List Char := "Categories:".toList

/-- The value of a header, from the text after its colon. -/
def value? (cs : List Char) : Option (List Char) :=
  match cs.dropWhile Text.isBlank with
  | [] => (cs.filter (· ≠ '\n')).getLast?.map ([·])
  | rest => some (rest.takeWhile (· ≠ '\n'))

/-- The value of a header, from the text after its asterisk. -/
def afterAsterisk? (cs : List Char) : Option (List Char) :=
  (Text.dropLiteral? headerName (cs.dropWhile Text.isBlank)).bind value?

/-- The value of the first header of a text; `atHead` says whether only blanks stand
    before the text on its line. -/
def headerFrom? (atHead : Bool) : List Char → Option (List Char)
  | [] => none
  | c :: cs =>
    if c = '*' ∧ atHead then
      match afterAsterisk? cs with
      | some v => some v
      | none => headerFrom? false cs
    else headerFrom? (c = '\n' || (atHead && Text.isBlank c)) cs

/-- The value of the first category header of a text. -/
def header? (cs : List Char) : Option (List Char) := headerFrom? true cs

/-! ## The categories -/

/-- The categories in the value of a header: the trimmed parts between its commas. -/
def categories (value : List Char) : List (List Char) := (Text.splitOn ',' value).map Text.trim

end CategoryLint.Docblock
