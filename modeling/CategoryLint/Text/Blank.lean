import CategoryLint.Text.Span

/-!
# Blank characters

The white space of Unicode, together with the four separators U+001C to U+001F.
Trimming takes all blank characters off both ends of a text, so a trimmed text
is empty or starts and ends with a character that is not blank.
-/

namespace CategoryLint.Text

/-- The blank code points. -/
def blankSpans : List Span :=
  [(0x9, 0xD), (0x1C, 0x20), (0x85, 0x85), (0xA0, 0xA0), (0x1680, 0x1680), (0x2000, 0x200A),
   (0x2028, 0x2029), (0x202F, 0x202F), (0x205F, 0x205F), (0x3000, 0x3000)]

/-- Whether `c` is blank. -/
def isBlank (c : Char) : Bool := inSpans blankSpans c

/-- The separators of files, groups, records and units: blank, but no part of a
    number's surroundings. -/
def isSeparator (c : Char) : Bool := 0x1C ≤ c.toNat && c.toNat ≤ 0x1F

/-- Whether `c` may stand around the digits of a number. -/
def isNumberSpace (c : Char) : Bool := isBlank c && !isSeparator c

/-- A text without the space around a number. -/
def trimNumber (cs : List Char) : List Char :=
  ((cs.dropWhile isNumberSpace).reverse.dropWhile isNumberSpace).reverse

/-- A text without the blank characters at its end. -/
def trimEnd (cs : List Char) : List Char := (cs.reverse.dropWhile isBlank).reverse

/-- A text without the blank characters at both its ends. -/
def trim (cs : List Char) : List Char := trimEnd (cs.dropWhile isBlank)

/-- A string without the blank characters at both its ends. -/
def strip (s : String) : String := String.ofList (trim s.toList)

end CategoryLint.Text
