/-!
# Splitting and joining

A text is split at every occurrence of a separator, from left to right; between
`n` separators there are `n + 1` parts, some of them possibly empty. Joining the
parts with the separator gives the text back.
-/

namespace CategoryLint.Text

/-- Puts a character in front of the first of several parts. -/
def consFirst (c : Char) : List (List Char) → List (List Char)
  | [] => [[c]]
  | part :: parts => (c :: part) :: parts

/-- The parts of a text between the occurrences of the character `sep`. -/
def splitOn (sep : Char) : List Char → List (List Char)
  | [] => [[]]
  | c :: cs => if c = sep then [] :: splitOn sep cs else consFirst c (splitOn sep cs)

/-- A text has at least one part. -/
theorem splitOn_ne_nil (sep : Char) (cs : List Char) : splitOn sep cs ≠ [] := by
  cases cs with
  | nil => simp [splitOn]
  | cons c cs =>
    simp only [splitOn]
    split
    · simp
    · cases splitOn sep cs <;> simp [consFirst]

/-- The parts of a text, joined with the separator, are the text. -/
theorem intercalate_splitOn (sep : Char) (cs : List Char) :
    [sep].intercalate (splitOn sep cs) = cs := by
  induction cs with
  | nil => simp [splitOn]
  | cons c cs ih =>
    obtain ⟨part, parts, h⟩ := List.exists_cons_of_ne_nil (splitOn_ne_nil sep cs)
    rw [h] at ih
    by_cases hc : c = sep
    · rw [splitOn, if_pos hc, h, hc, ← ih]
      simp [List.intercalate, List.intersperse]
    · rw [splitOn, if_neg hc, h, consFirst, ← ih]
      cases parts <;> simp [List.intercalate, List.intersperse]

/-- The parts of a text between the doubled occurrences of the character `sep`,
    taken from the left: of three in a row, the third belongs to the next part. -/
def splitOnDouble (sep : Char) : List Char → List (List Char)
  | [] => [[]]
  | [c] => [[c]]
  | c :: d :: cs =>
    if c = sep ∧ d = sep then [] :: splitOnDouble sep cs
    else consFirst c (splitOnDouble sep (d :: cs))

/-- Whether `sep` occurs twice in a row. -/
def hasDouble (sep : Char) : List Char → Bool
  | [] => false
  | [_] => false
  | c :: d :: cs => (c = sep ∧ d = sep) || hasDouble sep (d :: cs)

/-- The rest of a text after the literal text `lit`, if it starts with that. -/
def dropLiteral? : (lit : List Char) → List Char → Option (List Char)
  | [], cs => some cs
  | _ :: _, [] => none
  | l :: ls, c :: cs => if l = c then dropLiteral? ls cs else none

end CategoryLint.Text
