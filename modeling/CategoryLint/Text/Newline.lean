/-!
# Line ends

A text file may end its lines with a line feed, with a carriage return, or with
both. Reading a file turns each of the three into a line feed.
-/

namespace CategoryLint.Text

/-- Every line end as a line feed. -/
def unifyNewlines : List Char → List Char
  | [] => []
  | '\r' :: '\n' :: cs => '\n' :: unifyNewlines cs
  | '\r' :: cs => '\n' :: unifyNewlines cs
  | c :: cs => c :: unifyNewlines cs

end CategoryLint.Text
