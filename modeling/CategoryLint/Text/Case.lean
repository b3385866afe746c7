import CategoryLint.Text.CaseTable

/-!
# Lower and upper case

The full case mappings: a character may become several, and a capital sigma
becomes the final form `ς` at the end of a word and `σ` elsewhere.
-/

namespace CategoryLint.Text

/-- Whether `c` is passed over when a neighbouring letter is looked for. -/
def isCaseIgnorable (c : Char) : Bool := inSpans caseIgnorableSpans c

/-- Whether `c` is a letter with a case that is not passed over. -/
def isCased (c : Char) : Bool := inSpans casedSpans c

/-- Whether the first character that is not passed over is a cased letter. -/
def meetsCased (cs : List Char) : Bool :=
  match cs.dropWhile isCaseIgnorable with
  | [] => false
  | c :: _ => isCased c

/-- The small form of a capital sigma between `before`, nearest character first,
    and `after`: final if a word ends with it. -/
def smallSigma (before after : List Char) : Char :=
  if meetsCased before && !meetsCased after then 'ς' else 'σ'

/-- The lower-case form of a text that follows `before`, nearest character first. -/
def lowerAfter (before : List Char) : List Char → List Char
  | [] => []
  | c :: cs =>
    (if c = 'Σ' then [smallSigma before cs] else mapChar lowerRuns lowerSpecials c) ++
      lowerAfter (c :: before) cs

/-- The lower-case form of a text. -/
def lowerChars (cs : List Char) : List Char := lowerAfter [] cs

/-- The upper-case form of a text. -/
def upperChars (cs : List Char) : List Char := cs.flatMap (mapChar upperRuns upperSpecials)

/-- The lower-case form of a string. -/
def lower (s : String) : String := String.ofList (lowerChars s.toList)

/-- The upper-case form of a string. -/
def upper (s : String) : String := String.ofList (upperChars s.toList)

end CategoryLint.Text
