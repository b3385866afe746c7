import CategoryLint.Yaml.Lexeme

/-!
# Block scalars

A scalar that takes the following lines as they stand (`|`), or folds them (`>`). All
lines start at one column, that of the first line with text or one that is given. Of the
line ends after the text one is kept, all (`+`), or none (`-`).
-/

namespace CategoryLint.Yaml

/-- What becomes of the line ends after the text. -/
inductive Chomping where
  /-- One is kept. -/
  | clip
  /-- None is kept. -/
  | strip
  /-- All are kept. -/
  | keep
  deriving DecidableEq

/-- The header of a block scalar. -/
structure BlockHeader where
  /-- What becomes of the line ends after the text. -/
  chomping : Chomping := .clip
  /-- How much further in the lines start, if that is given. -/
  increment : Option Nat := none

/-- The sign for the line ends after the text. -/
def chompingOf? : Char → Option Chomping
  | '+' => some .keep
  | '-' => some .strip
  | _ => none

/-- The digit for the column of the lines; zero is not allowed. -/
def incrementOf? (c : Char) : Option Nat :=
  if '0' ≤ c ∧ c ≤ '9' then some (c.toNat - '0'.toNat) else none

/-- The header of a block scalar, after its mark: a sign and a digit, in either order. -/
def readHeaderSigns (cs : List Char) : BlockHeader × List Char :=
  match cs with
  | [] => ({}, [])
  | c :: rest =>
    match chompingOf? c, incrementOf? c with
    | some chomping, _ =>
      match rest.head?.bind incrementOf? with
      | some n => ({ chomping, increment := some n }, rest.drop 1)
      | none => ({ chomping }, rest)
    | none, some n =>
      match rest.head?.bind chompingOf? with
      | some chomping => ({ chomping, increment := some n }, rest.drop 1)
      | none => ({ increment := some n }, rest)
    | none, none => ({}, c :: rest)

/-- The header of a block scalar with the end of its line. -/
def readBlockHeader (cs : List Char) : Except Fault (BlockHeader × List Char) :=
  let (header, rest) := readHeaderSigns cs
  if header.increment = some 0 ∨ !atSpace rest then .error .invalid
  else (skipLineEnd rest).map fun rest => (header, rest)

/-- The empty lines before the text: their ends, the text after them, its column, and
    the greatest column in them. -/
def takeLeading (column greatest : Nat) : List Char → List Char × List Char × Nat × Nat
  | [] => ([], [], column, greatest)
  | c :: cs =>
    if c = ' ' then takeLeading (column + 1) (max greatest (column + 1)) cs
    else if isBreak c then
      let (breaks, rest, column, greatest) := takeLeading 0 greatest cs
      (breakChar c :: breaks, rest, column, greatest)
    else ([], c :: cs, column, greatest)

/-- The empty lines between lines that start at the column `indent`: their ends, the
    text after them, and its column. -/
def takeEmptyLines (indent column : Nat) : List Char → List Char × List Char × Nat
  | [] => ([], [], column)
  | c :: cs =>
    if c = ' ' ∧ column < indent then takeEmptyLines indent (column + 1) cs
    else if isBreak c then
      let (breaks, rest, column) := takeEmptyLines indent 0 cs
      (breakChar c :: breaks, rest, column)
    else ([], c :: cs, column)

/-- Whether a line starts further in than its scalar. -/
def isIndented (cs : List Char) : Bool := cs.head?.any fun c => c = ' ' || c = '\t'

/-- The lines of a block scalar that start at the column `indent`, after the line ends
    `breaks`: the text up to the last line, that line's end, the line ends after it, and
    the text after them. `fuel` bounds the number of lines. -/
def readLines (folded : Bool) (indent : Nat) :
    (fuel : Nat) → (breaks : List Char) → List Char →
      List Char × List Char × List Char × List Char
  | 0, breaks, cs => ([], [], breaks, cs)
  | fuel + 1, breaks, cs =>
    let line := cs.takeWhile fun c => !isBreak c
    let after := cs.dropWhile fun c => !isBreak c
    let lineEnd := (after.take 1).map breakChar
    let (between, rest, column) := takeEmptyLines indent 0 (after.drop 1)
    if column = indent ∧ rest ≠ [] then
      let joint :=
        if folded ∧ lineEnd = ['\n'] ∧ !isIndented cs ∧ !isIndented rest then
          if between = [] then [' '] else []
        else lineEnd
      let (text, last) := readLines folded indent fuel between rest
      (breaks ++ line ++ joint ++ text, last)
    else (breaks ++ line, lineEnd, between, rest)

/-- A block scalar, after its mark; `parent` is the column of what it belongs to. -/
def readBlock (folded : Bool) (parent : Int) (cs : List Char) :
    Except Fault (List Char × List Char) :=
  match readBlockHeader cs with
  | .error e => .error e
  | .ok (header, cs) =>
    let least := (max (parent + 1) 1).toNat
    let (indent, breaks, rest, column) :=
      match header.increment with
      | some n =>
        let indent := least + n - 1
        (indent, takeEmptyLines indent 0 cs)
      | none =>
        let (breaks, rest, column, greatest) := takeLeading 0 0 cs
        (max least greatest, breaks, rest, column)
    let (text, lineEnd, breaks, rest) :=
      if column = indent ∧ rest ≠ [] then readLines folded indent rest.length breaks rest
      else ([], [], breaks, rest)
    .ok (text ++ (if header.chomping = .strip then [] else lineEnd)
      ++ (if header.chomping = .keep then breaks else []), rest)

end CategoryLint.Yaml
