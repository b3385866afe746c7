import CategoryLint.Yaml.Lexeme

/-!
# Scalars in the flow of a line

Scalars without quotation marks, with single and with double ones. They may run over
several lines: one line end is a blank, of several in a row the first is left out. In
double marks a backslash starts an escape.
-/

namespace CategoryLint.Yaml

/-- The line ends `breaks` after the line end `first`, as a scalar keeps them. -/
def foldBreaks (first : Char) (breaks : List Char) : List Char :=
  if breakChar first ≠ '\n' then breakChar first :: breaks
  else if breaks = [] then [' ']
  else breaks

/-! ## Plain scalars -/

/-- Whether a plain scalar stops before `c`, when `rest` follows. -/
def stopsPlain (flow : Bool) (c : Char) (rest : List Char) : Bool :=
  c = ' ' || c = '\t' || isBreak c
    || (c = ':' && (atGap rest || (flow && rest.head?.any (isOneOf ",[]\x7b\x7d"))))
    || (flow && isOneOf ",?[]\x7b\x7d" c)

/-- The characters up to where a plain scalar stops. -/
def takeWord (flow : Bool) : List Char → List Char × List Char
  | [] => ([], [])
  | c :: cs =>
    if stopsPlain flow c cs then ([], c :: cs)
    else let (word, rest) := takeWord flow cs; (c :: word, rest)

/-- What lies between two words of a plain scalar. -/
structure Between where
  /-- What the scalar keeps of it; nothing, before a separator of documents. -/
  kept : Option (List Char)
  /-- The text after it. -/
  rest : List Char
  /-- Whether a line ended. -/
  broke : Bool
  /-- The column of the text after it, if a line ended. -/
  column : Nat

/-- The spaces and line ends after a first line end: what is kept of them, the text
    after them, and its column. -/
def takeBreaks (column : Nat) : List Char → Option (List Char) × List Char × Nat
  | [] => (some [], [], column)
  | c :: cs =>
    if c = ' ' then takeBreaks (column + 1) cs
    else if isBreak c then
      if atSeparator cs then (none, cs, 0)
      else
        let (breaks, rest, column) := takeBreaks 0 cs
        (breaks.map (breakChar c :: ·), rest, column)
    else (some [], c :: cs, column)

/-- What lies between two words of a plain scalar. -/
def takeBetween (cs : List Char) : Between :=
  let spaces := cs.takeWhile (· = ' ')
  match cs.dropWhile (· = ' ') with
  | [] => ⟨some spaces, [], false, 0⟩
  | c :: rest =>
    if isBreak c then
      if atSeparator rest then ⟨none, rest, true, 0⟩
      else
        let (breaks, rest, column) := takeBreaks 0 rest
        ⟨breaks.map (foldBreaks c), rest, true, column⟩
    else ⟨some spaces, c :: rest, false, 0⟩

/-- A plain scalar as it is read. -/
structure Plain where
  /-- Its characters. -/
  text : List Char
  /-- The text after it. -/
  rest : List Char
  /-- Whether a line ended after its last word. -/
  broke : Bool

/-- The words of a plain scalar after `between`, in lines of at least the column
    `indent`. `fuel` bounds the number of words. -/
def readWords (flow : Bool) (indent : Int) :
    (fuel : Nat) → (between : List Char) → (broke : Bool) → List Char → Plain
  | 0, _, broke, cs => ⟨[], cs, broke⟩
  | fuel + 1, between, broke, cs =>
    let (word, rest) := takeWord flow cs
    if cs.head? = some '#' ∨ word = [] then ⟨[], cs, broke⟩
    else
      let next := takeBetween rest
      match next.kept with
      | some (c :: kept) =>
        if next.rest.head? = some '#' ∨ (!flow ∧ next.broke ∧ (next.column : Int) < indent) then
          ⟨between ++ word, next.rest, next.broke⟩
        else
          let more := readWords flow indent fuel (c :: kept) next.broke next.rest
          { more with text := between ++ word ++ more.text }
      | _ => ⟨between ++ word, next.rest, next.broke⟩

/-- A plain scalar in lines of at least the column `indent`. -/
def readPlain (flow : Bool) (indent : Int) (cs : List Char) : Plain :=
  readWords flow indent cs.length [] false cs

/-! ## Quoted scalars -/

/-- The blanks and line ends after a line end, up to the next character; a separator of
    documents is not allowed at the start of a line. -/
def takeQuotedBreaks (lineStart : Bool) : List Char → Except Fault (List Char × List Char)
  | [] => .ok ([], [])
  | c :: cs =>
    if lineStart && atSeparator (c :: cs) then .error .invalid
    else if c = ' ' || c = '\t' then takeQuotedBreaks false cs
    else if isBreak c then
      (takeQuotedBreaks true cs).map fun (breaks, rest) => (breakChar c :: breaks, rest)
    else .ok ([], c :: cs)

/-- The blanks inside a quoted scalar, as it keeps them. -/
def takeQuotedSpace (cs : List Char) : Except Fault (List Char × List Char) :=
  let isSpace c := c = ' ' || c = '\t'
  match cs.dropWhile isSpace with
  | [] => .error .ended
  | c :: rest =>
    if isBreak c then
      (takeQuotedBreaks true rest).map fun (breaks, rest) => (foldBreaks c breaks, rest)
    else .ok (cs.takeWhile isSpace, c :: rest)

/-- The character that a letter after a backslash stands for. -/
def escapedChar? : Char → Option Char
  | '0' => some '\x00'
  | 'a' => some '\x07'
  | 'b' => some '\x08'
  | 't' => some '\t'
  | '\t' => some '\t'
  | 'n' => some '\n'
  | 'v' => some '\x0B'
  | 'f' => some '\x0C'
  | 'r' => some '\r'
  | 'e' => some '\x1B'
  | ' ' => some ' '
  | '"' => some '"'
  | '\\' => some '\\'
  | '/' => some '/'
  | 'N' => some '\x85'
  | '_' => some '\xA0'
  | 'L' => some '\u2028'
  | 'P' => some '\u2029'
  | _ => none

/-- How many hexadecimal digits follow a letter after a backslash. -/
def escapeWidth? : Char → Option Nat
  | 'x' => some 2
  | 'u' => some 4
  | 'U' => some 8
  | _ => none

/-- What an escape stands for, from the text after its backslash. -/
def readEscape : List Char → Except Fault (List CodePoint × List Char)
  | [] => .error .ended
  | c :: cs =>
    match escapedChar? c, escapeWidth? c with
    | some e, _ => .ok ([.char e], cs)
    | none, some width =>
      match Json.hexNumber? (cs.take width) with
      | some n =>
        if cs.length < width then .error .ended
        else if 0x10FFFF < n then .error (.scalar (.escape n))
        else .ok ([.ofNat n], cs.drop width)
      | none => .error .invalid
    | none, none =>
      if isBreak c then
        (takeQuotedBreaks true cs).map fun (breaks, rest) => (breaks.map .char, rest)
      else .error .invalid

/-- The next piece of a scalar in the quotation marks `mark`: an escape, blanks, two marks
    for one, or a character. -/
def readPiece (mark c : Char) (cs : List Char) : Except Fault (List CodePoint × List Char) :=
  if c = '\\' ∧ mark = '"' then readEscape cs
  else if c = ' ' || c = '\t' || isBreak c then
    (takeQuotedSpace (c :: cs)).map fun (kept, rest) => (kept.map .char, rest)
  else if c = mark then .ok ([.char mark], cs.drop 1)
  else .ok ([.char c], cs)

/-- A quoted scalar, after its first quotation mark. `fuel` bounds the number of its
    pieces, and the length of the text suffices. -/
def readQuoted (mark : Char) :
    (fuel : Nat) → List Char → Except Fault (List CodePoint × List Char)
  | 0, _ => .error .ended
  | _ + 1, [] => .error .ended
  | fuel + 1, c :: cs =>
    if c = mark ∧ ¬(mark = '\'' ∧ cs.head? = some '\'') then .ok ([], cs)
    else
      match readPiece mark c cs with
      | .error e => .error e
      | .ok (head, rest) =>
        (readQuoted mark fuel rest).map fun (tail, rest) => (head ++ tail, rest)

end CategoryLint.Yaml
