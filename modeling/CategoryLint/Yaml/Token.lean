import CategoryLint.Yaml.BlockScalar
import CategoryLint.Yaml.Directive
import CategoryLint.Yaml.FlowScalar

/-!
# Tokens

A document as a list of tokens. Collections in blocks are known by the columns of
their lines, and their starts and ends are tokens of their own. A key on one line is
known only by the colon after it: when the colon is met, the token for the key, and if
need be the one for the start of its mapping, is put in front of what was read since.
-/

namespace CategoryLint.Yaml

/-- A token. -/
inductive Token where
  /-- A directive before a document. -/
  | directive (d : Directive)
  /-- The start of a document. -/
  | documentStart
  /-- The end of a document. -/
  | documentEnd
  /-- The start of a sequence in a block. -/
  | blockSequenceStart
  /-- The start of a mapping in a block. -/
  | blockMappingStart
  /-- The end of a collection in a block. -/
  | blockEnd
  /-- An opening square bracket. -/
  | flowSequenceStart
  /-- A closing square bracket. -/
  | flowSequenceEnd
  /-- An opening brace. -/
  | flowMappingStart
  /-- A closing brace. -/
  | flowMappingEnd
  /-- A dash before an item. -/
  | blockEntry
  /-- A comma. -/
  | flowEntry
  /-- The start of a key. -/
  | key
  /-- The start of a value. -/
  | value
  /-- A reference to an anchor. -/
  | alias (name : String)
  /-- A name for a node. -/
  | anchor (name : String)
  /-- A tag of a node. -/
  | tag (tag : RawTag)
  /-- A scalar, and whether it is plain. -/
  | scalar (text : TextValue) (plain : Bool)
  /-- No more tokens can be read. -/
  | fault (f : Fault)

/-- The place of a token that a key may start with. -/
structure Candidate where
  /-- The flow collections around it. -/
  level : Nat
  /-- The number of tokens before it. -/
  token : Nat
  /-- Whether a key must be here. -/
  required : Bool
  /-- Its offset in the document. -/
  index : Nat
  /-- Its line. -/
  line : Nat
  /-- Its column. -/
  column : Nat

/-- How far a document has been read. -/
structure Scan where
  /-- The text that is left. -/
  rest : List Char
  /-- The number of characters read. -/
  index : Nat := 0
  /-- The current line. -/
  line : Nat := 0
  /-- The current column. -/
  column : Nat := 0
  /-- The number of flow collections that are open. -/
  level : Nat := 0
  /-- The column of the innermost block collection. -/
  indent : Int := -1
  /-- The columns of the block collections around it, the innermost first. -/
  outer : List Int := []
  /-- Whether a key may start here. -/
  allowKey : Bool := true
  /-- The tokens that keys may start with, at most one for a level. -/
  candidates : List Candidate := []
  /-- The tokens so far. -/
  tokens : Array Token := #[]

namespace Scan

/-! ## Moving on -/

/-- The position after a character. The byte order mark takes no column. -/
def pass (s : Scan) (c : Char) : Scan :=
  if isBreak c then { s with index := s.index + 1, line := s.line + 1, column := 0 }
  else if c = '\uFEFF' then { s with index := s.index + 1 }
  else { s with index := s.index + 1, column := s.column + 1 }

/-- Moves on to a later text. -/
def moveTo (s : Scan) (rest : List Char) : Scan :=
  { (s.rest.take (s.rest.length - rest.length)).foldl pass s with rest }

/-- Adds a token. -/
def push (s : Scan) (t : Token) : Scan := { s with tokens := s.tokens.push t }

/-- Adds a token that stands for the next characters. -/
def pushOver (s : Scan) (width : Nat) (t : Token) : Scan := (s.moveTo (s.rest.drop width)).push t

/-- The text after blanks, comments and line ends, and whether a line ended. -/
def skipGap (comment : Bool) : List Char → List Char × Bool
  | [] => ([], false)
  | c :: cs =>
    if isBreak c then ((skipGap false cs).1, true)
    else if comment then skipGap true cs
    else if c = ' ' then skipGap false cs
    else if c = '#' then skipGap true cs
    else (c :: cs, false)

/-- Moves on to the next token. After the end of a line in a block a key may start. A
    byte order mark at the start of the document is passed over. -/
def skip (s : Scan) : Scan :=
  let s := if s.index = 0 ∧ s.rest.head? = some '\uFEFF' then s.moveTo (s.rest.drop 1) else s
  let (rest, broke) := skipGap false s.rest
  let s := s.moveTo rest
  { s with allowKey := s.allowKey || (broke && s.level = 0) }

/-! ## Keys -/

/-- Whether a candidate is on an earlier line or too far back. -/
def isStale (s : Scan) (k : Candidate) : Bool := k.line ≠ s.line || 1024 < s.index - k.index

/-- Drops the candidates that are on an earlier line or too far back. A key that must be
    there and is not is a fault. -/
def dropStale (s : Scan) : Except Fault Scan :=
  if s.candidates.any fun k => s.isStale k && k.required then .error .invalid
  else .ok { s with candidates := s.candidates.filter fun k => !s.isStale k }

/-- Drops the candidate of the current level. -/
def dropCandidate (s : Scan) : Except Fault Scan :=
  if s.candidates.any fun k => k.level = s.level && k.required then .error .invalid
  else .ok { s with candidates := s.candidates.filter fun k => k.level ≠ s.level }

/-- Notes that a key may start with the next token. -/
def noteCandidate (s : Scan) : Except Fault Scan :=
  if s.allowKey then
    let k : Candidate :=
      { level := s.level, token := s.tokens.size, required := s.level = 0 ∧ s.indent = s.column,
        index := s.index, line := s.line, column := s.column }
    (dropCandidate s).map fun s => { s with candidates := k :: s.candidates }
  else .ok s

/-! ## Blocks -/

/-- Ends the block collections that start right of a column. -/
def unwind (column : Int) : (indent : Int) → (outer : List Int) → List Token × Int × List Int
  | indent, [] => ([], indent, [])
  | indent, o :: outer =>
    if column < indent then
      let (ends, result) := unwind column o outer
      (.blockEnd :: ends, result)
    else ([], indent, o :: outer)

/-- Ends the block collections that start right of a column, outside of flow
    collections. -/
def unwindTo (s : Scan) (column : Int) : Scan :=
  if s.level ≠ 0 then s
  else
    let (ends, indent, outer) := unwind column s.indent s.outer
    { s with tokens := s.tokens ++ ends, indent, outer }

/-- Starts a block collection at a column, unless there is one; its token goes before
    the token with a number. -/
def openBlock (s : Scan) (column : Nat) (start : Token) (number : Nat) : Scan :=
  if s.indent < column then
    { s with
      outer := s.indent :: s.outer
      indent := column
      tokens := s.tokens.insertIdxIfInBounds number start }
  else s

/-! ## Tokens -/

/-- A dash before an item. -/
def readBlockEntry (s : Scan) : Except Fault Scan :=
  if s.level = 0 ∧ !s.allowKey then .error .invalid
  else
    let s := if s.level = 0 then s.openBlock s.column .blockSequenceStart s.tokens.size else s
    (dropCandidate { s with allowKey := true }).map (·.pushOver 1 .blockEntry)

/-- A question mark before a key. -/
def readKey (s : Scan) : Except Fault Scan :=
  if s.level = 0 ∧ !s.allowKey then .error .invalid
  else
    let s := if s.level = 0 then s.openBlock s.column .blockMappingStart s.tokens.size else s
    (dropCandidate { s with allowKey := s.level = 0 }).map (·.pushOver 1 .key)

/-- A colon: after a candidate it makes that a key; else it stands for the value of a
    key of its own. -/
def readValue (s : Scan) : Except Fault Scan :=
  match s.candidates.find? fun k => k.level = s.level with
  | some k =>
    let s := { s with
      candidates := s.candidates.filter fun k => k.level ≠ s.level
      tokens := s.tokens.insertIdxIfInBounds k.token .key }
    let s := if s.level = 0 then s.openBlock k.column .blockMappingStart k.token else s
    .ok ({ s with allowKey := false }.pushOver 1 .value)
  | none =>
    if s.level = 0 ∧ !s.allowKey then .error .invalid
    else
      let s := if s.level = 0 then s.openBlock s.column .blockMappingStart s.tokens.size else s
      (dropCandidate { s with allowKey := s.level = 0 }).map (·.pushOver 1 .value)

/-- The start of a flow collection. -/
def openFlow (s : Scan) (t : Token) : Except Fault Scan :=
  (noteCandidate s).map fun s => { s with level := s.level + 1, allowKey := true }.pushOver 1 t

/-- The end of a flow collection. -/
def closeFlow (s : Scan) (t : Token) : Except Fault Scan :=
  (dropCandidate s).map fun s => { s with level := s.level - 1, allowKey := false }.pushOver 1 t

/-- A comma. -/
def readFlowEntry (s : Scan) : Except Fault Scan :=
  (dropCandidate { s with allowKey := true }).map (·.pushOver 1 .flowEntry)

/-- A token that a key may start with, given as it is read and the text after it. -/
def readKeyPart (s : Scan) (part : Except Fault (Token × List Char)) : Except Fault Scan :=
  match noteCandidate s, part with
  | .ok s, .ok (t, rest) => .ok (({ s with allowKey := false }.moveTo rest).push t)
  | .error e, _ => .error e
  | _, .error e => .error e

/-- A plain scalar. If a line ended after it, a key may start. -/
def readPlainScalar (s : Scan) : Except Fault Scan :=
  let plain := readPlain (s.level ≠ 0) (s.indent + 1) s.rest
  (readKeyPart s (.ok (.scalar (.plain (String.ofList plain.text)) true, plain.rest))).map fun s =>
    { s with allowKey := plain.broke }

/-- A scalar in quotation marks. -/
def readQuotedScalar (s : Scan) (mark : Char) : Except Fault Scan :=
  readKeyPart s ((readQuoted mark s.rest.length (s.rest.drop 1)).map fun (text, rest) =>
    (.scalar (.ofPoints text) false, rest))

/-- A block scalar. A key may start after it. -/
def readBlockScalar (s : Scan) (folded : Bool) : Except Fault Scan :=
  match dropCandidate { s with allowKey := true } with
  | .error e => .error e
  | .ok s =>
    (readBlock folded s.indent (s.rest.drop 1)).map fun (text, rest) =>
      (s.moveTo rest).push (.scalar (.plain (String.ofList text)) false)

/-- A token between documents. -/
def readSeparator (s : Scan) (part : Except Fault (Token × List Char)) : Except Fault Scan :=
  match dropCandidate (s.unwindTo (-1)), part with
  | .ok s, .ok (t, rest) => .ok (({ s with allowKey := false }.moveTo rest).push t)
  | .error e, _ => .error e
  | _, .error e => .error e

/-- Whether a plain scalar may start at the head of a text. -/
def startsPlain (flow : Bool) : List Char → Bool
  | [] => false
  | c :: cs =>
    !(c = ' ' || c = '\t' || isBreak c || isOneOf "-?:,[]\x7b\x7d#&*!|>'\"%@`" c)
      || (!atGap cs && (c = '-' || (!flow && (c = '?' || c = ':'))))

/-- Reads the token at the head of the text that is left. -/
def readToken (s : Scan) : Except Fault Scan :=
  let flow := s.level ≠ 0
  match s.rest with
  | [] => .ok s
  | c :: cs =>
    if c = '%' ∧ s.column = 0 then
      s.readSeparator ((readDirective cs).map fun (d, rest) => (.directive d, rest))
    else if s.column = 0 ∧ atTriple '-' s.rest then
      s.readSeparator (.ok (.documentStart, s.rest.drop 3))
    else if s.column = 0 ∧ atTriple '.' s.rest then
      s.readSeparator (.ok (.documentEnd, s.rest.drop 3))
    else if c = '[' then s.openFlow .flowSequenceStart
    else if c = '\x7b' then s.openFlow .flowMappingStart
    else if c = ']' then s.closeFlow .flowSequenceEnd
    else if c = '\x7d' then s.closeFlow .flowMappingEnd
    else if c = ',' then s.readFlowEntry
    else if c = '-' ∧ atGap cs then s.readBlockEntry
    else if c = '?' ∧ (flow ∨ atGap cs) then s.readKey
    else if c = ':' ∧ (flow ∨ atGap cs) then s.readValue
    else if c = '*' then
      s.readKeyPart ((readName cs).map fun (name, rest) => (.alias name, rest))
    else if c = '&' then
      s.readKeyPart ((readName cs).map fun (name, rest) => (.anchor name, rest))
    else if c = '!' then s.readKeyPart ((readTag cs).map fun (tag, rest) => (.tag tag, rest))
    else if c = '|' ∧ ¬flow then s.readBlockScalar false
    else if c = '>' ∧ ¬flow then s.readBlockScalar true
    else if c = '\'' ∨ c = '"' then s.readQuotedScalar c
    else if startsPlain flow s.rest then s.readPlainScalar
    else .error .invalid

/-- Moves on to the next token and ends the blocks that it is not part of. -/
def advance (s : Scan) : Except Fault Scan :=
  (dropStale s.skip).map fun s => s.unwindTo s.column

/-- Ends the document. -/
def finish (s : Scan) : Except Fault Scan := dropCandidate (s.unwindTo (-1))

/-- The tokens before a fault. What a candidate and the tokens after it are is not known
    until the candidate is a key or dropped, so they come after the fault. -/
def upTo (s : Scan) (f : Fault) : List Token :=
  let pending := (s.candidates.filter fun k => !s.isStale k).map Candidate.token
  s.tokens.toList.take (pending.foldl min s.tokens.size) ++ [.fault f]

/-- The fault at the end of the text that is there, if more should follow. -/
def atWall (wall : Option Fault) (rest : List Char) : Option Fault :=
  if rest = [] then wall else none

/-- Reads all tokens; a fault is the last of them. `wall` is the fault that ends a text of
    which a part cannot be read. `fuel` bounds the number of tokens, and the length of the
    text suffices. -/
def run (wall : Option Fault) : (fuel : Nat) → Scan → List Token
  | 0, s => s.upTo .invalid
  | fuel + 1, s =>
    match advance s with
    | .error f => s.upTo f
    | .ok next =>
      match atWall wall next.rest with
      | some f => s.upTo f
      | none =>
        if next.rest = [] then
          match finish next with
          | .error f => s.upTo f
          | .ok next => next.tokens.toList
        else
          match readToken next with
          | .error .ended => s.upTo (wall.getD .invalid)
          | .error f => s.upTo f
          | .ok next =>
            match atWall wall next.rest with
            | some f => s.upTo f
            | none => run wall fuel next

end Scan

/-- The tokens of a text; `wall` is the fault that ends a text of which a part cannot be
    read. -/
def Token.ofText (wall : Option Fault) (cs : List Char) : List Token :=
  Scan.run wall (cs.length + 1) { rest := cs }

end CategoryLint.Yaml
