import CategoryLint.Error
import CategoryLint.Json.Reader
import CategoryLint.Text.Utf8

/-!
# Characters and names of YAML

The classes of characters that the grammar speaks of, and the small pieces that stand
for themselves: line breaks, document separators, names of anchors, tags. A piece is
read off the head of a text, and the text after it is given back.
-/

namespace CategoryLint.Yaml

/-- Why a document has no value. -/
inductive Fault where
  /-- The text is not YAML, or not in the part of it that has values. -/
  | invalid
  /-- The text ends inside a scalar. -/
  | ended
  /-- A scalar has no value. -/
  | scalar (e : ScalarError)
  /-- Something is nested too deep. -/
  | tooDeep (what : Nesting)
  /-- A part of the text is not UTF-8. -/
  | notUtf8
  deriving DecidableEq, Repr

/-! ## Classes of characters -/

/-- Whether a document may contain `c`. -/
def isAllowed (c : Char) : Bool :=
  c = '\t' || c = '\n' || c = '\r' || (' ' ≤ c && c ≤ '~') || c = '\x85'
    || (0xA0 ≤ c.toNat && c.toNat ≤ 0xFFFD) || 0x10000 ≤ c.toNat

/-- Whether `c` is one of the characters of a text. -/
def isOneOf (chars : String) (c : Char) : Bool := chars.toList.contains c

/-- Whether `c` ends a line. -/
def isBreak (c : Char) : Bool :=
  c = '\n' || c = '\r' || c = '\x85' || c = '\u2028' || c = '\u2029'

/-- What a scalar keeps of a line's end. -/
def breakChar (c : Char) : Char := if c = '\u2028' || c = '\u2029' then c else '\n'

/-- Whether a line ends at the head of a text. -/
def atLineEnd : List Char → Bool
  | [] => true
  | c :: _ => isBreak c

/-- Whether a blank or the end of a line is at the head of a text. -/
def atGap : List Char → Bool
  | [] => true
  | c :: _ => c = ' ' || c = '\t' || isBreak c

/-- Whether a space or the end of a line is at the head of a text. -/
def atSpace : List Char → Bool
  | [] => true
  | c :: _ => c = ' ' || isBreak c

/-- Whether three characters `c`, and then a gap, are at the head of a text. -/
def atTriple (c : Char) : List Char → Bool
  | a :: b :: d :: cs => a = c && b = c && d = c && atGap cs
  | _ => false

/-- Whether a separator of documents is at the head of a line. -/
def atSeparator (cs : List Char) : Bool := atTriple '-' cs || atTriple '.' cs

/-- Whether `c` may be part of a name. -/
def isNameChar (c : Char) : Bool := c.isAlphanum || c = '-' || c = '_'

/-- Whether `c` may be part of a tag. -/
def isTagChar (c : Char) : Bool := c.isAlphanum || isOneOf "-;/?:@&=+$,_.!~*'()[]%" c

/-! ## Names and tags -/

/-- The end of a line, with a comment before it or not; nothing else may be there. -/
def skipLineEnd (cs : List Char) : Except Fault (List Char) :=
  let cs := cs.dropWhile (· = ' ')
  let cs := if cs.head? = some '#' then cs.dropWhile fun c => !isBreak c else cs
  if atLineEnd cs then .ok (cs.drop 1) else .error .invalid

/-- The name of an anchor, after its mark. -/
def readName (cs : List Char) : Except Fault (String × List Char) :=
  let name := cs.takeWhile isNameChar
  let rest := cs.dropWhile isNameChar
  if name ≠ [] ∧ (atGap rest ∨ rest.head?.any (isOneOf "?:,]\x7d%@`")) then
    .ok (String.ofList name, rest)
  else .error .invalid

/-- The handle of a tag: an exclamation mark, or a name between two. -/
def readHandle : List Char → Except Fault (String × List Char)
  | '!' :: ' ' :: cs => .ok ("!", ' ' :: cs)
  | '!' :: cs =>
    match cs.dropWhile isNameChar with
    | '!' :: rest => .ok (String.ofList ('!' :: cs.takeWhile isNameChar ++ ['!']), rest)
    | _ => .error .invalid
  | _ => .error .invalid

/-- The bytes that percent signs and two hexadecimal digits write, and the text after
    them. -/
def readBytes : List Char → Except Fault (List UInt8 × List Char)
  | '%' :: a :: b :: cs =>
    match Json.hexNumber? [a, b], readBytes cs with
    | some n, .ok (bs, rest) => .ok (UInt8.ofNat n :: bs, rest)
    | _, _ => .error .invalid
  | '%' :: _ => .error .invalid
  | cs => .ok ([], cs)

/-- The characters of a tag; escapes write the bytes of a character. `fuel` bounds the
    number of characters. -/
def readTagChars : (fuel : Nat) → List Char → Except Fault (List Char × List Char)
  | 0, cs => .ok ([], cs)
  | fuel + 1, '%' :: cs =>
    match readBytes ('%' :: cs) with
    | .error e => .error e
    | .ok (bs, rest) =>
      match Text.decodeUtf8 bs with
      | .error _ => .error .invalid
      | .ok head => (readTagChars fuel rest).map fun (tail, rest) => (head ++ tail, rest)
  | fuel + 1, c :: cs =>
    if isTagChar c then (readTagChars fuel cs).map fun (tail, rest) => (c :: tail, rest)
    else .ok ([], c :: cs)
  | _ + 1, [] => .ok ([], [])

/-- The characters of a tag, at least one. -/
def readTagText (cs : List Char) : Except Fault (String × List Char) :=
  match readTagChars cs.length cs with
  | .error e => .error e
  | .ok (text, rest) =>
    if rest.length < cs.length then .ok (String.ofList text, rest) else .error .invalid

/-- A tag as it is written: a handle, if it has one, and the text after it. -/
structure RawTag where
  /-- The handle. -/
  handle : Option String
  /-- The text after the handle. -/
  suffix : String

/-- A tag, after its exclamation mark, up to where a space must follow. -/
def readTagBody : List Char → Except Fault (RawTag × List Char)
  | '<' :: cs =>
    match readTagText cs with
    | .ok (text, '>' :: rest) => .ok (⟨none, text⟩, rest)
    | _ => .error .invalid
  | cs =>
    if atGap cs then .ok (⟨none, "!"⟩, cs)
    else if (cs.takeWhile fun c => !(c = ' ' || isBreak c)).contains '!' then
      match readHandle ('!' :: cs) with
      | .error e => .error e
      | .ok (handle, rest) =>
        (readTagText rest).map fun (text, rest) => (⟨some handle, text⟩, rest)
    else (readTagText cs).map fun (text, rest) => (⟨some "!", text⟩, rest)

/-- A tag, after its exclamation mark. -/
def readTag (cs : List Char) : Except Fault (RawTag × List Char) :=
  match readTagBody cs with
  | .error e => .error e
  | .ok (tag, rest) => if atSpace rest then .ok (tag, rest) else .error .invalid

end CategoryLint.Yaml
