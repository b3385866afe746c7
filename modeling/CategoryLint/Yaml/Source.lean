import CategoryLint.Text.Newline
import CategoryLint.Yaml.Lexeme

/-!
# Sources

The text of a file as the reading of its tokens meets it. The bytes of a file are decoded in
parts, and its characters are taken in parts of their own. A part that is not UTF-8, or has a
character that no document may contain, is a fault only when reading comes to it: there the text
that is known ends at a wall.
-/

namespace CategoryLint.Yaml

/-- The text of a file up to where it cannot be read. -/
structure Source where
  /-- The text. -/
  text : List Char
  /-- The fault that follows it. -/
  wall : Option Fault := none

namespace Source

/-- The least number of bytes that are read at once. -/
def bytesAtOnce : Nat := 8192

/-- The number of characters that are taken before the first token. -/
def firstChars : Nat := 8192

/-- The number of characters that are taken whenever more are needed. -/
def moreChars : Nat := 4096

/-- The number of characters that are taken before more than `known` are needed. -/
def taken (known : Nat) : Nat :=
  if known < firstChars then 0 else known - (known - firstChars) % moreChars

/-- A text up to the part with a character that no document may contain. -/
def ofChars (cs : List Char) (wall : Option Fault) : Source :=
  let known := (cs.takeWhile isAllowed).length
  if known = cs.length then { text := cs, wall }
  else { text := cs.take (taken known), wall := some .invalid }

/-! ## From bytes to characters -/

/-- Whether bytes break off inside a character: they have no whole one, but would with more. -/
def isCut (bs : List UInt8) : Bool :=
  [[0x80], [0x80, 0x80], [0xA0, 0x80], [0x80, 0x80, 0x80], [0x90, 0x80, 0x80]].any fun more =>
    (Text.decodeUtf8 (bs ++ more)).toBool

/-- The characters of a part of a file, and the bytes that are kept for the next part: a carriage
    return at its end, for a line feed may follow, and a character that breaks off. -/
def decodePart (bs : List UInt8) : Option (List Char × List UInt8) :=
  let whole (cs : List Char) (rest : List UInt8) :=
    if cs.getLast? = some '\r' then (cs.dropLast, 0x0D :: rest) else (cs, rest)
  match Text.decodeUtf8 bs with
  | .ok cs => some (whole cs [])
  | .error offset =>
    match isCut (bs.drop offset), Text.decodeUtf8 (bs.take offset) with
    | true, .ok cs => some (whole cs (bs.drop offset))
    | _, _ => none

/-- The number of bytes of the next part, where `known` characters are there and the last part had
    `chars` in `bytes`: as many as the characters that are still asked for would take. -/
def partSize (known bytes chars : Nat) : Nat :=
  if chars = 0 then bytesAtOnce
  else max bytesAtOnce (max bytes chars * (moreChars - known % moreChars) / chars)

/-- The characters that are read from the rest of a file, with line feeds at line ends, and whether
    that comes to its end. No more than `fuel` parts are left. -/
def decodeParts : (fuel known bytes chars : Nat) → (kept rest : List UInt8) → List Char × Bool
  | 0, _, _, _, _, _ => ([], true)
  | fuel + 1, known, bytes, chars, kept, rest =>
    let size := partSize known bytes chars
    if rest = [] then
      match Text.decodeUtf8 kept with
      | .ok cs => (Text.unifyNewlines cs, true)
      | .error _ => ([], false)
    else
      match decodePart (kept ++ rest.take size) with
      | none => ([], false)
      | some (cs, kept) =>
        let cs := Text.unifyNewlines cs
        let (more, atEnd) :=
          decodeParts fuel (known + cs.length) (min size rest.length) cs.length kept
            (rest.drop size)
        (cs ++ more, atEnd)

/-- The text that a list of bytes encodes, every line end as a line feed. Where it is not UTF-8,
    only what is taken without the part that breaks is known. -/
def ofBytes (bs : List UInt8) : Source :=
  match decodeParts (bs.length + 1) 0 0 0 [] bs with
  | (cs, true) => ofChars cs none
  | (cs, false) => ofChars (cs.take (taken cs.length)) (some .notUtf8)

end Source

end CategoryLint.Yaml
