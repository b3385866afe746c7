import CategoryLint.Number.Shortest
import CategoryLint.Text.Base64
import CategoryLint.Yaml.Lexeme

/-!
# Tags and the values of scalars

A tag says of which kind a node is. A plain scalar without a tag has the one that its
text looks like: a truth value (`yes`, `off`), an integer in base two, eight, ten, sixteen
or sixty, a floating-point number with a point, no value (`~`), a day or a time. The text
of a scalar and its tag give its value.
-/

namespace CategoryLint.Yaml

/-- The kind of a node. -/
inductive Tag where
  /-- No value. -/
  | null
  /-- A truth value. -/
  | bool
  /-- An integer. -/
  | int
  /-- A floating-point number. -/
  | float
  /-- A day or a time. -/
  | timestamp
  /-- A text. -/
  | str
  /-- A list of bytes. -/
  | binary
  /-- A sequence. -/
  | seq
  /-- A sequence of pairs in which the order matters. -/
  | omap
  /-- A sequence of pairs. -/
  | pairs
  /-- A set. -/
  | set
  /-- A mapping. -/
  | map
  /-- The key whose value is merged into a mapping. -/
  | merge
  /-- The key of a default value. -/
  | value
  /-- A kind without values. -/
  | unknown
  deriving DecidableEq, Repr

/-- The start of the tags that the language defines. -/
def tagStem : String := "tag:yaml.org,2002:"

/-- The tags that the language defines, by the ends of their names. -/
def tagNames : List (String × Tag) :=
  [("null", .null), ("bool", .bool), ("int", .int), ("float", .float),
   ("timestamp", .timestamp), ("str", .str), ("binary", .binary), ("seq", .seq), ("omap", .omap),
   ("pairs", .pairs), ("set", .set), ("map", .map), ("merge", .merge), ("value", .value)]

/-- The tag with a full name. -/
def Tag.ofName (name : String) : Tag :=
  ((tagNames.find? fun (n, _) => tagStem ++ n == name).map (·.2)).getD .unknown

/-! ## What a text looks like -/

/-- Whether `c` is a digit or an underscore. -/
def isDigitOrGap (c : Char) : Bool := Json.isDigit c || c = '_'

/-- Whether a text starts with a digit, and goes on with digits and underscores. -/
def isGroupedDigits : List Char → Bool
  | [] => false
  | c :: cs => Json.isDigit c && cs.all isDigitOrGap

/-- Whether a text is a number below sixty, in one or two digits. -/
def isSixtieth : List Char → Bool
  | [a] => Json.isDigit a
  | [a, b] => '0' ≤ a && a ≤ '5' && Json.isDigit b
  | _ => false

/-- Whether a text is an integer. -/
def looksInt (cs : List Char) : Bool :=
  match (Decimal.takeSign cs).2 with
  | ['0'] => true
  | '0' :: 'b' :: cs => !cs.isEmpty && cs.all fun c => c = '0' || c = '1' || c = '_'
  | '0' :: 'x' :: cs => !cs.isEmpty && cs.all fun c => (Json.hexValue? c).isSome || c = '_'
  | '0' :: cs => cs.all fun c => ('0' ≤ c && c ≤ '7') || c = '_'
  | cs =>
    match Text.splitOn ':' cs with
    | first :: rest => isGroupedDigits first && rest.all isSixtieth
    | [] => false

/-- Whether a text is nothing, or an exponent with a sign. -/
def isSignedExponent : List Char → Bool
  | [] => true
  | c :: s :: ds =>
    (c = 'e' || c = 'E') && (s = '-' || s = '+') && !ds.isEmpty && ds.all Json.isDigit
  | _ => false

/-- Whether a text, after its sign, is digits, a point, digits and an exponent; numbers
    in base sixty have no exponent. -/
def isPointed (cs : List Char) : Bool :=
  let whole := cs.takeWhile (· ≠ '.')
  match cs.dropWhile (· ≠ '.') with
  | '.' :: rest =>
    let exponent := rest.dropWhile isDigitOrGap
    match Text.splitOn ':' whole with
    | [digits] => isGroupedDigits digits && isSignedExponent exponent
    | digits :: rest => isGroupedDigits digits && rest.all isSixtieth && exponent.isEmpty
    | [] => false
  | _ => false

/-- Whether a text is a fraction after a point, with an exponent or without. -/
def isFraction : List Char → Bool
  | '.' :: c :: cs => Json.isDigit c && isSignedExponent (cs.dropWhile isDigitOrGap)
  | _ => false

/-- Whether a text is a floating-point number. -/
def looksFloat (cs : List Char) : Bool :=
  let body := (Decimal.takeSign cs).2
  isPointed body || isFraction cs
    || [".inf", ".Inf", ".INF"].any (fun word => body == word.toList)
    || [".nan", ".NaN", ".NAN"].any fun word => cs == word.toList

/-- The texts of truth values. -/
def boolWords : List String :=
  ["yes", "Yes", "YES", "no", "No", "NO", "true", "True", "TRUE", "false", "False", "FALSE",
   "on", "On", "ON", "off", "Off", "OFF"]

/-- The texts that are marks of the language, and have no value. -/
def markWords : List String := ["!", "&", "*"]

/-- The texts of no value. -/
def nullWords : List String := ["", "~", "null", "Null", "NULL"]

/-! ## Days and times -/

/-- The numbers of a time of day. -/
structure ClockParts where
  /-- The hour. -/
  hour : Nat
  /-- The minute. -/
  minute : Nat
  /-- The second. -/
  second : Nat
  /-- The digits after the second's point. -/
  fraction : List Char
  /-- The distance to universal time, in minutes. -/
  offset : Option Int

/-- The numbers of a day, with a time or without. -/
structure TimeParts where
  /-- The year. -/
  year : Nat
  /-- The digits of the month. -/
  month : List Char
  /-- The digits of the day. -/
  day : List Char
  /-- The time of day. -/
  clock : Option ClockParts

/-- One or two digits, and the text after them. -/
def takeOneOrTwo? : List Char → Option (List Char × List Char)
  | a :: b :: cs =>
    if Json.isDigit a then
      if Json.isDigit b then some ([a, b], cs) else some ([a], b :: cs)
    else none
  | [a] => if Json.isDigit a then some ([a], []) else none
  | [] => none

/-- Two digits, and the text after them. -/
def takeTwo? : List Char → Option (Nat × List Char)
  | a :: b :: cs =>
    if Json.isDigit a && Json.isDigit b then some (Json.digitsNumber [a, b], cs) else none
  | _ => none

/-- The distance to universal time that a whole text is, in minutes; an empty text is
    none. -/
def readOffset? (cs : List Char) : Option (Option Int) :=
  let body := cs.dropWhile fun c => c = ' ' || c = '\t'
  match cs, body with
  | [], _ => some none
  | _, ['Z'] => some (some 0)
  | _, sign :: rest =>
    if sign = '+' || sign = '-' then do
      let (hours, rest) ← takeOneOrTwo? rest
      let minutes ←
        match rest with
        | [] => some 0
        | ':' :: rest => (takeTwo? rest).bind fun (n, rest) => if rest = [] then some n else none
        | _ => none
      let total : Int := Json.digitsNumber hours * 60 + minutes
      return some (if sign = '-' then -total else total)
    else none
  | _, [] => none

/-- The time of day that a whole text is. -/
def readClock? (cs : List Char) : Option ClockParts := do
  let (hour, cs) ← takeOneOrTwo? cs
  let cs ← Text.dropLiteral? [':'] cs
  let (minute, cs) ← takeTwo? cs
  let cs ← Text.dropLiteral? [':'] cs
  let (second, cs) ← takeTwo? cs
  let (fraction, cs) :=
    match cs with
    | '.' :: cs => (cs.takeWhile Json.isDigit, cs.dropWhile Json.isDigit)
    | cs => ([], cs)
  let offset ← readOffset? cs
  return ⟨Json.digitsNumber hour, minute, second, fraction, offset⟩

/-- The day or the time that a whole text is. -/
def readTime? (cs : List Char) : Option TimeParts := do
  let year := cs.take 4
  let cs ← if year.length = 4 ∧ year.all Json.isDigit then some (cs.drop 4) else none
  let cs ← Text.dropLiteral? ['-'] cs
  let (month, cs) ← takeOneOrTwo? cs
  let cs ← Text.dropLiteral? ['-'] cs
  let (day, cs) ← takeOneOrTwo? cs
  let clock ←
    match cs with
    | [] => some none
    | c :: rest =>
      if c = 'T' || c = 't' then (readClock? rest).map some
      else if c = ' ' || c = '\t' then
        (readClock? (rest.dropWhile fun c => c = ' ' || c = '\t')).map some
      else none
  return ⟨Json.digitsNumber year, month, day, clock⟩

/-- Whether a text is a day or a time; a day alone has two digits for month and day. -/
def looksTime (cs : List Char) : Bool :=
  (readTime? cs).any fun t => t.clock.isSome || (t.month.length = 2 && t.day.length = 2)

/-! ## Tags of plain scalars -/

/-- A text without a line end at its end. -/
def dropLastBreak (s : String) : String :=
  if s.toList.getLast? = some '\n' ∧ s ≠ "\n" then String.ofList s.toList.dropLast else s

/-- The tag that the text of a scalar looks like. -/
def Tag.ofText : TextValue → Tag
  | .broken _ => .str
  | .plain text =>
    let text := dropLastBreak text
    let cs := text.toList
    if boolWords.contains text then .bool
    else if looksFloat cs then .float
    else if looksInt cs then .int
    else if text = "<<" then .merge
    else if nullWords.contains text then .null
    else if looksTime cs then .timestamp
    else if text = "=" then .value
    else if markWords.contains text then .unknown
    else .str

/-! ## Values of scalars -/

/-- The code points of a number without underscores. -/
def dropGaps (text : TextValue) : List CodePoint := text.points.filter (· ≠ .char '_')

/-- The sign at the head of a text and the text after it. -/
def takeSign : List CodePoint → Bool × List CodePoint
  | .char '-' :: ps => (true, ps)
  | .char '+' :: ps => (false, ps)
  | ps => (false, ps)

/-- The parts of a text between its colons. -/
def splitColons : List CodePoint → List (List CodePoint)
  | [] => [[]]
  | p :: ps =>
    if p = .char ':' then [] :: splitColons ps
    else
      match splitColons ps with
      | [] => [[p]]
      | part :: parts => (p :: part) :: parts

/-- The truth value that a text is. -/
def readBool (text : TextValue) : Except ScalarError Bool :=
  let word := text.lower
  if ["yes", "true", "on"].any fun w => word = .plain w then .ok true
  else if ["no", "false", "off"].any fun w => word = .plain w then .ok false
  else .error (.bool word)

/-- An integer in some base. -/
def readBase (base : Nat) (ps : List CodePoint) : Except ScalarError Int :=
  (Integer.read base (.ofPoints ps)).mapError .integer

/-- An integer without its sign; the digits at its start give its base. -/
def readMagnitude (ps : List CodePoint) : Except ScalarError Int :=
  match ps with
  | [] => .error .emptyNumber
  | .char '0' :: .char 'b' :: rest => readBase 2 rest
  | .char '0' :: .char 'x' :: rest => readBase 16 rest
  | .char '0' :: _ => readBase 8 ps
  | _ =>
    ((splitColons ps).mapM (readBase 10)).map fun parts =>
      parts.foldl (fun n part => n * 60 + part) 0

/-- The integer that a text is. -/
def readInt (text : TextValue) : Except ScalarError Int :=
  let (negative, ps) := takeSign (dropGaps text)
  (readMagnitude ps).map fun n => if negative then -n else n

/-- A floating-point number in base ten. -/
def readDecimal (ps : List CodePoint) : Except ScalarError Binary64 :=
  match Binary64.read? 0 (ps.map CodePoint.shown) with
  | some x => .ok x
  | none => .error (.float (.ofPoints ps))

/-- The sum of numbers in base sixty, the last with the factor `base`, the one before with
    sixty times that, and so on. Each factor must be near a floating-point number. -/
def sumSixtieths (base : Nat) (sum : Binary64) :
    (reversed : List Binary64) → Except ScalarError Binary64
  | [] => .ok sum
  | x :: xs =>
    match Binary64.ofInt base with
    | .infinite _ => .error .overflow
    | factor => sumSixtieths (base * 60) (Binary64.add 0 sum (Binary64.mul 0 x factor)) xs

/-- A floating-point number without its sign. -/
def readFloatMagnitude (label : Nat) (ps : List CodePoint) : Except ScalarError Binary64 :=
  match TextValue.ofPoints ps with
  | .plain ".inf" => .ok (.infinite false)
  | .plain ".nan" => .ok (.nan 0)
  | _ =>
    let magnitude :=
      if ps.contains (.char ':') then
        match (splitColons ps).mapM readDecimal with
        | .error e => .error e
        | .ok parts => sumSixtieths 1 (.ofInt 0) parts.reverse
      else readDecimal ps
    magnitude.map (Binary64.relabel label)

/-- The floating-point number that a text is. The label is that of a number which is none,
    unless it has the language's own word for it. -/
def readFloat (label : Nat) (text : TextValue) : Except ScalarError Binary64 :=
  match (TextValue.ofPoints (dropGaps text)).lower.points with
  | [] => .error .emptyNumber
  | ps =>
    let (negative, ps) := takeSign ps
    (readFloatMagnitude label ps).map fun x => if negative then x.neg else x

/-- The first six digits after a point, as a number of millionths. -/
def microseconds (fraction : List Char) : Nat :=
  let ds := fraction.take 6
  Json.digitsNumber (ds ++ List.replicate (6 - ds.length) '0')

/-- The day or the time that a text is. -/
def readTime (text : TextValue) : Except ScalarError Scalar :=
  match readTime? (dropLastBreak text.shown).toList with
  | none => .error .notTime
  | some t =>
    let month := Json.digitsNumber t.month
    let day := Json.digitsNumber t.day
    match t.clock with
    | none => ((Date.mk? t.year month day).map .date).mapError .time
    | some c =>
      ((Timestamp.mk? t.year month day c.hour c.minute c.second (microseconds c.fraction)
        c.offset).map .timestamp).mapError .time

/-- The bytes that a text of ASCII characters writes. -/
def readBytes? : TextValue → Option (List UInt8)
  | .plain text =>
    if text.toList.all fun c => c.toNat < 0x80 then Text.decodeBase64? text.toList else none
  | .broken _ => none

/-- The value of a scalar with a tag and a text. The label is that of a number which is
    none. -/
def Tag.scalar (tag : Tag) (label : Nat) (text : TextValue) : Except Fault Scalar :=
  match tag with
  | .null => .ok .null
  | .bool => ((readBool text).map .bool).mapError .scalar
  | .int => ((readInt text).map .int).mapError .scalar
  | .float => ((readFloat label text).map .float).mapError .scalar
  | .timestamp => (readTime text).mapError .scalar
  | .str => .ok (.str text)
  | .binary =>
    match readBytes? text with
    | some bs => .ok (.bytes bs)
    | none => .error .invalid
  | _ => .error .invalid

end CategoryLint.Yaml
