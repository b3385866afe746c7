import CategoryLint.Number.Integer
import CategoryLint.Number.Shortest
import CategoryLint.Value.Basic

/-!
# Values in messages

Two texts of a value: the literal shows what kind of value it is, with quotation
marks around text, and the plain text leaves the marks out for a value that is
itself a text. Inside lists and mappings all values are literals.
-/

namespace CategoryLint

/-- The literal of a distance to universal time. -/
def Timestamp.zoneLiteral (minutes : Int) : String :=
  if minutes = 0 then "datetime.timezone.utc"
  else "datetime.timezone(" ++ durationText minutes ++ ")"

/-- The literal of a time; seconds are left out if they are zero. -/
def Timestamp.literal (t : Timestamp) : String :=
  let numbers :=
    [t.date.year, t.date.month, t.date.day, t.hour, t.minute] ++
      (if t.microsecond ≠ 0 then [t.second, t.microsecond]
       else if t.second ≠ 0 then [t.second] else [])
  let zone :=
    match t.offset with
    | some o => ["tzinfo=" ++ zoneLiteral o]
    | none => []
  "datetime.datetime(" ++ ", ".intercalate (numbers.map toString ++ zone) ++ ")"

/-- The literal of a day. -/
def Date.literal (d : Date) : String :=
  "datetime.date(" ++ ", ".intercalate ([d.year, d.month, d.day].map toString) ++ ")"

/-- A byte inside the quotation marks `mark`: printable ASCII characters are shown. -/
def Text.quoteByte (mark : Char) (b : UInt8) : List Char :=
  let c := Char.ofNat b.toNat
  if c.toNat < 0x80 then Text.quoteChar mark c else Text.numberEscape c

/-- The literal of a list of bytes. -/
def Text.quoteBytes (bs : List UInt8) : String :=
  let mark := Text.quoteMark (bs.map fun b => Char.ofNat b.toNat)
  String.ofList ('b' :: mark :: bs.flatMap (Text.quoteByte mark) ++ [mark])

/-- The literal of a scalar. -/
def Scalar.literal : Scalar → String
  | null => "None"
  | bool b => if b then "True" else "False"
  | int n => toString n
  | float x => x.text
  | str s => s.quote
  | bytes bs => Text.quoteBytes bs
  | date d => d.literal
  | timestamp t => t.literal

/-- The plain text of a scalar, as it is shown. -/
def Scalar.text : Scalar → String
  | str s => s.shown
  | date d => d.text
  | timestamp t => t.text " "
  | s => s.literal

/-- The literal of a link that is not followed. -/
def Shape.literal : Shape → String
  | list => "[...]"
  | set => "set(...)"
  | mapping => "\x7b...\x7d"

/-- The literal of a set. -/
def setLiteral (members : List Scalar) : String :=
  if members = [] then "set()"
  else "\x7b" ++ ", ".intercalate (members.map Scalar.literal) ++ "\x7d"

mutual

/-- The literal of a value. -/
def Value.literal : Value → String
  | .scalar s => s.literal
  | .list items => "[" ++ ", ".intercalate (itemLiterals items) ++ "]"
  | .pairs items => "[" ++ ", ".intercalate (pairLiterals items) ++ "]"
  | .set members => setLiteral members
  | .mapping es => "\x7b" ++ ", ".intercalate (entryLiterals es) ++ "\x7d"
  | .link shape _ => shape.literal

/-- The literals of the items of a list. -/
def Value.itemLiterals : List Value → List String
  | [] => []
  | v :: vs => v.literal :: itemLiterals vs

/-- The literals of the pairs of a list. -/
def Value.pairLiterals : List (Value × Value) → List String
  | [] => []
  | (a, b) :: ps => ("(" ++ a.literal ++ ", " ++ b.literal ++ ")") :: pairLiterals ps

/-- The literals of the entries of a mapping. -/
def Value.entryLiterals : List (Scalar × Value) → List String
  | [] => []
  | (k, v) :: es => (k.literal ++ ": " ++ v.literal) :: entryLiterals es

end

/-- The text of a value as a text: a text stays what it is, and any other value is its plain
    text. -/
def Value.text : Value → TextValue
  | .scalar (.str s) => s
  | .scalar s => .plain s.text
  | v => .plain v.literal

/-- The text of a value that counts as given, and the empty text of any other. -/
def Value.textOrEmpty (v : Value) : TextValue := if v.isGiven then v.text else .plain ""

/-! ## Values that cannot be written -/

/-- Why a value has no literal. -/
inductive MessageError where
  /-- It holds an integer with more digits than are written. -/
  | integer
  /-- Its parts are too deep inside each other. -/
  | tooDeep
  deriving DecidableEq, Repr

/-- Whether the integers in a scalar have few enough digits to be written. -/
def Scalar.isWritable : Scalar → Bool
  | int n => Integer.isWritable n
  | _ => true

/-- How many literals are inside each other in the literal of a scalar: that of a time has the
    literal of its zone in it, and that of a zone the one of a duration. -/
def Scalar.literalDepth : Scalar → Nat
  | timestamp t =>
    match t.offset with
    | none => 1
    | some minutes => if minutes = 0 then 2 else 3
  | _ => 1

/-- Why a scalar has no literal where `depth` literals may still be inside each other. -/
def Scalar.unwritten? (depth : Nat) (s : Scalar) : Option MessageError :=
  if depth < s.literalDepth then some .tooDeep
  else if s.isWritable then none
  else some .integer

/-- Why a set has no literal: its members are written as those of a list in it. -/
def unwrittenSet? (depth : Nat) (members : List Scalar) : Option MessageError :=
  if members = [] then none
  else if depth = 0 then some .tooDeep
  else members.findSome? (Scalar.unwritten? (depth - 1))

mutual

/-- Why a value has no literal where `depth` literals may still be inside each other: the first
    thing in it that cannot be written. -/
def Value.unwritten? (depth : Nat) (v : Value) : Option MessageError :=
  if depth = 0 then some .tooDeep
  else
    match v with
    | .scalar s => s.unwritten? depth
    | .list items => unwrittenItem? (depth - 1) items
    | .pairs items => unwrittenPair? (depth - 1) items
    | .set members => unwrittenSet? (depth - 1) members
    | .mapping es => unwrittenEntry? (depth - 1) es
    | .link _ _ => none

/-- Why the items of a list have no literals. -/
def Value.unwrittenItem? (depth : Nat) : List Value → Option MessageError
  | [] => none
  | v :: vs => v.unwritten? depth <|> unwrittenItem? depth vs

/-- Why the pairs of a list have no literals. -/
def Value.unwrittenPair? (depth : Nat) : List (Value × Value) → Option MessageError
  | [] => none
  | (a, b) :: ps =>
    if depth = 0 then some .tooDeep
    else a.unwritten? (depth - 1) <|> b.unwritten? (depth - 1) <|> unwrittenPair? depth ps

/-- Why the entries of a mapping have no literals. -/
def Value.unwrittenEntry? (depth : Nat) : List (Scalar × Value) → Option MessageError
  | [] => none
  | (k, v) :: es => k.unwritten? depth <|> v.unwritten? depth <|> unwrittenEntry? depth es

end

end CategoryLint
