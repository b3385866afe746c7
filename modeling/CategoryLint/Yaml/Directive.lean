import CategoryLint.Yaml.Lexeme

/-!
# Directives

Before a document stand lines that start with a percent sign: the version of YAML, the
handles of tags, and others that are passed over.
-/

namespace CategoryLint.Yaml

/-- A directive. -/
inductive Directive where
  /-- The version of YAML, by the number before its point. -/
  | version (major : Nat)
  /-- What a handle stands for at the start of a tag. -/
  | handle (handle : String) (text : String)
  /-- Any other. -/
  | unknown

/-- A number, of at least one digit. Like any integer it is converted where it is read. -/
def readDigits (cs : List Char) : Except Fault (Nat × List Char) :=
  let ds := cs.takeWhile Json.isDigit
  if ds = [] then .error .invalid
  else if Integer.maxDigits < ds.length then .error (.scalar (.integer (.tooLong ds.length)))
  else .ok (Json.digitsNumber ds, cs.dropWhile Json.isDigit)

/-- The version of YAML. -/
def readVersion (cs : List Char) : Except Fault (Directive × List Char) :=
  match readDigits (cs.dropWhile (· = ' ')) with
  | .error e => .error e
  | .ok (major, '.' :: rest) =>
    match readDigits rest with
    | .ok (_, rest) => if atSpace rest then .ok (.version major, rest) else .error .invalid
    | .error e => .error e
  | .ok _ => .error .invalid

/-- A handle and what it stands for. -/
def readHandleText (cs : List Char) : Except Fault (Directive × List Char) :=
  match readHandle (cs.dropWhile (· = ' ')) with
  | .ok (handle, ' ' :: rest) =>
    match readTagText (rest.dropWhile (· = ' ')) with
    | .ok (text, rest) => if atSpace rest then .ok (.handle handle text, rest) else .error .invalid
    | .error e => .error e
  | _ => .error .invalid

/-- The part of a directive after its name. -/
def readDirectiveBody (name : String) (cs : List Char) : Except Fault (Directive × List Char) :=
  match name with
  | "YAML" => readVersion cs
  | "TAG" => readHandleText cs
  | _ => .ok (.unknown, cs.dropWhile fun c => !isBreak c)

/-- A directive, after its percent sign, with the end of its line. -/
def readDirective (cs : List Char) : Except Fault (Directive × List Char) :=
  let name := cs.takeWhile isNameChar
  let rest := cs.dropWhile isNameChar
  if name = [] ∨ !atSpace rest then .error .invalid
  else
    match readDirectiveBody (String.ofList name) rest with
    | .error e => .error e
    | .ok (directive, rest) => (skipLineEnd rest).map fun rest => (directive, rest)

end CategoryLint.Yaml
