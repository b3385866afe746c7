import CategoryLint.Error
import CategoryLint.Log
import CategoryLint.Setting.Coercion
import CategoryLint.Text.Split
import CategoryLint.Value.Merge

/-!
# Overrides by environment variables

A variable whose name starts with the prefix overrides a setting: the rest of its name
is the path to the setting, in segments between double underscores, or between single
ones if there is no double one. A segment finds a key whatever its letter case; without
such a key it makes one. A setting that is a text stays one; the value of any other is
what the variable's text stands for.

Variables are applied in the order of their names. What was changed before an error
stays changed.
-/

namespace CategoryLint.Override

/-! ## Paths -/

/-- The segments of the rest of a name. -/
def segments (tail : List Char) : List (List Char) :=
  if Text.hasDouble '_' tail then Text.splitOnDouble '_' tail else Text.splitOn '_' tail

/-- The path that the rest of a name is. One with an empty segment is an error, or no
    path if `strict` is false. -/
def parsePath (strict : Bool) (tail : String) : Except ConfigError (List String) :=
  let segs := segments tail.toList
  if segs.any (·.isEmpty) then
    if strict then .error (.emptySegment tail) else .ok []
  else .ok (segs.map String.ofList)

/-- The rest of a variable's name after the prefix, if the name starts with it. -/
def tail? (name : String) : Option String :=
  (Text.dropLiteral? variableStem.toList name.toList).map String.ofList

/-- The path that the rest of a variable's name is; none if it is passed over. -/
def readTail (strict : Bool) (tail : String) : Except ConfigError (List String) :=
  if tail = "" then (if strict then .error .emptyTail else .ok [])
  else parsePath strict tail

/-- The overriding variables of an environment in the order of their names: the rest of
    the name, and the value. -/
def ofEnvironment (environment : List (String × String)) : List (String × String) :=
  (environment.mergeSort fun a b => a.1 ≤ b.1).filterMap fun (name, raw) =>
    (tail? name).map fun tail => (tail, raw)

/-- The paths and values of variables, up to the first error. -/
def parseAll (strict : Bool) :
    List (String × String) → List (List String × String) × Option ConfigError
  | [] => ([], none)
  | (tail, raw) :: rest =>
    match readTail strict tail with
    | .error e => ([], some e)
    | .ok [] => parseAll strict rest
    | .ok path => let (found, e) := parseAll strict rest; ((path, raw) :: found, e)

/-! ## Settings -/

/-- The first key that is a segment, letter case aside. -/
def findKey? (es : Entries) (seg : String) : Option Scalar :=
  (es.find? fun e =>
    match e.1 with
    | .str (.plain s) => Text.lower s == Text.lower seg
    | _ => false).map (·.1)

/-- The key that a segment stands for. -/
def resolve (es : Entries) (seg : String) : Scalar := (findKey? es seg).getD (.str seg)

/-- The value that a variable gives to a setting. -/
def newValue [Limits] (old : Option Value) (raw : String) : Except CoercionError Value :=
  if old.any (·.isStr) then .ok (.str (Text.strip raw)) else Coercion.coerce raw

/-- The mapping that a path goes on in: an existing one, or a new one in place of any
    other value. -/
def container : Option Value → Entries
  | some (.mapping es) => es
  | _ => []

/-- Writes the value of a variable at a path. The mappings on the way are made before
    the value is read. -/
def set [Limits] (es : Entries) : (path : List String) → (raw : String) → Entries × Option Failure
  | [], _ => (es, some .emptyPath)
  | [seg], raw =>
    let k := resolve es seg
    match newValue (es.get? k) raw with
    | .ok v => (es.put k v, none)
    | .error e => (es, some (.coercion e))
  | seg :: path, raw =>
    let k := resolve es seg
    let (child, failure) := set (container (es.get? k)) path raw
    (es.put k (.mapping child), failure)

/-- The course of applying variables to settings of some type. -/
structure Applied (σ : Type) where
  /-- The settings at the end. -/
  config : σ
  /-- The paths that were written to, in order. -/
  paths : List (List String)
  /-- The failure that ended it. -/
  failure : Option Failure

/-- Applies variables one after the other, each by `write`. -/
def applyWith {σ : Type} (write : σ → List String → String → σ × Option Failure) (strict : Bool)
    (config : σ) : List (String × String) → Applied σ
  | [] => ⟨config, [], none⟩
  | (tail, raw) :: rest =>
    match readTail strict tail with
    | .error e => ⟨config, [], some (.config e)⟩
    | .ok [] => applyWith write strict config rest
    | .ok path =>
      match write config path raw with
      | (config, some failure) => ⟨config, [path], some failure⟩
      | (config, none) =>
        let rest := applyWith write strict config rest
        { rest with paths := path :: rest.paths }

/-- Applies the variables of an environment to settings without links. -/
def apply [Limits] (strict : Bool) (config : Entries) (environment : List (String × String)) :
    Applied Entries :=
  applyWith set strict config (ofEnvironment environment)

/-- What the log says about writing to a path. -/
def logEntry (path : List String) : Log.Entry :=
  ⟨.debug, .configuration, "Applying env override " ++ ".".intercalate path⟩

end CategoryLint.Override
