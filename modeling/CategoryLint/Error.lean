import CategoryLint.Setting.Coercion
import CategoryLint.Value.Literal

/-!
# Errors

What can go wrong around the checks, by cause. The errors of the linter itself have a
wording and a context, the entries that tell where it happened; they come in kinds, and
some kinds belong to wider families. Other failures come from reading a file or a value.
-/

namespace CategoryLint

/-! ## Kinds of errors -/

/-- The kinds of the linter's own errors. -/
inductive ErrorKind where
  /-- Any error of the linter. -/
  | general
  /-- The configuration cannot be used. -/
  | configuration
  /-- There is no such pattern file. -/
  | fileNotFound
  /-- A pattern file is not UTF-8. -/
  | fileEncoding
  deriving DecidableEq, Repr

/-- The wider families of errors. -/
inductive ErrorFamily where
  /-- A file is missing. -/
  | fileNotFound
  /-- The system refuses something. -/
  | system
  /-- The linter's own errors. -/
  | linter
  /-- A value cannot be used. -/
  | value
  deriving DecidableEq, Repr

/-- The families that a kind belongs to. -/
def ErrorKind.families : ErrorKind → List ErrorFamily
  | general => [.linter]
  | configuration => [.linter, .value]
  | fileNotFound => [.fileNotFound, .system, .linter]
  | fileEncoding => [.linter, .value]

/-- An error as reporters see it. -/
structure ErrorReport where
  /-- Its kind. -/
  kind : ErrorKind
  /-- Its wording. -/
  message : String
  /-- Where it happened. -/
  context : Entries

/-! ## The configuration -/

/-- A value of a kind that the schema does not allow at its place. -/
structure SchemaFault where
  /-- The keys that lead to the value. -/
  place : List String
  /-- The value. -/
  value : Value
  /-- The kinds of values that are allowed. -/
  allowed : List String

/-- The keys that lead to the value, as one text. -/
def SchemaFault.placeText (f : SchemaFault) : String :=
  if f.place = [] then "<root>" else ".".intercalate f.place

/-- The start of the names of the environment variables that override settings. -/
def variableStem : String := "PATTERNLINT_"

/-- Why the configuration cannot be used. -/
inductive ConfigError where
  /-- A file is not YAML. -/
  | invalidYaml (path : String)
  /-- A file holds a value that is no mapping. -/
  | notMapping (path : String)
  /-- A value at a place is of a wrong kind, which a message tells. -/
  | schema (place message schemaName : String)
  /-- The name of a variable has an empty segment. -/
  | emptySegment (tail : String)
  /-- The name of a variable ends where its segments should start. -/
  | emptyTail

namespace ConfigError

/-- The wording of the error. -/
def message : ConfigError → String
  | invalidYaml path => "Invalid YAML in " ++ path
  | notMapping path => path ++ " must parse to a mapping"
  | schema place message _ => "Invalid configuration at " ++ place ++ ": " ++ message
  | emptySegment tail =>
    "Malformed " ++ variableStem ++ "* key: empty segment in '" ++ tail
      ++ "'. Use double underscores between parts."
  | emptyTail => "Malformed " ++ variableStem ++ "* key: empty tail after prefix"

/-- Where the error happened. -/
def context : ConfigError → Entries
  | invalidYaml path => [(.str "path", .str path)]
  | notMapping path => [(.str "path", .str path)]
  | schema place _ schemaName => [(.str "path", .str place), (.str "schema", .str schemaName)]
  | emptySegment tail => [(.str "key", .str (variableStem ++ tail))]
  | emptyTail => []

/-- The error as reporters see it. -/
def report (e : ConfigError) : ErrorReport := ⟨.configuration, e.message, e.context⟩

end ConfigError

/-! ## Pattern files -/

/-- Why a pattern file cannot be checked. -/
inductive FileError where
  /-- There is no such file. -/
  | notFound (path : String)
  /-- The file is not UTF-8 from an offset on. -/
  | notUtf8 (path : String) (offset : Nat)

namespace FileError

/-- The error as reporters see it. -/
def report : FileError → ErrorReport
  | notFound path =>
    ⟨.fileNotFound, "Pattern file not found: " ++ path, [(.str "path", .str path)]⟩
  | notUtf8 path offset =>
    ⟨.fileEncoding, "Pattern file is not valid UTF-8: " ++ path ++ s!" (byte {offset})",
      [(.str "path", .str path), (.str "offset", .int offset)]⟩

end FileError

/-! ## All failures -/

/-- Why a scalar of a document has no value. -/
inductive ScalarError where
  /-- The text is no integer. -/
  | integer (e : IntegerError)
  /-- The text is no floating-point number. -/
  | float (text : TextValue)
  /-- The text is no truth value. -/
  | bool (text : TextValue)
  /-- The text of a number is empty. -/
  | emptyNumber
  /-- A power of sixty is beyond the floating-point numbers. -/
  | overflow
  /-- The text is no day and no time. -/
  | notTime
  /-- A day or a time is written as a mapping. -/
  | timeOfMapping
  /-- There is no such day or time. -/
  | time (e : TimeError)
  /-- An escape has a number that is no code point's. -/
  | escape (code : Nat)
  deriving DecidableEq, Repr

/-- The wording of the error. -/
def ScalarError.message : ScalarError → String
  | integer e => e.message
  | float text => "could not convert string to float: " ++ text.quote
  | bool text => text.quote
  | emptyNumber => "a number without digits"
  | overflow => "int too large to convert to float"
  | notTime => "neither a day nor a time"
  | timeOfMapping => "a mapping is no day and no time"
  | time e => e.message
  | escape code => s!"no code point has the number {code}"

/-- What can be nested too deep. -/
inductive Nesting where
  /-- The nodes of a document. -/
  | document
  /-- The default values of mappings that stand for scalars. -/
  | defaultValue
  /-- The mappings that are merged. -/
  | merge
  /-- The parts of a value in a message. -/
  | message
  deriving DecidableEq, Repr

/-- Why an operation on the configuration fails. -/
inductive Failure where
  /-- The configuration cannot be used. -/
  | config (e : ConfigError)
  /-- A pattern file cannot be checked. -/
  | file (e : FileError)
  /-- A scalar has no value. -/
  | scalar (e : ScalarError)
  /-- The text of a variable has no value. -/
  | coercion (e : CoercionError)
  /-- Something is nested too deep. -/
  | tooDeep (what : Nesting)
  /-- A message would hold an integer with more digits than are written. -/
  | unwritable
  /-- No place is named for a setting. -/
  | emptyPath
  /-- A directory is read as a file. -/
  | isDirectory
  /-- The system does not take a path, for it is too long. -/
  | pathTooLong
  /-- The working directory is no longer there. -/
  | noDirectory
  /-- A file is not UTF-8. -/
  | notUtf8
  /-- A schema is not JSON. -/
  | malformedSchema (text : List Char) (e : Json.ReadError)
  /-- The section on patterns is no mapping. -/
  | sectionNotMapping

/-- The failure of an operation whose message cannot be written. -/
def MessageError.failure : MessageError → Failure
  | integer => .unwritable
  | tooDeep => .tooDeep .message

end CategoryLint
