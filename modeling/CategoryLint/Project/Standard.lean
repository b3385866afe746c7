import CategoryLint.Libraries
import CategoryLint.Yaml.Document

/-!
# The libraries in use

The libraries as they are: the reader of YAML, and messages that show the value with the kinds
that are allowed in its place.
-/

namespace CategoryLint

/-- The message about a value of a wrong kind, if the value can be written. -/
def SchemaFault.message [Limits] (f : SchemaFault) : Except MessageError String :=
  match f.value.unwritten? Limits.message with
  | some e => .error e
  | none =>
    .ok (f.value.literal ++ " is not of type " ++ ", ".intercalate (f.allowed.map Text.quote))

instance Libraries.standard [Limits] : Libraries where
  readDocument objects bytes := Yaml.read objects (.ofBytes bytes)
  describe := SchemaFault.message

end CategoryLint
