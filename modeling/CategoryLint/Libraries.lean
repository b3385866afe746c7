import CategoryLint.Value.Objects
import CategoryLint.Yaml.Lexeme

/-!
# Libraries

The linter has two things done by others: reading the documents of YAML files, and telling in
which way a value is not what the schema says. Both are parameters of loading a configuration.
-/

namespace CategoryLint

/-- What others do for the linter. -/
class Libraries where
  /-- The value of the document that the bytes of a file encode, with its objects after those
      that are there. -/
  readDocument : Objects → List UInt8 → Except Yaml.Fault (Value × Objects)
  /-- The message about a value of a wrong kind. -/
  describe : SchemaFault → Except MessageError String

end CategoryLint
