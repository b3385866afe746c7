import CategoryLint.Project.Check
import CategoryLint.Setting.Schema

/-!
# What comes with the linter

The linter brings a directory of data with it: the defaults of the configuration and its
schema. Where that directory is depends on the system; here it is a parameter.
-/

namespace CategoryLint.Packaged

open Project (readText)

/-- The version of the linter. -/
def version : String := "1.0.0"

/-- The path of a directory of the data, or of a file in it. -/
def path (data : Path) (directoryName fileName : String) : Path :=
  (data.join (Path.ofString directoryName)).join (Path.ofString fileName)

/-- The directory with the defaults. -/
def configDirectory (data : Path) : Path := data.child "config"

/-- The directory with the schema. -/
def schemaDirectory (data : Path) : Path := (configDirectory data).child "schemas"

/-- The defaults: no category is required. -/
def defaults : Entries :=
  [(.str "patterns", .mapping [(.str "baseCategory", .str "")])]

/-- Checks a value as a configuration against the schema with a name, which is looked up in
    the data of a system. Without such a schema nothing is checked, and the log says so. The
    data holds one schema only, so whatever is JSON is that one. -/
def validate [Limits] [Libraries] (w : Workspace) (data : Path) (schemaName : String)
    (config : Value) : Except Failure Unit × List Log.Entry :=
  let p := (schemaDirectory data).join (Path.ofString schemaName)
  match w.lookup p with
  | .nothing | .found (.link _) =>
    (.ok (), [⟨.warning, .configuration,
      "Schema " ++ schemaName ++ " not found at " ++ p.text ++ "; skipping validation"⟩])
  | .tooLong => (.error .pathTooLong, [])
  | .found (.directory _) => (.error .isDirectory, [])
  | .found (.file bytes) =>
    match readText bytes with
    | .error _ => (.error .notUtf8, [])
    | .ok text =>
      match Json.read text with
      | .error e => (.error (.malformedSchema text e), [])
      | .ok _ => (Schema.validateValue schemaName config, [])

end CategoryLint.Packaged
