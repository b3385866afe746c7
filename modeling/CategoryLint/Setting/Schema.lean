import CategoryLint.Libraries

/-!
# The schema of the configuration

A configuration is a mapping. Its section on patterns, if there is one, is a mapping
too, and the base category in it, if there is one, is a text or no value. All else is
free.
-/

namespace CategoryLint.Schema

/-- The name of the schema. -/
def name : String := "config.schema.json"

/-- The first value of a wrong kind in the section on patterns. -/
def sectionFault? (config : Config) (entries : Entries) : Option SchemaFault :=
  match entries.get? (.str "baseCategory") with
  | none | some (.scalar .null) | some (.scalar (.str _)) => none
  | some v => some ⟨["patterns", "baseCategory"], config.unfold v, ["string", "null"]⟩

/-- The first value of a wrong kind in a configuration. -/
def fault? (config : Config) : Option SchemaFault :=
  match config.entries.get? (.str "patterns") with
  | none => none
  | some v =>
    match config.objects.entries? v with
    | some entries => sectionFault? config entries
    | none => some ⟨["patterns"], config.unfold v, ["object"]⟩

/-- The failure that a value of a wrong kind is, or the failure of telling so; `schemaName` is
    how the error names the schema. -/
def refuse [Libraries] (schemaName : String) (fault : SchemaFault) : Failure :=
  match Libraries.describe fault with
  | .ok message => .config (.schema fault.placeText message schemaName)
  | .error e => e.failure

/-- Checks a configuration. -/
def validate [Libraries] (schemaName : String) (config : Config) : Except Failure Unit :=
  match fault? config with
  | some fault => .error (refuse schemaName fault)
  | none => .ok ()

/-- Checks any value as a configuration. -/
def validateValue [Libraries] (schemaName : String) : Value → Except Failure Unit
  | .mapping es => validate schemaName es
  | v => .error (refuse schemaName ⟨[], v, ["object"]⟩)

end CategoryLint.Schema
