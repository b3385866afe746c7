/-!
# Limits

Values and documents are read, merged and written by functions that call themselves, and the
stack of their calls ends somewhere. How deep things may be inside each other depends on the
calls that are on the stack already, so the depths are parameters of all that nests.
-/

namespace CategoryLint

/-- How deep things may be inside each other. -/
class Limits where
  /-- The mappings that are merged. -/
  merge : Nat
  /-- The lists and objects of a JSON text. -/
  json : Nat
  /-- The collections of a document. -/
  document : Nat
  /-- The default values of mappings that stand for scalars. -/
  defaultValue : Nat
  /-- The parts of a value in a message. -/
  message : Nat
  /-- A report of results can be read. -/
  report_le_json : 4 ≤ json

/-- The depths that are left where few calls are on the stack. -/
instance Limits.standard : Limits where
  merge := 995
  json := 988
  document := 490
  defaultValue := 970
  message := 970
  report_le_json := by decide

end CategoryLint
