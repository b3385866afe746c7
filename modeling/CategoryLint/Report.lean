import CategoryLint.Json.Printer
import CategoryLint.Result
import CategoryLint.Text.Case

/-!
# Reports

The results of a run as one text: a line for each failure, a listing of all files, or
JSON with all that is known about every result.
-/

namespace CategoryLint

/-- A text that may be missing, as JSON. -/
def Value.ofText? : Option String → Value
  | some s => .str s
  | none => .null

namespace Violation

/-- The violation as JSON. -/
def toValue (v : Violation) : Value :=
  .mapping
    [(.str "path", .ofText? v.path), (.str "line", .int v.line), (.str "column", .int v.column),
     (.str "severity", .str v.severity), (.str "code", .str v.code), (.str "source", .str v.source),
     (.str "message", .str v.message)]

end Violation

namespace Result

/-- The result as JSON. -/
def toValue (r : Result) : Value :=
  .mapping
    [(.str "path", .ofText? r.path),
     (.str "outcome", .str r.outcome.name),
     (.str "violation", match r.violation with | some v => v.toValue | none => .null)]

/-- How a report names the file of a result: without a path it is a text. -/
def place (r : Result) : String :=
  match r.path with
  | none | some "" => "<text>"
  | some path => path

end Result

namespace Report

/-- How the results are shown. -/
inductive Mode where
  /-- A line for each failure. -/
  | short
  /-- All files. -/
  | full
  /-- JSON. -/
  | json
  deriving DecidableEq, Repr

/-- The mode with a name; every unknown name is the short mode. -/
def Mode.ofName : String → Mode
  | "full" => .full
  | "json" => .json
  | _ => .short

/-- The number of failures. -/
def failures (rs : List Result) : Nat := (rs.filter (·.violation.isSome)).length

/-- The line of a result with a violation in the short report. -/
def shortLine? (r : Result) : Option String :=
  r.violation.map fun v =>
    r.place ++ ":" ++ toString v.line ++ ":" ++ toString v.column ++ ": " ++ v.severity ++ " ["
      ++ v.code ++ "] " ++ v.message

/-- The failures, each on a line. -/
def short (rs : List Result) : String :=
  match rs.filterMap shortLine? with
  | [] => "No pattern category errors found."
  | lines => "\n".intercalate lines

/-- The lines of a result in the full report. -/
def fullLines (r : Result) : List String :=
  ("FILE: " ++ r.place) ::
    (match r.violation with
      | none => ["  OK"]
      | some v =>
        ["  " ++ toString v.line ++ ":" ++ toString v.column ++ " " ++ Text.upper v.severity ++ " "
          ++ v.message, "  (" ++ v.source ++ ")"])
    ++ [""]

/-- All files, after a line with their number. -/
def full (rs : List Result) : String :=
  "\n".intercalate
    (("Checked " ++ toString rs.length ++ " file(s), " ++ toString (failures rs) ++ " error(s)")
      :: "" :: rs.flatMap fullLines)

/-- What the JSON report says. -/
def payload (rs : List Result) : Value :=
  .mapping
    [(.str "checked", .int rs.length), (.str "errors", .int (failures rs)),
     (.str "results", .list (rs.map Result.toValue))]

/-- The JSON report. -/
def json (rs : List Result) : String := String.ofList (Json.write (payload rs))

/-- The report in a mode. -/
def render (mode : Mode) (rs : List Result) : String :=
  match mode with
  | .short => short rs
  | .full => full rs
  | .json => json rs

end Report

end CategoryLint
