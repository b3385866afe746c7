import CategoryLint.Text.Quoted

/-!
# Results

Checking a file ends in one of four outcomes. A failed check carries a violation, the
message for whoever reads the report; a result has one exactly when its outcome is a
failure.
-/

namespace CategoryLint

/-- How a check ends. -/
inductive Outcome where
  /-- The file is in order. -/
  | pass
  /-- The file has no documentation block. -/
  | missingDocblock
  /-- The block has no category header. -/
  | missingCategories
  /-- The header does not list the required category. -/
  | missingBaseCategory
  deriving DecidableEq, Repr

namespace Outcome

/-- Whether the check succeeded. -/
def passed (o : Outcome) : Bool := o == .pass

/-- The name of an outcome in reports. -/
def name : Outcome → String
  | pass => "pass"
  | missingDocblock => "missing-docblock"
  | missingCategories => "missing-categories"
  | missingBaseCategory => "missing-base-category"

/-- The code of a failure. -/
def code? : Outcome → Option String
  | pass => none
  | missingDocblock => some "MissingDocblock"
  | missingCategories => some "MissingCategories"
  | missingBaseCategory => some "MissingBaseCategory"

/-- All outcomes. -/
def all : List Outcome := [pass, missingDocblock, missingCategories, missingBaseCategory]

end Outcome

/-- A message about a failed check. -/
structure Violation where
  /-- The rule that was violated. -/
  rule : String
  /-- The code of the failure. -/
  code : String
  /-- What is wrong. -/
  message : String
  /-- How bad it is. -/
  severity : String := "error"
  /-- The line the message is about. -/
  line : Int := 1
  /-- The column the message is about. -/
  column : Int := 1
  /-- The file the message is about. -/
  path : Option String := none
  deriving DecidableEq, Repr

namespace Violation

/-- The full name of the failure. -/
def source (v : Violation) : String := v.rule ++ "." ++ v.code

/-- The violation at another path. -/
def withPath (v : Violation) (path : Option String) : Violation := { v with path }

end Violation

/-- The result of checking one file. -/
structure Result where
  /-- How the check ended. -/
  outcome : Outcome
  /-- The message about a failure. -/
  violation : Option Violation
  /-- The file. -/
  path : Option String
  /-- There is a message exactly for a failure. -/
  isNone_violation : violation.isNone = outcome.passed
  deriving DecidableEq

/-- Why there is no such result. -/
inductive ResultError where
  /-- No outcome has the name. -/
  | unknownOutcome (name : String)
  /-- A success with a violation, or a failure without one. -/
  | violationMismatch (outcome : Outcome)
  deriving DecidableEq, Repr

/-- The wording of the error. -/
def ResultError.message : ResultError → String
  | unknownOutcome name => Text.quote name ++ " is not a valid Outcome"
  | violationMismatch outcome =>
    outcome.name ++ ": violation must be set exactly when the check fails"

/-- The outcome with a name. -/
def Outcome.ofName (name : String) : Except ResultError Outcome :=
  match Outcome.all.find? (·.name == name) with
  | some o => .ok o
  | none => .error (.unknownOutcome name)

namespace Result

/-- The result with the given parts, if a violation is there exactly for a failure. -/
def mk? (outcome : Outcome) (violation : Option Violation) (path : Option String) :
    Except ResultError Result :=
  if h : violation.isNone = outcome.passed then .ok ⟨outcome, violation, path, h⟩
  else .error (.violationMismatch outcome)

/-- The result at a path, which its violation names too. -/
def stamp (r : Result) (path : String) : Result where
  outcome := r.outcome
  violation := r.violation.map (·.withPath (some path))
  path := some path
  isNone_violation := by rw [Option.isNone_map, r.isNone_violation]

end Result

end CategoryLint
