/-!
# The log

What the checks and the loading of the configuration tell about their course: an
entry says how serious it is, which part of the program speaks, and what happened.
-/

namespace CategoryLint.Log

/-- How serious an entry is. -/
inductive Level where
  /-- For those who look for the course of things. -/
  | debug
  /-- Something was left out. -/
  | warning
  deriving DecidableEq, Repr

/-- The part of the program that speaks. -/
inductive Origin where
  /-- The rule on categories. -/
  | rule
  /-- The checking of files. -/
  | checker
  /-- The configuration. -/
  | configuration
  deriving DecidableEq, Repr

/-- An entry of the log. -/
structure Entry where
  /-- How serious it is. -/
  level : Level
  /-- Who speaks. -/
  origin : Origin
  /-- What happened. -/
  message : String
  deriving DecidableEq, Repr

end CategoryLint.Log
