import CategoryLint.Error
import CategoryLint.Files.Tree
import CategoryLint.Rule
import CategoryLint.Text.Newline
import CategoryLint.Text.Utf8

/-!
# Checking files

A pattern file is read as UTF-8, with every line end as a line feed, and checked like
any other text; its result names the path.
-/

namespace CategoryLint.Project

/-- The text of a file, or the offset of the first byte that is not UTF-8. -/
def readText (bytes : List UInt8) : Except Nat (List Char) :=
  (Text.decodeUtf8 bytes).map Text.unifyNewlines

/-- The text of a pattern file. -/
def patternText (w : Workspace) (p : Path) : Except Failure (List Char) :=
  match w.lookup p with
  | .found (.file bytes) =>
    match readText bytes with
    | .ok text => .ok text
    | .error offset => .error (.file (.notUtf8 p.text offset))
  | .tooLong => .error .pathTooLong
  | _ => .error (.file (.notFound p.text))

/-- The result of checking a pattern file. -/
def checkFile (w : Workspace) (rule : Rule) (p : Path) : Except Failure Result :=
  (patternText w p).map (rule.checkAt (some p.text))

/-- What the log says about checking a pattern file. -/
def checkLog (w : Workspace) (rule : Rule) (p : Path) : List Log.Entry :=
  match patternText w p with
  | .ok text =>
    [rule.logEntry text,
     ⟨.debug, .checker, p.text ++ ": " ++ (rule.verdict text).outcome.name⟩]
  | .error _ => []

end CategoryLint.Project
