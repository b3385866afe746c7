import CategoryLint.Docblock
import CategoryLint.Log
import CategoryLint.Result
import CategoryLint.Value.Literal
import CategoryLint.Value.Objects

/-!
# The category rule

A pattern file must have a documentation block with a category header, and the header
must list the base category of the project, if there is one. Letter case does not
matter. Whatever is wrong is reported once, at the start of the file.
-/

namespace CategoryLint

/-- The rule with the category that every file must list; with the empty one, any
    header will do. -/
structure Rule where
  /-- The required category. -/
  base : TextValue
  deriving DecidableEq, Repr

/-- What the rule finds in a text. -/
inductive Verdict where
  /-- There is no documentation block. -/
  | noDocblock
  /-- The block has no category header. -/
  | noHeader
  /-- There is a header, and no category is required. -/
  | accepted (categories : List String)
  /-- The required category is not in the header's value. -/
  | lacking (value : String)
  /-- The required category is among those listed. -/
  | found (categories : List String)
  deriving DecidableEq, Repr

namespace Verdict

/-- How a check with this verdict ends. -/
def outcome : Verdict → Outcome
  | noDocblock => .missingDocblock
  | noHeader => .missingCategories
  | accepted _ => .pass
  | lacking _ => .missingBaseCategory
  | found _ => .pass

/-- What is wrong, for a required category. -/
def message (base : TextValue) : Verdict → String
  | noDocblock =>
    "Pattern file is missing a file-level docblock with pattern metadata "
      ++ "(Title, Slug, Categories)."
  | noHeader => "Pattern file docblock is missing the \"Categories\" property."
  | lacking value =>
    "Pattern file Categories must include the base category \"" ++ base.shown ++ "\". Found: "
      ++ value
  | accepted _ | found _ => ""

/-- What the log says about the verdict, for a required category. -/
def logEntry (base : TextValue) (v : Verdict) : Log.Entry where
  level := .debug
  origin := .rule
  message :=
    match v with
    | accepted categories =>
      "No base category configured; categories " ++ Text.quoteList categories ++ " accepted"
    | found categories =>
      "Base category " ++ base.quote ++ " found in " ++ Text.quoteList categories
    | v => "Pattern category check failed: " ++ v.outcome.code?.getD ""

end Verdict

namespace Rule

/-- The name of the rule in violations. -/
def name : String := "PatternCategory.Patterns.PatternCategory"

/-- The rule that requires the text of a value; a value that does not count as given
    requires nothing. -/
def ofValue (v : Value) : Rule := ⟨v.textOrEmpty⟩

/-- The rule of a configuration: it requires the base category of the section on
    patterns. A section that is no mapping is passed over. -/
def ofConfig (config : Config) : Rule :=
  let entries := ((config.get? (.str "patterns")).getD .null).entries
  ofValue (config.unfold ((entries.get? (.str "baseCategory")).getD .null))

/-- Whether a category is among others, letter case aside. The categories of a file have no
    surrogates, so a text with surrogates is not among them. -/
def lists (categories : List String) : TextValue → Bool
  | .plain base => (categories.map Text.lower).contains (Text.lower base)
  | .broken _ => false

/-- The verdict on the value of a header. -/
def judge (rule : Rule) (value : List Char) : Verdict :=
  let categories := (Docblock.categories value).map String.ofList
  if rule.base = .plain "" then .accepted categories
  else if lists categories rule.base then .found categories
  else .lacking (String.ofList value)

/-- The verdict on a text. -/
def verdict (rule : Rule) (text : List Char) : Verdict :=
  match Docblock.find? text with
  | none => .noDocblock
  | some block =>
    match Docblock.header? block with
    | none => .noHeader
    | some value => rule.judge value

/-- The violation that a verdict amounts to. -/
def violation? (rule : Rule) (v : Verdict) : Option Violation :=
  v.outcome.code?.map fun code => { rule := name, code, message := v.message rule.base }

/-- Every failure has a violation, and no success. -/
theorem isNone_violation? (rule : Rule) (v : Verdict) :
    (rule.violation? v).isNone = v.outcome.passed := by
  cases v <;> rfl

/-- The result of checking a text, at no path. -/
def check (rule : Rule) (text : List Char) : Result where
  outcome := (rule.verdict text).outcome
  violation := rule.violation? (rule.verdict text)
  path := none
  isNone_violation := rule.isNone_violation? _

/-- The result of checking a text, at a path or at none. -/
def checkAt (rule : Rule) (path : Option String) (text : List Char) : Result :=
  match path with
  | none => rule.check text
  | some path => (rule.check text).stamp path

/-- What the log says about checking a text. -/
def logEntry (rule : Rule) (text : List Char) : Log.Entry :=
  (rule.verdict text).logEntry rule.base

end Rule

end CategoryLint
