import CategoryLint.Text.Split

/-!
# Paths

A path is a list of names, from the working directory or from the root of the file
system. Writing it as text leaves out what does not matter: empty names, single dots, a
slash at the end. Two slashes at the start are kept apart from one; three are one.
-/

namespace CategoryLint

/-- A path. -/
structure Path where
  /-- The number of slashes at the start: none, one or two. -/
  slashes : Nat
  /-- The names on the way. -/
  names : List String
  deriving DecidableEq, Repr

namespace Path

/-- Whether the path starts at the root of the file system. -/
def isAbsolute (p : Path) : Bool := p.slashes != 0

/-- The path that a text writes. -/
def ofString (s : String) : Path where
  slashes :=
    match (s.toList.takeWhile (· = '/')).length with
    | 0 => 0
    | 2 => 2
    | _ => 1
  names := ((Text.splitOn '/' s.toList).map String.ofList).filter fun n => n ≠ "" ∧ n ≠ "."

/-- The path as text. -/
def text (p : Path) : String :=
  if p.slashes = 0 ∧ p.names = [] then "."
  else String.ofList (List.replicate p.slashes '/') ++ "/".intercalate p.names

/-- A path below another; an absolute path is below none. -/
def join (p q : Path) : Path := if q.isAbsolute then q else ⟨p.slashes, p.names ++ q.names⟩

/-- The entry with a name in a directory. -/
def child (p : Path) (name : String) : Path := ⟨p.slashes, p.names ++ [name]⟩

end Path

end CategoryLint
