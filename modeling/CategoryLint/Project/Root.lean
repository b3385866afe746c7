import CategoryLint.Error
import CategoryLint.Files.Tree

/-!
# The root of a project

The root of a project is marked by a directory for the linter's settings, or by
anything with the name under which a version control system keeps its data. It is
looked for from the working directory upwards; without a mark, the working directory is
the root.
-/

namespace CategoryLint.Project

/-- The name of the directory with the linter's settings. -/
def settingsName : String := ".patternlint"

/-- The name under which a version control system keeps its data. -/
def repositoryName : String := ".git"

/-- Whether a directory is marked as the root of a project. -/
def isMarked (w : Workspace) (p : Place) : Except Failure Bool :=
  match w.lookup ⟨1, p ++ [settingsName]⟩ with
  | .tooLong => .error .pathTooLong
  | .found (.directory _) => .ok true
  | _ =>
    match w.lookup ⟨1, p ++ [repositoryName]⟩ with
    | .tooLong => .error .pathTooLong
    | .found _ => .ok true
    | .nothing => .ok false

/-- A directory and those above it, the nearest first. -/
def ancestors (p : Place) : List Place :=
  ((List.range (p.length + 1)).map p.take).reverse

/-- The ancestors of a directory are the places on the way to it. -/
theorem mem_ancestors {p q : Place} : q ∈ ancestors p ↔ q <+: p := by
  simp only [ancestors, List.mem_reverse, List.mem_map, List.mem_range]
  constructor
  · rintro ⟨n, -, rfl⟩
    exact List.take_prefix n p
  · intro h
    exact ⟨q.length, Nat.lt_succ_of_le h.length_le, (List.prefix_iff_eq_take.1 h).symm⟩

/-- The first of some directories that is marked. -/
def firstMarked (w : Workspace) : List Place → Except Failure (Option Place)
  | [] => .ok none
  | p :: ps =>
    match isMarked w p with
    | .error e => .error e
    | .ok true => .ok (some p)
    | .ok false => firstMarked w ps

/-- The root of the project that the working directory is in. -/
def findRoot (w : Workspace) : Except Failure Place :=
  (firstMarked w (ancestors w.current)).map (·.getD w.current)

/-- The root as a path: the one given, or else the one found from the working directory,
    which must be there. -/
def root (w : Workspace) : (given : Option String) → Except Failure Path
  | some text => .ok (Path.ofString text)
  | none => if w.removed = 0 then (findRoot w).map (⟨1, ·⟩) else .error .noDirectory

/-- The directory with the overlays of the project. -/
def overlayDirectory (root : Path) : Path := (root.child settingsName).child "config"

end CategoryLint.Project
