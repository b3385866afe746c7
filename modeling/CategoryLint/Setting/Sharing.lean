import CategoryLint.Setting.Override
import CategoryLint.Value.Objects

/-!
# Overrides through links

A mapping that stands in several places is one mapping. So an override that reaches it by
one way is seen by every other: the write goes to the object itself, and the links stay.
-/

namespace CategoryLint.Sharing

/-- The first link on a path to a setting, by the number of its mapping, and the rest of
    the path from there. -/
def firstLink? (es : Entries) : (path : List String) → Option (Nat × List String)
  | seg :: next :: path =>
    match es.get? (Override.resolve es seg) with
    | some (.link .mapping n) => some (n, next :: path)
    | some (.mapping es) => firstLink? es (next :: path)
    | _ => none
  | _ => none

/-- A path goes on from a link with fewer segments. -/
theorem length_lt_of_firstLink? {es : Entries} {path rest : List String} {n : Nat}
    (h : firstLink? es path = some (n, rest)) : rest.length < path.length := by
  fun_induction firstLink? es path with
  | case1 es seg next path m hm => simp_all
  | case2 es seg next path es' hes ih =>
    have := ih h
    simp only [List.length_cons] at this ⊢
    omega
  | case3 => simp at h
  | case4 => simp at h

/-- Writes the value of a variable at a path in the object with a number. -/
def setIn [Limits] (objects : Objects) (n : Nat) (path : List String) (raw : String) :
    Objects × Option Failure :=
  let es := (objects.getD n .null).entries
  match _h : firstLink? es path with
  | some (m, rest) => setIn objects m rest raw
  | none =>
    let (es, failure) := Override.set es path raw
    (objects.setIfInBounds n (.mapping es), failure)
termination_by path.length
decreasing_by exact length_lt_of_firstLink? _h

/-- Writes the value of a variable at a path. -/
def set [Limits] (config : Config) (path : List String) (raw : String) : Config × Option Failure :=
  match firstLink? config.entries path with
  | some (n, rest) =>
    let (objects, failure) := setIn config.objects n rest raw
    ({ config with objects }, failure)
  | none =>
    let (entries, failure) := Override.set config.entries path raw
    ({ config with entries }, failure)

end CategoryLint.Sharing
