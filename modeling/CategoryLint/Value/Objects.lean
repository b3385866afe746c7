import CategoryLint.Limits
import CategoryLint.Value.Merge

/-!
# Lists and mappings in several places

A document can name a list or a mapping and put it in several places, also inside itself.
Such an object is kept in a table, and a link with its number is in each of its places. To
look at a value is to follow its link; to show it is to follow all links in it, up to those
that lead back to an object around them.

Merging makes new mappings where two meet, and leaves the links in all other places. Two
objects that are inside themselves may meet without end, so merging goes to a depth only.
-/

namespace CategoryLint

/-- The objects that links lead to, by their numbers. -/
abbrev Objects := Array Value

namespace Objects

/-! ## Following links -/

/-- What a value is, without a link before it. -/
def follow (objects : Objects) : Value → Value
  | .link _ n => objects.getD n .null
  | v => v

/-- The entries of a mapping, or of one that a link leads to. -/
def entries? (objects : Objects) (v : Value) : Option Entries :=
  match objects.follow v with
  | .mapping es => some es
  | _ => none

mutual

/-- A value with `sub` for its links. -/
def replace (sub : Shape → Nat → Value) : Value → Value
  | .scalar s => .scalar s
  | .list items => .list (replaceItems sub items)
  | .pairs items => .pairs (replacePairs sub items)
  | .set members => .set members
  | .mapping es => .mapping (replaceEntries sub es)
  | .link shape n => sub shape n

/-- The items of a list with `sub` for their links. -/
def replaceItems (sub : Shape → Nat → Value) : List Value → List Value
  | [] => []
  | v :: vs => replace sub v :: replaceItems sub vs

/-- The pairs of a list with `sub` for their links. -/
def replacePairs (sub : Shape → Nat → Value) : List (Value × Value) → List (Value × Value)
  | [] => []
  | (a, b) :: ps => (replace sub a, replace sub b) :: replacePairs sub ps

/-- The entries of a mapping with `sub` for their links. -/
def replaceEntries (sub : Shape → Nat → Value) : List (Scalar × Value) → Entries
  | [] => []
  | (k, v) :: es => (k, replace sub v) :: replaceEntries sub es

end

/-- A value in which all links are followed but those that lead to one of the objects
    `around` it. At most `fuel` objects are inside each other. -/
def unfoldWithin (objects : Objects) : (fuel : Nat) → (around : List Nat) → Value → Value
  | 0, _, v => v
  | fuel + 1, around, v =>
    replace (fun shape n =>
      if n ∈ around then .link shape n
      else unfoldWithin objects fuel (n :: around) (objects.getD n .null)) v

/-- A value in which all links are followed but those that lead back to an object around
    them. -/
def unfold (objects : Objects) (v : Value) : Value :=
  unfoldWithin objects (objects.size + 1) [] v

/-! ## Merging -/

/-- The entries of `base` with those of another mapping on top, each put in by `onTop`. -/
def mergeBy (onTop : Option Value → Value → Option Value) (base : Entries) :
    List (Scalar × Value) → Option Entries
  | [] => some base
  | (k, v) :: es =>
    match onTop (base.get? k) v with
    | some v => mergeBy onTop (base.put k v) es
    | none => none

/-- A value on top of what was there: of two mappings, a new one with the entries of both;
    nothing, if more than `depth` mappings are inside each other. -/
def onTop (objects : Objects) : (depth : Nat) → (old : Option Value) → Value → Option Value
  | 0, _, _ => none
  | depth + 1, old, v =>
    match old.bind objects.entries?, objects.entries? v with
    | some base, some es => (mergeBy (onTop objects depth) base es).map .mapping
    | _, _ => some v

/-- The entries of `base` with those of another mapping on top; nothing, if they are too
    deep. -/
def merge [Limits] (objects : Objects) (base es : Entries) : Option Entries :=
  mergeBy (objects.onTop Limits.merge) base es

end Objects

/-- A configuration: its entries, and the objects that links in them lead to. -/
structure Config where
  /-- The entries. -/
  entries : Entries
  /-- The objects. -/
  objects : Objects := #[]

instance : Coe Entries Config := ⟨fun entries => { entries }⟩

namespace Config

/-- A value of the configuration in which all links are followed but those that lead back to
    an object around them. -/
def unfold (c : Config) (v : Value) : Value := c.objects.unfold v

/-- The value under a key, without a link before it. -/
def get? (c : Config) (k : Scalar) : Option Value := (c.entries.get? k).map c.objects.follow

/-- The configuration as a mapping in which links are followed. -/
def tree (c : Config) : Value := c.unfold (.mapping c.entries)

end Config

end CategoryLint
