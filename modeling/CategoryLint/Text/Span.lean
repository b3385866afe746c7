/-!
# Tables of code points

Character classes and case mappings are tables over code points: a class is a
list of spans, a mapping a list of shifts, each moving a run of code points by
one distance. Looking a character up in a table is a plain search.
-/

namespace CategoryLint.Text

/-- A span of code points, both ends included. -/
abbrev Span := Nat × Nat

/-- Whether a character lies in one of the spans. -/
def inSpans (spans : List Span) (c : Char) : Bool :=
  spans.any fun s => s.1 ≤ c.toNat && c.toNat ≤ s.2

/-- A run of code points that a mapping moves by one distance: every `step`-th
    one from `first` to `last`. -/
structure Shift where
  /-- The first code point of the run. -/
  first : Nat
  /-- The last code point of the run. -/
  last : Nat
  /-- The distance between two neighbours in the run. -/
  step : Nat
  /-- How far the mapping moves a code point of the run. -/
  delta : Int
  deriving DecidableEq, Repr

/-- Whether the shift moves the code point `n`. -/
def Shift.moves (s : Shift) (n : Nat) : Bool :=
  s.first ≤ n && n ≤ s.last && (n - s.first) % s.step == 0

/-- The image of a character under a mapping, given by its shifts and by the
    characters that it maps to several; a character of neither stays. -/
def mapChar (shifts : List Shift) (specials : List (Nat × List Nat)) (c : Char) : List Char :=
  match specials.lookup c.toNat with
  | some image => image.map Char.ofNat
  | none =>
    match shifts.find? fun s => s.moves c.toNat with
    | some s => [Char.ofNat (c.toNat + s.delta).toNat]
    | none => [c]

end CategoryLint.Text
