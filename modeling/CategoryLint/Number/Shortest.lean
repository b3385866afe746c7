import CategoryLint.Number.Decimal

/-!
# Shortest decimal text

A binary number is written with the fewest decimal digits that read back as the
same number; of several such texts the one nearest to the number is taken. The
search is exact: the numbers between the two neighbouring midpoints are those
that read back, the midpoints included if the mantissa is even.
-/

namespace CategoryLint.Binary64

open Decimal (tenPow)

/-- A positive number `value / unit` together with the two midpoints to its
    neighbours, all over the common denominator `unit`. -/
structure Rounding where
  /-- The number. -/
  value : Nat
  /-- The midpoint below. -/
  low : Nat
  /-- The midpoint above. -/
  high : Nat
  /-- The common denominator. -/
  unit : Nat
  /-- Whether the midpoints read back as the number. -/
  closed : Bool

/-- The numbers that read back as `m * 2 ^ e`. The gap below the least mantissa of
    53 bits is half as wide as the one above. -/
def Rounding.of (m : Nat) (e : Int) : Rounding :=
  let k := e - 2
  let gap := if m = twoPow 52 ∧ minExponent < e then 1 else 2
  { value := 4 * m * twoPow k.toNat
    low := (4 * m - gap) * twoPow k.toNat
    high := (4 * m + 2) * twoPow k.toNat
    unit := twoPow (-k).toNat
    closed := m % 2 = 0 }

/-- Whether `n * 10 ^ g` reads back as the number. -/
def Rounding.accepts (r : Rounding) (n : Nat) (g : Int) : Bool :=
  let x := n * tenPow g.toNat * r.unit
  let scale := tenPow (-g).toNat
  if r.closed then r.low * scale ≤ x && x ≤ r.high * scale
  else r.low * scale < x && x < r.high * scale

/-- The distance between `n * 10 ^ g` and the number, in units of the common
    denominator of both. -/
def Rounding.distance (r : Rounding) (n : Nat) (g : Int) : Nat :=
  ((n * tenPow g.toNat * r.unit : Int) - r.value * tenPow (-g).toNat).natAbs

/-- The accepted multiple of `10 ^ g` next to the number, if there is one. -/
def Rounding.onGrid? (r : Rounding) (g : Int) : Option Nat :=
  let n := r.value * tenPow (-g).toNat / (tenPow g.toNat * r.unit)
  let below := r.accepts n g
  let above := r.accepts (n + 1) g
  if below && above then
    let a := r.distance n g
    let b := r.distance (n + 1) g
    some (if a < b || (a = b && n % 2 = 0) then n else n + 1)
  else if below then some n
  else if above then some (n + 1)
  else none

/-- The least `p` for which the number lies below `10 ^ p`. -/
def Rounding.magnitude (r : Rounding) : Int :=
  let l : Int := r.value.log2 - r.unit.log2
  let start := (l - 1) * 30103 / 100000 - 1
  match (List.range 6).find? fun (i : Nat) =>
    r.value * tenPow (-(start + i)).toNat < r.unit * tenPow (start + i).toNat with
  | some i => start + i
  | none => start + 6

/-- The digits and the power of ten of the shortest decimal. -/
def Rounding.shortest (r : Rounding) : Nat × Int :=
  let p := r.magnitude
  match (List.range 17).findSome? fun (d : Nat) =>
    (r.onGrid? (p - (d + 1))).map fun n => (n, p - (d + 1 : Int)) with
  | some result => result
  | none => (r.value, 0)

/-- Digits without zeros at their end. -/
def dropZeros (ds : List Char) : List Char := (ds.reverse.dropWhile (· = '0')).reverse

/-- At which powers of ten a number is written without an exponent: from
    `0.0001` on, and below `10 ^ 16`. -/
def isPositional (e : Int) : Bool := -4 ≤ e && e < 16

/-- The exponent of a number: a sign and at least two digits. -/
def exponentText (e : Int) : List Char :=
  (if e < 0 then ['e', '-'] else ['e', '+']) ++
    (if e.natAbs < 10 then ['0'] else []) ++ Nat.toDigits 10 e.natAbs

/-- A number `d.ddd * 10 ^ e` given by its digits. A number without an exponent
    always has a point and a digit after it. -/
def layout (ds : List Char) (e : Int) : List Char :=
  if isPositional e then
    if e < 0 then '0' :: '.' :: List.replicate (-e - 1).toNat '0' ++ ds
    else
      let whole := ds.take (e.toNat + 1)
      let zeros := List.replicate (e.toNat + 1 - ds.length) '0'
      let fraction := ds.drop (e.toNat + 1)
      whole ++ zeros ++ '.' :: (if fraction = [] then ['0'] else fraction)
  else
    match ds with
    | [] => []
    | [d] => d :: exponentText e
    | d :: rest => d :: '.' :: rest ++ exponentText e

/-- The shortest text of a number. -/
def text : Binary64 → String
  | nan _ => "nan"
  | infinite negative => if negative then "-inf" else "inf"
  | finite negative m e =>
    let body :=
      if m = 0 then "0.0".toList
      else
        let (n, g) := (Rounding.of m e).shortest
        let ds := Nat.toDigits 10 n
        layout (dropZeros ds) (g + ds.length - 1)
    String.ofList (if negative then '-' :: body else body)

end CategoryLint.Binary64
