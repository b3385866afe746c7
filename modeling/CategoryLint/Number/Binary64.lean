/-!
# Binary floating-point numbers

The numbers of the 64-bit binary format: a finite one is `± mantissa * 2 ^ exponent`
with a mantissa of at most 53 bits and an exponent between -1074 and 971, and has
53 bits unless its exponent is the least. Every exact result is rounded to the
nearest number of the format, a tie to the even mantissa. A number that is not
one (`nan`) carries a label, as two of them are the same key of a mapping only if
they come from one place.
-/

namespace CategoryLint

/-- A number of the 64-bit binary format. -/
inductive Binary64 where
  /-- No number. -/
  | nan (label : Nat)
  /-- An infinity. -/
  | infinite (negative : Bool)
  /-- The number `± mantissa * 2 ^ exponent`. -/
  | finite (negative : Bool) (mantissa : Nat) (exponent : Int)
  deriving DecidableEq, Repr

namespace Binary64

/-- A power of two. -/
def twoPow (n : Nat) : Nat := Nat.pow 2 n

/-- The quotient of two natural numbers, rounded to the nearest, a tie to even. -/
def roundDiv (num den : Nat) : Nat :=
  let q := num / den
  let r := num % den
  if den < 2 * r then q + 1
  else if den = 2 * r then q + q % 2
  else q

/-- The least exponent. -/
def minExponent : Int := -1074

/-- The greatest exponent. -/
def maxExponent : Int := 971

/-- The exponent `e` for which `num / den` lies from `2 ^ (e + 52)` up to
    `2 ^ (e + 53)`. -/
def scaleOf (num den : Nat) : Int :=
  let k : Int := num.log2 - den.log2
  if den * twoPow k.toNat ≤ num * twoPow (-k).toNat then k - 52 else k - 53

/-- The number nearest to `± num / den`. -/
def ofQuotient (negative : Bool) (num den : Nat) : Binary64 :=
  if num = 0 then .finite negative 0 minExponent
  else
    let e := max (scaleOf num den) minExponent
    let m := roundDiv (num * twoPow (-e).toNat) (den * twoPow e.toNat)
    let (m, e) := if m = twoPow 53 then (twoPow 52, e + 1) else (m, e)
    if maxExponent < e then .infinite negative else .finite negative m e

/-- The number nearest to `z * 2 ^ e`; a zero is positive. -/
def ofDyadic (z : Int) (e : Int) : Binary64 :=
  ofQuotient (z < 0) (z.natAbs * twoPow e.toNat) (twoPow (-e).toNat)

/-- The number nearest to an integer. -/
def ofInt (n : Int) : Binary64 := ofDyadic n 0

/-- The number with the other sign. -/
def neg : Binary64 → Binary64
  | nan label => nan label
  | infinite negative => infinite !negative
  | finite negative m e => finite (!negative) m e

/-- The mantissa with its sign. -/
def signed (negative : Bool) (m : Nat) : Int := if negative then -m else m

/-- The sum of two numbers. Infinities of different signs have none, and a sum that is
    zero is negative only if both numbers are. The label is that of a sum which is none. -/
def add (label : Nat) : Binary64 → Binary64 → Binary64
  | finite s m e, finite t n f =>
    let low := min e f
    if m = 0 ∧ n = 0 then .finite (s && t) 0 minExponent
    else
      ofDyadic (signed s (m * twoPow (e - low).toNat) + signed t (n * twoPow (f - low).toNat)) low
  | infinite s, infinite t => if s = t then .infinite s else .nan label
  | nan _, _ => .nan label
  | _, nan _ => .nan label
  | infinite s, finite _ _ _ => .infinite s
  | finite _ _ _, infinite t => .infinite t

/-- The product of two numbers. Zero and an infinity have none. The label is that of a
    product which is none. -/
def mul (label : Nat) : Binary64 → Binary64 → Binary64
  | finite s m e, finite t n f =>
    let g := e + f
    ofQuotient (s != t) (m * n * twoPow g.toNat) (twoPow (-g).toNat)
  | infinite s, infinite t => .infinite (s != t)
  | nan _, _ => .nan label
  | _, nan _ => .nan label
  | infinite s, finite t n _ => if n = 0 then .nan label else .infinite (s != t)
  | finite s m _, infinite t => if m = 0 then .nan label else .infinite (s != t)

/-- The number with a label of its own, if it is none. -/
def relabel (label : Nat) : Binary64 → Binary64
  | nan _ => .nan label
  | x => x

/-- The integer that a number equals, if it equals one. -/
def toInt? : Binary64 → Option Int
  | finite s m e =>
    if 0 ≤ e then some (signed s (m * twoPow e.toNat))
    else if m % twoPow (-e).toNat = 0 then some (signed s (m / twoPow (-e).toNat))
    else none
  | _ => none

/-- Whether a number is zero, of either sign. -/
def isZero : Binary64 → Bool
  | finite _ m _ => m == 0
  | _ => false

end Binary64

end CategoryLint
