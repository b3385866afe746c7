import CategoryLint.Value.Basic
import Mathlib.Algebra.Order.Field.Power
import Mathlib.Tactic.Ring

/-!
# Equal keys

Scalars that are equal are one key of a mapping: numbers of one value, be they truth values,
integers of any size or floating-point numbers, texts of the same code points, and times of one
instant (`Scalar.Equal`). The key that a scalar is decides that: two scalars have one key exactly
if they are equal (`Scalar.key_eq_iff`), so equality is transitive.

A floating-point number is written in one way only, so numbers that are no integers are equal
only if they are the same (`Binary64.eq_of_value?`).
-/

namespace CategoryLint

/-! ## Floating-point numbers -/

namespace Binary64

variable {x y : Binary64} {s t : Bool} {m n : Nat}

/-- The value of a number. -/
def value? : Binary64 → Option ℚ
  | finite s m e => some (signed s m * 2 ^ e)
  | _ => none

/-- A number is written as the format has it. -/
def IsNormal : Binary64 → Prop
  | finite _ m e =>
    m < 2 ^ 53 ∧ minExponent ≤ e ∧ e ≤ maxExponent ∧ (2 ^ 52 ≤ m ∨ e = minExponent)
  | _ => True

theorem twoPow_pos (k : Nat) : 0 < twoPow k := Nat.two_pow_pos k

theorem cast_twoPow (k : Nat) : (twoPow k : Int) = 2 ^ k := by
  rw [twoPow, Nat.pow_eq, Nat.cast_pow, Nat.cast_two]

theorem natAbs_signed (s : Bool) (m : Nat) : (signed s m).natAbs = m := by
  cases s <;> simp [signed]

theorem signed_mul (s : Bool) (m n : Nat) : signed s (m * n) = signed s m * n := by
  cases s <;> simp [signed]

theorem eq_of_signed_eq (hm : m ≠ 0) (h : signed s m = signed t n) : s = t ∧ m = n := by
  cases s <;> cases t <;> simp only [signed] at h <;> simp at h ⊢ <;> omega

/-- The value with a negative exponent is an integer if the power of two divides the mantissa. -/
theorem quotient_eq_some_iff {k : Nat} {z : Int} :
    (if m % twoPow k = 0 then some (signed s (m / twoPow k)) else none) = some z ↔
      signed s m = z * 2 ^ k := by
  by_cases hdvd : twoPow k ∣ m
  · obtain ⟨n, rfl⟩ := hdvd
    rw [if_pos (Nat.mul_mod_right _ _), Nat.mul_div_cancel_left n (twoPow_pos k),
      Option.some_inj, Nat.mul_comm, signed_mul, cast_twoPow,
      mul_left_inj' (pow_ne_zero k two_ne_zero)]
  · rw [if_neg (mt Nat.dvd_of_mod_eq_zero hdvd)]
    refine iff_of_false nofun fun h => hdvd ?_
    rw [← natAbs_signed s m, ← Int.natCast_dvd, h, cast_twoPow]
    exact Dvd.intro_left z rfl

/-- A number equals an integer if that is its value. -/
theorem toInt?_eq_some_iff {z : Int} : x.toInt? = some z ↔ x.value? = some (z : ℚ) := by
  cases x with
  | finite s m e =>
    rw [toInt?, value?, Option.some_inj]
    by_cases he : 0 ≤ e
    · rw [if_pos he, signed_mul, Option.some_inj, cast_twoPow]
      lift e to ℕ using he
      rw [Int.toNat_natCast, zpow_natCast]
      norm_cast
    · rw [if_neg he, quotient_eq_some_iff]
      have hk : e = -((-e).toNat : Int) := by omega
      have hpow : (2 : ℚ) ^ (-e).toNat ≠ 0 := pow_ne_zero _ two_ne_zero
      conv_rhs => rw [hk, zpow_neg, zpow_natCast, ← div_eq_mul_inv, div_eq_iff hpow]
      norm_cast
  | _ => simp [toInt?, value?]

theorem exists_of_value? {q : ℚ} (h : x.value? = some q) :
    ∃ s m e, x = .finite s m e ∧ (signed s m : ℚ) * 2 ^ e = q := by
  cases x with
  | finite s m e => exact ⟨s, m, e, rfl, Option.some.inj h⟩
  | _ => cases h

/-- Of two ways to write a number, the one with the lower exponent has more bits. -/
theorem finite_eq_of_le {e f : Int} (hle : e ≤ f) (hx : (finite s m e).IsNormal)
    (hy : (finite t n f).IsNormal) (hq : (signed s m : ℚ) * 2 ^ e ≠ 0)
    (h : (signed s m : ℚ) * 2 ^ e = signed t n * 2 ^ f) : finite s m e = finite t n f := by
  -- With the same exponent, the mantissas are compared.
  obtain ⟨k, rfl⟩ := Int.le.dest hle
  have hm : m ≠ 0 := by
    rintro rfl
    exact hq (by cases s <;> simp [signed])
  rw [zpow_add₀ two_ne_zero, zpow_natCast, mul_left_comm, mul_comm,
    mul_right_inj' (zpow_ne_zero e two_ne_zero)] at h
  have hsigned : signed s m = signed t (n * twoPow k) := by
    rw [signed_mul, cast_twoPow]
    exact_mod_cast h
  obtain ⟨rfl, rfl⟩ := eq_of_signed_eq hm hsigned
  obtain ⟨hbits, hmin, -, -⟩ := hx
  obtain ⟨-, -, -, hfull⟩ := hy
  cases k with
  | zero => simp [twoPow]
  | succ k =>
    -- The mantissa with the lower exponent has a bit too many.
    have htwo : 2 ≤ twoPow (k + 1) := by
      have hpos := twoPow_pos k
      rw [twoPow, Nat.pow_eq, pow_succ, ← Nat.pow_eq, ← twoPow]
      omega
    have hmul := Nat.mul_le_mul_left n htwo
    rcases hfull with hfull | hfull <;> omega

/-- A number is written in one way. -/
theorem eq_of_value? {q : ℚ} (hx : x.IsNormal) (hy : y.IsNormal) (hq : q ≠ 0)
    (hxq : x.value? = some q) (hyq : y.value? = some q) : x = y := by
  obtain ⟨s, m, e, rfl, rfl⟩ := exists_of_value? hxq
  obtain ⟨t, n, f, rfl, hvalue⟩ := exists_of_value? hyq
  rcases le_total e f with hle | hle
  · exact finite_eq_of_le hle hx hy hq hvalue.symm
  · exact (finite_eq_of_le hle hy hx (hvalue ▸ hq) hvalue).symm

end Binary64

/-! ## Scalars -/

namespace Scalar

variable {a b : Scalar}

/-- The value of a number. -/
def number? : Scalar → Option ℚ
  | bool b => some (if b then 1 else 0)
  | int n => some n
  | float x => x.value?
  | _ => none

/-- Equality of scalars. -/
inductive Equal : Scalar → Scalar → Prop where
  /-- A scalar is equal to itself, also one that is no number. -/
  | refl (a : Scalar) : Equal a a
  /-- Numbers of one value are equal, whatever their kind. -/
  | number {a b : Scalar} {q : ℚ} : a.number? = some q → b.number? = some q → Equal a b
  /-- Texts of the same code points are equal. -/
  | text {s t : TextValue} : s.points = t.points → Equal (.str s) (.str t)
  /-- Times of one instant are equal, if their distance to universal time is known. -/
  | instant {t u : Timestamp} : t.offset.isSome → u.offset.isSome → t.instant = u.instant →
      Equal (.timestamp t) (.timestamp u)

/-- A number or a text is written in its one way. -/
def IsNormal : Scalar → Prop
  | float x => x.IsNormal
  | str s => .ofPoints s.points = s
  | _ => True

/-- The scalar that a key comes from, if there is only one. -/
def ofKey? : Key → Option Scalar
  | .null => some .null
  | .integer _ => none
  | .number x => some (.float x)
  | .text s => some (.str s)
  | .bytes bs => some (.bytes bs)
  | .date d => some (.date d)
  | .localTime t => some (.timestamp t)
  | .instant _ => none

/-- The scalars with an integer for their key are the ones equal to it. -/
theorem key_eq_integer_iff {n : Int} : a.key = .integer n ↔ a.number? = some (n : ℚ) := by
  cases a with
  | bool b => cases b <;> simp [key, number?, Int.cast_eq_zero, eq_comm]
  | int m => simp [key, number?]
  | float x =>
    rw [number?, ← Binary64.toInt?_eq_some_iff, key]
    cases x.toInt? <;> simp
  | timestamp t =>
    rw [key]
    split <;> exact iff_of_false nofun nofun
  | _ => exact iff_of_false nofun nofun

/-- A scalar is told by its key, or is an integer or a time of an instant. -/
theorem key_cases (a : Scalar) : ofKey? a.key = some a ∨ (∃ n, a.key = .integer n) ∨
    ∃ t : Timestamp, a = .timestamp t ∧ t.offset.isSome ∧ a.key = .instant t.instant := by
  cases a with
  | bool b => exact .inr (.inl ⟨_, rfl⟩)
  | int n => exact .inr (.inl ⟨_, rfl⟩)
  | float x =>
    rw [key]
    cases x.toInt? with
    | none => exact .inl rfl
    | some n => exact .inr (.inl ⟨n, rfl⟩)
  | timestamp t =>
    rw [key]
    split
    · next ht => exact .inr (.inr ⟨t, rfl, ht, rfl⟩)
    · exact .inl rfl
  | _ => exact .inl rfl

/-- Only a text has its key. -/
theorem eq_of_key_eq_text {s : TextValue} (h : a.key = .text s) : a = .str s := by
  rcases key_cases a with ha | ⟨n, ha⟩ | ⟨t, -, -, ha⟩
  · rw [h] at ha
    exact (Option.some.inj ha).symm
  · cases h.symm.trans ha
  · cases h.symm.trans ha

/-- Scalars with the same key are equal. -/
theorem equal_of_key_eq (h : a.key = b.key) : a.Equal b := by
  rcases key_cases a with ha | ⟨n, ha⟩ | ⟨t, rfl, ht, ha⟩
  · rw [h] at ha
    rcases key_cases b with hb | ⟨n, hb⟩ | ⟨u, rfl, hu, hb⟩
    · cases ha.symm.trans hb
      exact .refl a
    · rw [hb] at ha
      cases ha
    · rw [hb] at ha
      cases ha
  · exact .number (key_eq_integer_iff.1 ha) (key_eq_integer_iff.1 (h ▸ ha))
  · rw [h] at ha
    rcases key_cases b with hb | ⟨n, hb⟩ | ⟨u, rfl, hu, hb⟩
    · rw [ha] at hb
      cases hb
    · cases ha.symm.trans hb
    · exact .instant ht hu (Key.instant.inj (ha.symm.trans hb))

/-- A number that is no integer is a floating-point number. -/
theorem exists_float {q : ℚ} (hq : ∀ z : Int, (z : ℚ) ≠ q) (h : a.number? = some q) :
    ∃ x, a = .float x ∧ x.value? = some q := by
  cases a with
  | bool b =>
    cases b <;> cases h
    · exact absurd Int.cast_zero (hq 0)
    · exact absurd Int.cast_one (hq 1)
  | int n =>
    cases h
    exact absurd rfl (hq n)
  | float x => exact ⟨x, rfl, h⟩
  | _ => cases h

/-- Two scalars have one key exactly if they are equal. -/
theorem key_eq_iff (ha : a.IsNormal) (hb : b.IsNormal) : a.key = b.key ↔ a.Equal b := by
  refine ⟨equal_of_key_eq, fun h => ?_⟩
  cases h with
  | refl => rfl
  | @number _ _ q haq hbq =>
    -- An integer is the key of all that equal it, and no other value can be written in two ways.
    by_cases hq : ∃ z : Int, (z : ℚ) = q
    · obtain ⟨z, rfl⟩ := hq
      rw [key_eq_integer_iff.2 haq, key_eq_integer_iff.2 hbq]
    · rw [not_exists] at hq
      obtain ⟨x, rfl, hx⟩ := exists_float hq haq
      obtain ⟨y, rfl, hy⟩ := exists_float hq hbq
      have hne : q ≠ 0 := fun h => hq 0 (h ▸ Int.cast_zero)
      rw [Binary64.eq_of_value? ha hb hne hx hy]
  | text hpoints => rw [← ha, ← hb, hpoints]
  | instant ht hu hinstant => rw [key, key, if_pos ht, if_pos hu, hinstant]

/-- Equality is transitive, also where three numbers are of three kinds. -/
theorem Equal.trans {c : Scalar} (ha : a.IsNormal) (hb : b.IsNormal) (hc : c.IsNormal)
    (h : a.Equal b) (h' : b.Equal c) : a.Equal c := by
  rw [← key_eq_iff ha hb] at h
  rw [← key_eq_iff hb hc] at h'
  exact equal_of_key_eq (h.trans h')

end Scalar

end CategoryLint
