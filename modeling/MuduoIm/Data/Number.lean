import Mathlib.Algebra.Order.Ring.Int

namespace MuduoIm.Data

/-! # Numbers in double precision

A finite number is a count of units of `2 ^ -1074`, the least positive double, so
that every double is a whole number of them.  The two zeros are one here: no
comparison tells them apart.
-/

inductive Number where
  | nan
  | infinite (negative : Bool)
  | finite (units : ℤ)
deriving DecidableEq, Repr

namespace Number

/-- The nearest multiple with 53 significant bits; of two, the even one. -/
def nearest (units : ℕ) : ℕ :=
  let shift := units.log2 - 52
  let quotient := units / 2 ^ shift
  let rest := units % 2 ^ shift
  if 2 ^ shift < 2 * rest ∨ (2 ^ shift = 2 * rest ∧ quotient % 2 = 1) then (quotient + 1) * 2 ^ shift
  else quotient * 2 ^ shift

/-- `2 ^ 1024`, from which on a result is infinite. -/
def overflow : ℕ := 2 ^ 2098

def round (units : ℤ) : Number :=
  if overflow ≤ nearest units.natAbs then .infinite (units < 0)
  else .finite (units.sign * nearest units.natAbs)

/-- The number 1. -/
def one : ℤ := 2 ^ 1074

def ofInt (count : ℤ) : Number := .finite (count * one)

def sub : Number → Number → Number
  | .nan, _ => .nan
  | _, .nan => .nan
  | .infinite negative, .infinite other => if negative = other then .nan else .infinite negative
  | .infinite negative, .finite _ => .infinite negative
  | .finite _, .infinite negative => .infinite (!negative)
  | .finite units, .finite other => round (units - other)

/-- `-1`, `0` or `1`; a NaN has no sign. -/
def sign : Number → Option ℤ
  | .nan => none
  | .infinite negative => some (if negative then -1 else 1)
  | .finite units => some units.sign

/-- `number <= 0` -/
def atMostZero (number : Number) : Bool := number.sign.any fun value => value ≤ 0

/-- `number > 0` -/
def aboveZero (number : Number) : Bool := number.sign.any fun value => 0 < value

/-- `number || 0`, for a member that may be absent: a NaN is falsy too. -/
def orZero : Option Number → Number
  | none => .finite 0
  | some .nan => .finite 0
  | some number => number

def IsFinite (number : Number) : Prop := ∃ units, number = .finite units

theorem not_aboveZero {number : Number} (low : number.atMostZero = true) : number.aboveZero = false := by
  rw [atMostZero] at low
  rw [aboveZero]
  cases known : number.sign with
  | none => rfl
  | some value => simpa [known] using low

/-- What is not zero is not rounded to zero. -/
theorem nearest_pos {units : ℕ} (positive : 0 < units) : 0 < nearest units := by
  have quotient : 0 < units / 2 ^ (units.log2 - 52) := by
    refine Nat.div_pos ?_ (Nat.two_pow_pos _)
    calc 2 ^ (units.log2 - 52) ≤ 2 ^ units.log2 := Nat.pow_le_pow_right (by decide) (Nat.sub_le _ _)
      _ ≤ units := Nat.log2_self_le positive.ne'
  rw [nearest]
  split
  · exact Nat.mul_pos (Nat.succ_pos _) (Nat.two_pow_pos _)
  · exact Nat.mul_pos quotient (Nat.two_pow_pos _)

/-- Rounding keeps the sign, also where the result is infinite. -/
theorem sign_round (units : ℤ) : (round units).sign = some units.sign := by
  rw [round]
  split
  · next large =>
      have differs : units ≠ 0 := by
        intro none
        rw [none] at large
        exact absurd large (by decide +kernel)
      rcases differs.lt_or_gt with negative | positive
      · simp [sign, negative, Int.sign_eq_neg_one_of_neg negative]
      · simp [sign, positive.le, Int.sign_eq_one_of_pos positive]
  · rcases eq_or_ne units 0 with rfl | differs
    · rfl
    · have magnitude := nearest_pos (Int.natAbs_pos.mpr differs)
      have positive : ((nearest units.natAbs : ℕ) : ℤ).sign = 1 := Int.sign_eq_one_of_pos (by exact_mod_cast magnitude)
      simp [sign, Int.sign_mul, positive]

theorem sign_sub (units other : ℤ) : (sub (.finite units) (.finite other)).sign = some (units - other).sign :=
  sign_round _

theorem one_pos : 0 < one := by decide +kernel

theorem sign_sub_ofInt (count other : ℤ) : (sub (ofInt count) (ofInt other)).sign = some (count - other).sign := by
  rw [ofInt, ofInt, sign_sub, ← sub_mul, Int.sign_mul, Int.sign_eq_one_of_pos one_pos, mul_one]

theorem sign_ofInt (count : ℤ) : (ofInt count).sign = some count.sign := by
  rw [ofInt, sign, Int.sign_mul, Int.sign_eq_one_of_pos one_pos, mul_one]

end Number

end MuduoIm.Data
