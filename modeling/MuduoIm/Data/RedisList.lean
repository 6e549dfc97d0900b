import Mathlib.Data.List.Basic

namespace MuduoIm.Data.RedisList

/-! # Redis lists

The head of the Lean list is the left end of the Redis list.  Indices are
signed: `-1` is the last element, and a range is clipped to the list.
-/

variable {α : Type}

def lpush (list : List α) (element : α) : List α := element :: list

/-- Counts a negative index from the end. -/
def absolute (length : Nat) (index : Int) : Int :=
  if index < 0 then index + length else index

def lrange (list : List α) (start stop : Int) : List α :=
  let first := (absolute list.length start).toNat
  let last := absolute list.length stop
  (list.take (last + 1).toNat).drop first

/-- LTRIM keeps what LRANGE would return. -/
def ltrim (list : List α) (start stop : Int) : List α := lrange list start stop

theorem lrange_prefix (list : List α) (last : Nat) : lrange list 0 last = list.take (last + 1) := by
  have nonnegative : ¬ (last : Int) < 0 := by omega
  simp only [lrange, absolute, Int.lt_irrefl, if_false, nonnegative, Int.toNat_zero, List.drop_zero]
  rfl

theorem ltrim_suffix (list : List α) (start : Nat) : ltrim list start (-1) = list.drop start := by
  have nonnegative : ¬ (start : Int) < 0 := by omega
  have whole : ((-1 : Int) + list.length + 1).toNat = list.length := by omega
  simp only [ltrim, lrange, absolute, nonnegative, if_false, Int.toNat_natCast,
    show (-1 : Int) < 0 by decide, if_true, whole, List.take_length]

end MuduoIm.Data.RedisList
