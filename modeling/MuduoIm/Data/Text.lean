import Mathlib.Data.List.TakeWhile

namespace MuduoIm.Data.Text

/-! # Texts on their way into a column and out of it

A column of limited length takes a text up to its limit.  A program that reads
a text as a `char*` ends it at the first NUL.
-/

variable {limit : Nat} {text : String}

/-- The first `limit` characters. -/
def cut (limit : Nat) (text : String) : String := String.ofList (text.toList.take limit)

/-- What a VARCHAR column of `limit` characters stores.  Blanks beyond the limit
are cut off; anything else there makes the statement fail. -/
def varchar (limit : Nat) (text : String) : Option String :=
  if (text.toList.drop limit).all (· = ' ') then some (cut limit text) else none

/-- What is left of a text after it has been a `char*`. -/
def cString (text : String) : String := String.ofList (text.toList.takeWhile (fun c => c ≠ '\x00'))

/-- The weights of a collation that tells all texts apart. -/
def codePoints (text : String) : List Nat := text.toList.map Char.toNat

theorem cut_eq_self_iff : cut limit text = text ↔ text.length ≤ limit := by
  constructor
  · intro same
    have length := congrArg String.length same
    rw [cut, String.length_ofList, List.length_take, String.length_toList] at length
    omega
  · intro within
    have short : text.toList.length ≤ limit := by rwa [String.length_toList]
    rw [cut, List.take_of_length_le short, String.ofList_toList]

theorem varchar_eq_cut (fits : (varchar limit text).isSome) : varchar limit text = some (cut limit text) := by
  unfold varchar at fits ⊢
  split
  · rfl
  · rename_i refused
    rw [if_neg refused] at fits
    cases fits

theorem notMem_cString (text : String) : '\x00' ∉ (cString text).toList := by
  intro member
  rw [cString, String.toList_ofList] at member
  have plain := List.mem_takeWhile_imp member
  simp at plain

theorem cString_eq_iff (text : String) : cString text = text ↔ '\x00' ∉ text.toList := by
  have whole : cString text = text ↔ text.toList.takeWhile (fun c => decide (c ≠ '\x00')) = text.toList := by
    rw [cString, ← String.toList_inj, String.toList_ofList]
  rw [whole, List.takeWhile_eq_self_iff]
  constructor
  · intro plain member
    exact of_decide_eq_true (plain _ member) rfl
  · intro absent c member
    apply decide_eq_true
    intro same
    exact absent (same ▸ member)

end MuduoIm.Data.Text
