import Mathlib.Algebra.Ring.Parity
import Mathlib.Data.Finset.Insert
import Mathlib.Data.Finset.Erase

namespace MuduoIm.Data.Toggles

/-! # Elements that are toggled one after the other

A toggle adds its element when it is absent and removes it when it is present,
and tells which of the two it did.
-/

variable {α : Type} [DecidableEq α]

def toggle (present : Finset α) (element : α) : Finset α :=
  if element ∈ present then present.erase element else insert element present

def toggleAll (present : Finset α) (elements : List α) : Finset α :=
  elements.foldl toggle present

/-- For each of the toggles, whether it added its element. -/
def added : Finset α → List α → List Bool
  | _, [] => []
  | present, element :: rest => decide (element ∉ present) :: added (toggle present element) rest

variable {present : Finset α} {element other : α} {elements earlier later : List α}

theorem mem_toggle_self : element ∈ toggle present element ↔ element ∉ present := by
  by_cases member : element ∈ present
  · rw [toggle, if_pos member]
    exact iff_of_false (Finset.notMem_erase element present) (not_not_intro member)
  · rw [toggle, if_neg member]
    exact iff_of_true (Finset.mem_insert_self element present) member

theorem mem_toggle_of_ne (different : other ≠ element) : other ∈ toggle present element ↔ other ∈ present := by
  by_cases member : element ∈ present
  · rw [toggle, if_pos member, Finset.mem_erase]
    exact and_iff_right different
  · rw [toggle, if_neg member, Finset.mem_insert]
    exact or_iff_right different

theorem toggleAll_concat : toggleAll present (elements ++ [element]) = toggle (toggleAll present elements) element := by
  simp only [toggleAll, List.foldl_append, List.foldl_cons, List.foldl_nil]

theorem added_append : added present (earlier ++ later) =
    added present earlier ++ added (toggleAll present earlier) later := by
  induction earlier generalizing present with
  | nil => rfl
  | cons head rest ih =>
      rw [List.cons_append, added, added, ih, List.cons_append]
      rfl

/-- An element belongs to the set after the toggles exactly if one of two
holds: it belonged to it before, or it was toggled an odd number of times. -/
theorem mem_toggleAll : element ∈ toggleAll present elements ↔
    Xor (element ∈ present) (Odd (elements.count element)) := by
  induction elements generalizing present with
  | nil =>
      rw [List.count_nil]
      have even : ¬ Odd 0 := by decide
      simp only [toggleAll, List.foldl_nil, Xor, even, not_false_eq_true, and_true, false_and, or_false]
  | cons head rest ih =>
      rw [toggleAll, List.foldl_cons, ← toggleAll, ih]
      by_cases same : head = element
      · subst same
        rw [mem_toggle_self, List.count_cons_self, Nat.odd_add_one, xor_not_left, xor_not_right]
      · rw [mem_toggle_of_ne (Ne.symm same), List.count_cons_of_ne same]

/-- The order of the toggles does not matter. -/
theorem toggleAll_perm (same : earlier.Perm later) : toggleAll present earlier = toggleAll present later := by
  ext element
  rw [mem_toggleAll, mem_toggleAll, same.count_eq]

end MuduoIm.Data.Toggles
