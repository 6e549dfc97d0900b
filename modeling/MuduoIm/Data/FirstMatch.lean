import Mathlib.Data.List.Basic

namespace MuduoIm.Data.FirstMatch

/-! # Changing the first item that is selected -/

variable {Item : Type}

def updateFirst (selected : Item → Bool) (change : Item → Item) : List Item → List Item
  | [] => []
  | item :: rest => if selected item then change item :: rest else item :: updateFirst selected change rest

variable {selected other : Item → Bool} {change : Item → Item} {items : List Item}

/-- The selected item is the one that is changed, when it stays selected. -/
theorem find?_updateFirst (stays : ∀ item, selected item = true → selected (change item) = true) :
    (updateFirst selected change items).find? selected = (items.find? selected).map change := by
  induction items with
  | nil => rfl
  | cons item rest ih =>
      rw [updateFirst]
      by_cases chosen : selected item = true
      · rw [if_pos chosen, List.find?_cons_of_pos (stays item chosen), List.find?_cons_of_pos chosen, Option.map_some]
      · rw [if_neg chosen, List.find?_cons_of_neg chosen, List.find?_cons_of_neg chosen, ih]

/-- A search for other items does not meet the change. -/
theorem find?_updateFirst_of_other
    (apart : ∀ item, selected item = true → other item = false ∧ other (change item) = false) :
    (updateFirst selected change items).find? other = items.find? other := by
  induction items with
  | nil => rfl
  | cons item rest ih =>
      rw [updateFirst]
      by_cases chosen : selected item = true
      · obtain ⟨before, after⟩ := apart item chosen
        rw [if_pos chosen, List.find?_cons_of_neg (by simp [after]), List.find?_cons_of_neg (by simp [before])]
      · rw [if_neg chosen]
        by_cases sought : other item = true
        · rw [List.find?_cons_of_pos sought, List.find?_cons_of_pos sought]
        · rw [List.find?_cons_of_neg sought, List.find?_cons_of_neg sought, ih]

end MuduoIm.Data.FirstMatch
