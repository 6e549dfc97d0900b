import Mathlib.Data.List.Sort

namespace MuduoIm.Data

/-! # Pages of a table

`SELECT … WHERE … ORDER BY … DESC LIMIT …`.  Rows that agree on the sort key
keep the order of the table.
-/

variable {Row : Type} (selected : Row → Bool) (key : Row → Int) (limit : Nat)

def page (rows : List Row) : List Row :=
  ((rows.filter selected).insertionSort (fun first second => key second ≤ key first)).take limit

variable {selected} {key} {limit} {rows other : List Row} {row : Row}

/-- The rows that are not selected do not matter. -/
theorem page_congr (same : rows.filter selected = other.filter selected) :
    page selected key limit rows = page selected key limit other := by
  rw [page, page, same]

theorem mem_of_mem_page (member : row ∈ page selected key limit rows) : row ∈ rows ∧ selected row = true :=
  List.mem_filter.mp ((List.mem_insertionSort _).mp (List.mem_of_mem_take member))

theorem page_map {Other : Type} (shown : Other → Row) (others : List Other) :
    page selected key limit (others.map shown) =
      (page (fun other => selected (shown other)) (fun other => key (shown other)) limit others).map shown := by
  rw [page, page, List.filter_map, List.map_take]
  congr 1
  exact (List.map_insertionSort (fun first second => key (shown second) ≤ key (shown first))
    (fun first second => key second ≤ key first) shown _ fun _ _ _ _ => Iff.rfl).symm

theorem page_eq_nil (positive : 0 < limit) :
    page selected key limit rows = [] ↔ ∀ row ∈ rows, selected row = false := by
  have sorted := List.length_insertionSort (fun first second : Row => key second ≤ key first) (rows.filter selected)
  rw [page, List.take_eq_nil_iff, ← List.length_eq_zero_iff, sorted, List.length_eq_zero_iff, List.filter_eq_nil_iff]
  constructor
  · intro given row member
    rcases given with none | empty
    · omega
    · exact Bool.eq_false_iff.mpr (empty row member)
  · intro none
    exact .inr fun row member => Bool.eq_false_iff.mp (none row member)

/-- Rows selected by a stricter condition are found among those of a weaker one. -/
theorem filter_of_weaker {weaker : Row → Bool} (implies : ∀ row, selected row = true → weaker row = true) :
    (rows.filter weaker).filter selected = rows.filter selected := by
  rw [List.filter_filter]
  apply List.filter_congr
  intro row _
  cases chosen : selected row with
  | false => rfl
  | true => rw [implies row chosen]; rfl

end MuduoIm.Data
