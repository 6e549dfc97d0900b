import MuduoIm.Data.Table

namespace MuduoIm.Data

/-! # Tables of tables

Entries under two keys, stored in one table for each outer key.  A row whose
last entry is removed is removed with it.
-/

variable {Outer Inner Value : Type} [DecidableEq Outer]

abbrev NestedTable (Outer Inner Value : Type) := Table Outer (Table Inner Value)

namespace NestedTable

def row (table : NestedTable Outer Inner Value) (outer : Outer) : Table Inner Value :=
  (table.lookup outer).getD ∅

variable {table : NestedTable Outer Inner Value} {outer outer' : Outer}

theorem row_insert (entries : Table Inner Value) :
    row (table.insert outer entries) outer' = if outer' = outer then entries else row table outer' := by
  rw [row, Table.lookup_insert_ite]
  split
  · rfl
  · rfl

theorem row_erase :
    row (table.erase outer) outer' = if outer' = outer then ∅ else row table outer' := by
  rw [row, Table.lookup_erase_ite]
  split
  · rfl
  · rfl

variable [DecidableEq Inner] {inner inner' : Inner} {value : Value}

def find (table : NestedTable Outer Inner Value) (outer : Outer) (inner : Inner) : Option Value :=
  (table.row outer).lookup inner

def put (table : NestedTable Outer Inner Value) (outer : Outer) (inner : Inner) (value : Value) :
    NestedTable Outer Inner Value :=
  table.insert outer ((table.row outer).insert inner value)

/-- There is a row, and it has no entry but this one. -/
def lastIn (table : NestedTable Outer Inner Value) (outer : Outer) (inner : Inner) : Bool :=
  match table.lookup outer with
  | none => false
  | some entries => (entries.erase inner).keys.isEmpty

def remove (table : NestedTable Outer Inner Value) (outer : Outer) (inner : Inner) :
    NestedTable Outer Inner Value :=
  match table.lookup outer with
  | none => table
  | some entries =>
      if table.lastIn outer inner then table.erase outer
      else table.insert outer (entries.erase inner)

theorem find_put : (table.put outer inner value).find outer' inner' =
    if outer' = outer ∧ inner' = inner then some value else table.find outer' inner' := by
  rw [find, put, row_insert]
  by_cases sameRow : outer' = outer
  · rw [if_pos sameRow, Table.lookup_insert_ite, sameRow, find]
    simp
  · rw [if_neg sameRow, if_neg (fun both => sameRow both.1), find]

/-- The row without the entry, whether or not the row is kept. -/
theorem row_remove : (table.remove outer inner).row outer' =
    if outer' = outer then (table.row outer).erase inner else table.row outer' := by
  have nothing : (∅ : Table Inner Value).erase inner = ∅ := rfl
  cases found : table.lookup outer with
  | none =>
      have absent : table.row outer = ∅ := by simp [row, found]
      simp only [remove, found, absent, nothing]
      split
      · rename_i same
        rw [same, absent]
      · rfl
  | some entries =>
      have present : table.row outer = entries := by simp [row, found]
      simp only [remove, lastIn, found, present]
      by_cases emptied : (entries.erase inner).keys.isEmpty
      · have left : entries.erase inner = ∅ := by
          apply AList.ext
          exact List.map_eq_nil_iff.mp (List.isEmpty_iff.mp emptied)
        rw [if_pos emptied, row_erase, left]
      · rw [if_neg emptied, row_insert]

theorem find_remove : (table.remove outer inner).find outer' inner' =
    if outer' = outer ∧ inner' = inner then none else table.find outer' inner' := by
  rw [find, row_remove]
  by_cases sameRow : outer' = outer
  · rw [if_pos sameRow, Table.lookup_erase_ite, sameRow, find]
    simp
  · rw [if_neg sameRow, if_neg (fun both => sameRow both.1), find]

/-- The values that a row's traversal selects are values of its entries. -/
theorem select_row_ne_nil {selected : Value → Bool} :
    (table.row outer).select selected ≠ [] ↔
      ∃ inner value, table.find outer inner = some value ∧ selected value = true := by
  constructor
  · intro nonempty
    obtain ⟨value, member⟩ := List.exists_mem_of_ne_nil _ nonempty
    obtain ⟨⟨inner, found⟩, chosen⟩ := Table.mem_select.mp member
    exact ⟨inner, value, found, chosen⟩
  · intro given
    obtain ⟨inner, value, found, chosen⟩ := given
    have member := Table.mem_select.mpr ⟨⟨inner, found⟩, chosen⟩
    exact List.ne_nil_of_mem member

theorem find_erase : NestedTable.find (table.erase outer) outer' inner =
    if outer' = outer then none else table.find outer' inner := by
  rw [find, row_erase]
  by_cases sameRow : outer' = outer
  · rw [if_pos sameRow, if_pos sameRow, AList.lookup_empty]
  · rw [if_neg sameRow, if_neg sameRow, find]

/-- No row is kept without an entry. -/
def RowsOccupied (table : NestedTable Outer Inner Value) : Prop :=
  ∀ outer entries, table.lookup outer = some entries → entries ≠ ∅

namespace RowsOccupied

omit [DecidableEq Inner] in
theorem nothing : RowsOccupied (∅ : NestedTable Outer Inner Value) := by
  intro outer entries found
  rw [AList.lookup_empty] at found
  cases found

omit [DecidableEq Inner] in
theorem insert {entries : Table Inner Value} (occupied : RowsOccupied table) (filled : entries ≠ ∅) :
    RowsOccupied (table.insert outer entries) := by
  intro other found listed
  rw [Table.lookup_insert_ite] at listed
  split at listed
  · cases listed
    exact filled
  · exact occupied other found listed

omit [DecidableEq Inner] in
theorem erase (occupied : RowsOccupied table) : RowsOccupied (table.erase outer) := by
  intro other found listed
  rw [Table.lookup_erase_ite] at listed
  split at listed
  · cases listed
  · exact occupied other found listed

theorem put (occupied : RowsOccupied table) : RowsOccupied (table.put outer inner value) := by
  refine occupied.insert (fun emptied => ?_)
  have inserted := AList.lookup_insert (s := table.row outer) (a := inner) (b := value)
  rw [emptied, AList.lookup_empty] at inserted
  cases inserted

theorem remove (occupied : RowsOccupied table) : RowsOccupied (table.remove outer inner) := by
  rw [NestedTable.remove]
  cases found : table.lookup outer with
  | none => exact occupied
  | some entries =>
      simp only [lastIn, found]
      split
      · exact occupied.erase
      · rename_i kept
        refine occupied.insert (fun emptied => kept ?_)
        rw [emptied]
        rfl

end RowsOccupied

end NestedTable

end MuduoIm.Data
