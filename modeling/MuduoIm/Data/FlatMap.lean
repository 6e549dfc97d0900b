import MuduoIm.Data.NestedTable

namespace MuduoIm.Data

/-! # A table of tables as one map

The map from pairs of keys that a table of tables stands for, and what the
traversals of the table list of it.  A map says nothing about an order, so the
facts hold for every order in which the table is traversed.
-/

namespace Table

variable {Key Value : Type} [DecidableEq Key]

/-- The values of the chosen keys, one for each key, in some order. -/
def Lists (values : Key → Option Value) (chosen : Key → Prop) (listed : List Value) : Prop :=
  ∃ keys : List Key, keys.Nodup ∧ (∀ key, key ∈ keys ↔ chosen key) ∧ listed = keys.filterMap values

/-- The key has a value that is selected. -/
def Selects (values : Key → Option Value) (selected : Value → Bool) (key : Key) : Prop :=
  ∃ value, values key = some value ∧ selected value = true

variable {table : Table Key Value} {values : Key → Option Value} {selected : Value → Bool} {key : Key}

/-- A traversal lists the selected values of the table. -/
theorem lists_select (reads : ∀ key, table.lookup key = values key) :
    Lists values (Selects values selected) (table.select selected) := by
  have found (entry : Sigma fun _ : Key => Value) (member : entry ∈ table.entries) :
      values entry.1 = some entry.2 := by
    rw [← reads]
    exact AList.mem_lookup_iff.mpr member
  refine ⟨(table.entries.filter (fun entry => selected entry.2)).map Sigma.fst,
    (List.filter_sublist.map Sigma.fst).nodup table.nodupKeys, fun key => ?_, ?_⟩
  · constructor
    · intro member
      obtain ⟨entry, kept, rfl⟩ := List.mem_map.mp member
      obtain ⟨listed, chosen⟩ := List.mem_filter.mp kept
      exact ⟨entry.2, found entry listed, chosen⟩
    · intro given
      obtain ⟨value, held, chosen⟩ := given
      have listed : ⟨key, value⟩ ∈ table.entries := AList.mem_lookup_iff.mp ((reads key).trans held)
      exact List.mem_map.mpr ⟨⟨key, value⟩, List.mem_filter.mpr ⟨listed, chosen⟩, rfl⟩
  · have kept : ∀ entry ∈ table.entries.filter (fun entry => selected entry.2),
        values entry.1 = some entry.2 := fun entry member => found entry (List.mem_filter.mp member).1
    rw [select, List.filter_map, List.filterMap_map]
    exact (List.filterMap_eq_map_iff_forall_eq_some.mpr kept).symm

/-- Without one key, it lists the selected values of the other keys. -/
theorem lists_select_erase (reads : ∀ key, table.lookup key = values key) :
    Lists values (fun other => other ≠ key ∧ Selects values selected other)
      (Table.select (table.erase key) selected) := by
  have erased (other : Key) : (table.erase key).lookup other = if other = key then none else values other := by
    rw [lookup_erase_ite, reads]
  obtain ⟨keys, once, chosen, listed⟩ := (lists_select erased : Lists _ (Selects _ selected) _)
  have others : ∀ other, other ∈ keys ↔ other ≠ key ∧ Selects values selected other := by
    intro other
    rw [chosen, Selects, Selects]
    by_cases same : other = key
    · simp [same]
    · simp [same]
  refine ⟨keys, once, others, ?_⟩
  rw [listed]
  exact List.filterMap_congr (fun other member => if_neg ((others other).mp member).1)

/-- Some entry of the table is selected. -/
theorem any_entries (reads : ∀ key, table.lookup key = values key) :
    table.entries.any (fun entry => selected entry.2) = true ↔ ∃ key, Selects values selected key := by
  rw [List.any_eq_true]
  constructor
  · intro given
    obtain ⟨entry, member, chosen⟩ := given
    exact ⟨entry.1, entry.2, by rw [← reads]; exact AList.mem_lookup_iff.mpr member, chosen⟩
  · intro given
    obtain ⟨key, value, held, chosen⟩ := given
    exact ⟨⟨key, value⟩, AList.mem_lookup_iff.mp ((reads key).trans held), chosen⟩

end Table

variable {Outer Inner Value : Type} [DecidableEq Outer] [DecidableEq Inner]

abbrev FlatMap (Outer Inner Value : Type) := Outer → Inner → Option Value

namespace FlatMap

variable (flat : FlatMap Outer Inner Value) (outer : Outer) (inner : Inner)

def put (value : Value) : FlatMap Outer Inner Value :=
  Function.update flat outer (Function.update (flat outer) inner (some value))

def remove : FlatMap Outer Inner Value :=
  Function.update flat outer (Function.update (flat outer) inner none)

def erase : FlatMap Outer Inner Value := Function.update flat outer fun _ => none

def nothing : FlatMap Outer Inner Value := fun _ _ => none

/-- The table has the entries of the map, and no row without an entry. -/
structure Represents (table : NestedTable Outer Inner Value) : Prop where
  entries : ∀ outer inner, table.find outer inner = flat outer inner
  rows : NestedTable.RowsOccupied table

end FlatMap

open FlatMap

variable {table : NestedTable Outer Inner Value} {flat : FlatMap Outer Inner Value}
variable {outer : Outer} {inner : Inner} {value : Value} {selected : Value → Bool}

namespace FlatMap.Represents

theorem empty : Represents (nothing : FlatMap Outer Inner Value) ∅ :=
  ⟨fun _ _ => rfl, NestedTable.RowsOccupied.nothing⟩

theorem update_ite {entry : Option Value} (outer' : Outer) (inner' : Inner) :
    Function.update flat outer (Function.update (flat outer) inner entry) outer' inner' =
      if outer' = outer ∧ inner' = inner then entry else flat outer' inner' := by
  by_cases sameOuter : outer' = outer
  · subst sameOuter
    simp [Function.update_apply]
  · simp [sameOuter]

theorem put (represents : flat.Represents table) :
    (flat.put outer inner value).Represents (table.put outer inner value) where
  entries outer' inner' := by
    rw [NestedTable.find_put, represents.entries, FlatMap.put, update_ite]
  rows := represents.rows.put

theorem remove (represents : flat.Represents table) :
    (flat.remove outer inner).Represents (table.remove outer inner) where
  entries outer' inner' := by
    rw [NestedTable.find_remove, represents.entries, FlatMap.remove, update_ite]
  rows := represents.rows.remove

theorem erase (represents : flat.Represents table) : (flat.erase outer).Represents (table.erase outer) where
  entries outer' inner' := by
    rw [NestedTable.find_erase, represents.entries, FlatMap.erase, Function.update_apply]
    split
    · rfl
    · rfl
  rows := represents.rows.erase

/-- The rows of the table are those of the map that have an entry. -/
theorem row_of_mem (represents : flat.Represents table) {row : Sigma fun _ : Outer => Table Inner Value}
    (member : row ∈ table.entries) (inner : Inner) : row.2.lookup inner = flat row.1 inner := by
  have listed : table.lookup row.1 = some row.2 := AList.mem_lookup_iff.mpr member
  rw [← represents.entries, NestedTable.find, NestedTable.row, listed, Option.getD_some]

theorem mem_of_entry (represents : flat.Represents table) (held : flat outer inner = some value) :
    ∃ row ∈ table.entries, row.1 = outer ∧ ⟨inner, value⟩ ∈ row.2.entries := by
  rw [← represents.entries, NestedTable.find, NestedTable.row] at held
  cases listed : table.lookup outer with
  | none =>
      rw [listed] at held
      cases held
  | some row =>
      rw [listed] at held
      exact ⟨⟨outer, row⟩, AList.mem_lookup_iff.mp listed, rfl, AList.mem_lookup_iff.mp held⟩

/-- A traversal lists the outer keys that have a selected entry, each once. -/
theorem outer_keys (represents : flat.Represents table) {outers : List Outer}
    (traversed : outers = (table.entries.filter
      (fun row => row.2.entries.any (fun entry => selected entry.2))).map Sigma.fst) :
    outers.Nodup ∧ ∀ outer, outer ∈ outers ↔ ∃ inner, Table.Selects (flat outer) selected inner := by
  subst traversed
  refine ⟨(List.filter_sublist.map Sigma.fst).nodup table.nodupKeys, fun outer => ?_⟩
  constructor
  · intro member
    obtain ⟨row, kept, rfl⟩ := List.mem_map.mp member
    obtain ⟨listed, chosen⟩ := List.mem_filter.mp kept
    exact (Table.any_entries (represents.row_of_mem listed)).mp chosen
  · intro given
    obtain ⟨inner, value, held, chosen⟩ := given
    obtain ⟨row, listed, rfl, entry⟩ := represents.mem_of_entry held
    exact List.mem_map.mpr ⟨row, List.mem_filter.mpr
      ⟨listed, List.any_eq_true.mpr ⟨⟨inner, value⟩, entry, chosen⟩⟩, rfl⟩

end FlatMap.Represents

end MuduoIm.Data
