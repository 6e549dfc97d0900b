import Mathlib.Data.List.AList

namespace MuduoIm.Data

/-! # Tables

An unordered map is an association list without repeated keys.  The order of
its entries stands for the order in which the map is traversed.
-/

variable {Key Value : Type}

abbrev Table (Key Value : Type) := AList (fun _ : Key => Value)

namespace Table

/-- The values of the entries that a traversal selects. -/
def select (table : Table Key Value) (selected : Value → Bool) : List Value :=
  (table.entries.map Sigma.snd).filter selected

/-- The entries whose values are kept. -/
def keep (table : Table Key Value) (kept : Value → Bool) : Table Key Value :=
  ⟨table.entries.filter (fun entry => kept entry.2),
    table.nodupKeys.sublist List.filter_sublist⟩

def mapValues (table : Table Key Value) (change : Value → Value) : Table Key Value :=
  ⟨table.entries.map (.map id (fun _ => change)), table.nodupKeys.map₂ _⟩

variable [DecidableEq Key] {table : Table Key Value} {key other : Key} {value : Value}

theorem lookup_insert_ite : (table.insert key value).lookup other =
    if other = key then some value else table.lookup other := by
  by_cases same : other = key
  · rw [same, if_pos rfl, AList.lookup_insert]
  · rw [if_neg same, AList.lookup_insert_ne same]

theorem lookup_erase_ite : (table.erase key).lookup other =
    if other = key then none else table.lookup other := by
  by_cases same : other = key
  · rw [same, if_pos rfl, AList.lookup_erase]
  · rw [if_neg same, AList.lookup_erase_ne same]

theorem mem_select {selected : Value → Bool} :
    value ∈ table.select selected ↔
      (∃ key, table.lookup key = some value) ∧ selected value = true := by
  have present : (∃ key, table.lookup key = some value) ↔
      value ∈ table.entries.map Sigma.snd := by
    constructor
    · intro given
      obtain ⟨key, found⟩ := given
      exact List.mem_map_of_mem (f := Sigma.snd) (AList.mem_lookup_iff.mp found)
    · intro member
      obtain ⟨⟨key, entry⟩, listed, rfl⟩ := List.mem_map.mp member
      exact ⟨key, AList.mem_lookup_iff.mpr listed⟩
  rw [select, List.mem_filter, present]

theorem lookup_keep {kept : Value → Bool} :
    (table.keep kept).lookup key = (table.lookup key).filter kept := by
  have held (value : Value) : (table.keep kept).lookup key = some value ↔
      table.lookup key = some value ∧ kept value = true := by
    have listed := @AList.mem_lookup_iff Key (fun _ => Value) _ key value
    rw [← Option.mem_def, ← Option.mem_def, listed, listed, keep, List.mem_filter]
  apply Option.ext
  intro value
  rw [held, Option.filter_eq_some_iff]

theorem lookup_mapValues {change : Value → Value} :
    (table.mapValues change).lookup key = (table.lookup key).map change :=
  List.dlookup_map₂ key

end Table

end MuduoIm.Data
