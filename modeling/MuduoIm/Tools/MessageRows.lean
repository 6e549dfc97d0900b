import Mathlib.Data.List.Basic

namespace MuduoIm.Tools

/-! # The message tables as the workers under `tools/` read them

The workers select rows by `id`, which AUTO_INCREMENT counts in the order of the
inserts and not in the order of the timestamps.
-/

inductive Kind where
  | privateChat
  | group
deriving DecidableEq, Repr

/-- `target` is `to_user` or `group_id`. -/
structure Row where
  id : Nat
  msgId : String
  fromUser : Int
  target : Int
  content : String
  timestamp : Int
  recalled : Bool := false
deriving DecidableEq, Repr

abbrev Tables := Kind → List Row

def rewrite (id : Nat) (content : String) (recalled : Bool) (row : Row) : Row :=
  if row.id = id then { row with content, recalled } else row

/-- An UPDATE of one row. -/
def Tables.update (tables : Tables) (kind : Kind) (id : Nat) (content : String) (recalled : Bool) : Tables :=
  fun other => if other = kind then (tables kind).map (rewrite id content recalled) else tables other

def Tables.insert (tables : Tables) (kind : Kind) (row : Row) : Tables :=
  fun other => if other = kind then tables kind ++ [row] else tables other

variable {tables : Tables} {kind other : Kind} {id : Nat} {content : String} {recalled : Bool} {row : Row}

@[simp] theorem rewrite_id : (rewrite id content recalled row).id = row.id := by
  unfold rewrite
  split <;> rfl

@[simp] theorem rewrite_timestamp : (rewrite id content recalled row).timestamp = row.timestamp := by
  unfold rewrite
  split <;> rfl

@[simp] theorem rewrite_msgId : (rewrite id content recalled row).msgId = row.msgId := by
  unfold rewrite
  split <;> rfl

theorem rewrite_of_ne (apart : row.id ≠ id) : rewrite id content recalled row = row := if_neg apart

theorem mem_insert {added : Row} : row ∈ tables.insert kind added other ↔
    row ∈ tables other ∨ other = kind ∧ row = added := by
  unfold Tables.insert
  split
  · rename_i same
    subst same
    simp
  · rename_i apart
    simp [apart]

theorem mem_update : row ∈ tables.update kind id content recalled other ↔
    if other = kind then ∃ earlier ∈ tables other, rewrite id content recalled earlier = row
    else row ∈ tables other := by
  unfold Tables.update
  split
  · rename_i same
    subst same
    exact List.mem_map
  · exact Iff.rfl

/-- A row that another update has left alone. -/
theorem mem_of_mem_update (member : row ∈ tables.update kind id content recalled other)
    (apart : (other, row.id) ≠ (kind, id)) : row ∈ tables other := by
  rw [mem_update] at member
  split at member
  · rename_i same
    obtain ⟨earlier, was, rfl⟩ := member
    rw [rewrite_id, same] at apart
    rw [rewrite_of_ne fun updated => apart (by rw [updated])]
    exact was
  · exact member

/-- No two rows of a table agree in the field. -/
def Unique {Field : Type} (field : Row → Field) (tables : Tables) : Prop :=
  ∀ kind, ∀ row ∈ tables kind, ∀ other ∈ tables kind, field other = field row → other = row

theorem Unique.insert {Field : Type} {field : Row → Field} (unique : Unique field tables)
    (fresh : ∀ other ∈ tables kind, field other ≠ field row) : Unique field (tables.insert kind row) := by
  intro other first one second two same
  rw [mem_insert] at one two
  rcases one with one | ⟨rfl, rfl⟩
  · rcases two with two | ⟨rfl, rfl⟩
    · exact unique other first one second two same
    · exact absurd same.symm (fresh first one)
  · rcases two with two | ⟨_, rfl⟩
    · exact absurd same (fresh second two)
    · rfl

theorem Unique.update {Field : Type} {field : Row → Field} (unique : Unique field tables)
    (stable : ∀ row, field (rewrite id content recalled row) = field row) :
    Unique field (tables.update kind id content recalled) := by
  intro other first one second two same
  rw [mem_update] at one two
  split at one
  · rename_i sameKind
    rw [if_pos sameKind] at two
    obtain ⟨_, one, rfl⟩ := one
    obtain ⟨_, two, rfl⟩ := two
    rw [stable, stable] at same
    rw [unique other _ one _ two same]
  · rename_i apart
    rw [if_neg apart] at two
    exact unique other first one second two same

end MuduoIm.Tools
