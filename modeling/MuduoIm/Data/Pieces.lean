import Mathlib.Data.List.TakeWhile
import MuduoIm.Data.Table

namespace MuduoIm.Data.Pieces

/-! # Files that are stored in pieces

The pieces are joined in the order of their indexes.  A stream that is given an
empty piece fails, and takes none of those after it.
-/

variable {α : Type}

/-- The pieces below the count, or the first index that has none. -/
def collect (stored : Table Nat (List α)) (count : Nat) : Except Nat (List (List α)) :=
  (List.range count).mapM fun index => (stored.lookup index).elim (.error index) .ok

/-- What a stream has taken after the pieces are put in. -/
def streamed (pieces : List (List α)) : List α := (pieces.takeWhile fun piece => !piece.isEmpty).flatten

/-- How many pieces of the size a file of the length has. -/
def count (size length : Nat) : Nat := (length + size - 1) / size

variable {stored : Table Nat (List α)} {size length number index : Nat} {pieces : List (List α)}

theorem mapM_ok {Index Value Fault : Type} {read : Index → Except Fault Value} {value : Index → Value}
    {indexes : List Index} (found : ∀ index ∈ indexes, read index = .ok (value index)) :
    indexes.mapM read = .ok (indexes.map value) := by
  induction indexes with
  | nil => rfl
  | cons index rest ih =>
      rw [List.mapM_cons, found index List.mem_cons_self,
        ih fun other member => found other (List.mem_cons_of_mem _ member)]
      rfl

theorem collect_eq_ok {piece : Nat → List α} (found : ∀ index < number, stored.lookup index = some (piece index)) :
    collect stored number = .ok ((List.range number).map piece) := by
  refine mapM_ok fun index member => ?_
  rw [found index (List.mem_range.mp member)]
  rfl

/-- Without the first piece the collection ends there. -/
theorem collect_eq_error (positive : 0 < number) (missing : stored.lookup 0 = none) :
    collect stored number = .error 0 := by
  obtain ⟨rest, rfl⟩ := Nat.exists_eq_succ_of_ne_zero (Nat.ne_of_gt positive)
  rw [collect, List.range_succ_eq_map, List.mapM_cons, missing]
  rfl

theorem streamed_eq_flatten (filled : ∀ piece ∈ pieces, piece ≠ []) : streamed pieces = pieces.flatten := by
  have taken : pieces.takeWhile (fun piece => !piece.isEmpty) = pieces := by
    refine List.takeWhile_eq_self_iff.mpr fun piece member => ?_
    simpa using filled piece member
  rw [streamed, taken]

theorem flatten_length_le (bounded : ∀ piece ∈ pieces, piece.length ≤ size) :
    pieces.flatten.length ≤ pieces.length * size := by
  induction pieces with
  | nil => exact Nat.zero_le _
  | cons piece rest ih =>
      have first := bounded piece List.mem_cons_self
      have others := ih fun other member => bounded other (List.mem_cons_of_mem _ member)
      rw [List.flatten_cons, List.length_append, List.length_cons, Nat.add_mul, Nat.one_mul]
      omega

/-- An empty piece leaves too little room for the others. -/
theorem flatten_length_of_empty (bounded : ∀ piece ∈ pieces, piece.length ≤ size) (empty : [] ∈ pieces) :
    pieces.flatten.length + size ≤ pieces.length * size := by
  obtain ⟨front, back, rfl⟩ := List.append_of_mem empty
  have inFront := flatten_length_le fun piece member => bounded piece (List.mem_append_left _ member)
  have behind := flatten_length_le fun piece member =>
    bounded piece (List.mem_append_right _ (List.mem_cons_of_mem _ member))
  rw [List.flatten_append, List.flatten_cons, List.nil_append, List.length_append, List.length_append,
    List.length_cons, Nat.add_mul, Nat.add_mul, Nat.one_mul]
  omega

theorem count_pos (positive : 0 < length) (room : 0 < size) : 0 < count size length :=
  Nat.div_pos (by omega) room

theorem count_mul_lt (positive : 0 < length) (room : 0 < size) : count size length * size < length + size := by
  have whole := Nat.div_mul_le_self (length + size - 1) size
  rw [count]
  omega

/-- As many bounded pieces as the file has make up its length only if none of
them is empty. -/
theorem filled_of_length (bounded : ∀ piece ∈ pieces, piece.length ≤ size)
    (enough : pieces.length = count size length) (positive : 0 < length) (room : 0 < size)
    (whole : pieces.flatten.length = length) : ∀ piece ∈ pieces, piece ≠ [] := by
  intro piece member empty
  rw [empty] at member
  have short := flatten_length_of_empty bounded member
  have few := count_mul_lt positive room
  rw [enough] at short
  omega

end MuduoIm.Data.Pieces
