import Mathlib.Data.Int.Order.Basic
import Mathlib.Data.List.DropRight
import Mathlib.Data.List.Perm.Basic
import Mathlib.Order.Lattice

namespace MuduoIm.Data.StableInsert

/-! # Insertion from the end of an ordered list

The place for an item is found by going back from the end over the items above
it, so an item equal to it stays in front of it.
-/

variable {Item : Type}

/-- The place behind the last of the first `count` items that is not above. -/
def place (above : Item → Bool) (arr : List Item) : ℕ → ℕ
  | 0 => 0
  | i + 1 => if arr[i]?.any above then place above arr i else i + 1

def insertAt (arr : List Item) (item : Item) (index : ℕ) : List Item := arr.take index ++ item :: arr.drop index

variable {above : Item → Bool} {arr : List Item} {item other : Item} {count index : ℕ}

theorem place_le (above : Item → Bool) (arr : List Item) (count : ℕ) : place above arr count ≤ count := by
  induction count with
  | zero => exact Nat.le_refl 0
  | succ i ih =>
      rw [place]
      split
      · exact Nat.le_succ_of_le ih
      · exact Nat.le_refl _

/-- Nothing is passed over but what is above. -/
theorem above_of_place_le (from_place : place above arr count ≤ index) (within : index < count)
    (found : arr[index]? = some other) : above other = true := by
  induction count with
  | zero => contradiction
  | succ i ih =>
      rw [place] at from_place
      split at from_place
      · next passed =>
          rcases Nat.lt_succ_iff_lt_or_eq.mp within with earlier | rfl
          · exact ih from_place earlier
          · rwa [found, Option.any_some] at passed
      · omega

/-- The search ends in front of the first item, or behind one that is not above. -/
theorem place_stops (within : count ≤ arr.length) :
    place above arr count = 0 ∨
      ∃ last, arr[place above arr count - 1]? = some last ∧ above last = false := by
  induction count with
  | zero => exact .inl rfl
  | succ i ih =>
      rw [place]
      split
      · exact ih (Nat.le_of_succ_le within)
      · next stopped =>
          refine .inr ⟨arr[i], ?_, ?_⟩
          · simp
          · simpa [List.getElem?_eq_getElem (Nat.lt_of_succ_le within)] using stopped

/-- Behind a last item that is not above, the search ends at once. -/
theorem place_length (last : ∀ item ∈ arr.getLast?, above item = false) : place above arr arr.length = arr.length := by
  cases ending : arr.length with
  | zero => rfl
  | succ i =>
      have found : arr[i]? = arr.getLast? := by rw [List.getLast?_eq_getElem?, ending, Nat.add_sub_cancel]
      rw [place, found, if_neg]
      intro passed
      cases known : arr.getLast? with
      | none => simp [known] at passed
      | some item =>
          rw [known, Option.any_some, last item known] at passed
          exact Bool.false_ne_true passed

/-- Only the items that are counted are looked at. -/
theorem place_append {more : List Item} (within : count ≤ arr.length) :
    place above (arr ++ more) count = place above arr count := by
  induction count with
  | zero => rfl
  | succ i ih => rw [place, place, List.getElem?_append_left within, ih (Nat.le_of_succ_le within)]

theorem place_map {Other : Type} (translate : Other → Item) (arr : List Other) (count : ℕ) :
    place above (arr.map translate) count = place (above ∘ translate) arr count := by
  induction count with
  | zero => rfl
  | succ i ih =>
      rw [place, place, List.getElem?_map, ih, Option.any_map]
      rfl

/-- The search drops from the end what is above. -/
theorem place_eq_length (above : Item → Bool) (arr : List Item) :
    place above arr arr.length = (arr.rdropWhile above).length := by
  induction arr using List.reverseRecOn with
  | nil => rfl
  | append_singleton arr last ih =>
      rw [List.length_append, List.length_singleton, place, List.getElem?_concat_length, Option.any_some]
      split
      · next passed => rw [place_append (Nat.le_refl _), ih, List.rdropWhile_concat_pos _ _ _ passed]
      · next stopped => rw [List.rdropWhile_concat_neg _ _ _ stopped, List.length_append, List.length_singleton]

/-- Insertion at the place, with the two parts of the list written out. -/
theorem insertAt_place (above : Item → Bool) (arr : List Item) (item : Item) :
    insertAt arr item (place above arr arr.length) = arr.rdropWhile above ++ item :: arr.rtakeWhile above := by
  have whole : arr.rdropWhile above ++ arr.rtakeWhile above = arr := List.rdropWhile_append_rtakeWhile
  have front := (congrArg (List.take (arr.rdropWhile above).length) whole).symm.trans List.take_left
  have back := (congrArg (List.drop (arr.rdropWhile above).length) whole).symm.trans List.drop_left
  rw [insertAt, place_eq_length, front, back]

theorem insertAt_map {Other : Type} (translate : Other → Item) (arr : List Other) (item : Other) (index : ℕ) :
    insertAt (arr.map translate) (translate item) index = (insertAt arr item index).map translate := by
  rw [insertAt, insertAt, List.map_append, List.map_cons, List.map_take, List.map_drop]

theorem insertAt_length (arr : List Item) (item : Item) : insertAt arr item arr.length = arr ++ [item] := by
  rw [insertAt, List.take_length, List.drop_length]

theorem insertAt_perm : (insertAt arr item index).Perm (item :: arr) := by
  have parts : (insertAt arr item index).Perm (item :: (arr.take index ++ arr.drop index)) := List.perm_middle
  rwa [List.take_append_drop] at parts

theorem getElem?_insertAt (within : index ≤ arr.length) : (insertAt arr item index)[index]? = some item := by
  have taken : (arr.take index).length = index := List.length_take_of_le within
  rw [insertAt, List.getElem?_append_right (Nat.le_of_eq taken), taken, Nat.sub_self]
  rfl

/-- What stands behind the new item stood at its place or behind it. -/
theorem mem_drop_of_insertAt {later : ℕ} (within : index ≤ arr.length) (behind : index < later)
    (found : (insertAt arr item index)[later]? = some other) : other ∈ arr.drop index := by
  have taken : (arr.take index).length = index := List.length_take_of_le within
  obtain ⟨distance, rfl⟩ := Nat.exists_eq_add_of_lt behind
  rw [insertAt, List.getElem?_append_right (by omega), taken,
    show index + distance + 1 - index = distance + 1 by omega, List.getElem?_cons_succ] at found
  exact List.mem_of_getElem? found

section Ranked

variable {Rank : Type} [LinearOrder Rank] {rank : Item → Rank}

/-- What a three-way comparison answers. -/
def orderSign (first second : Rank) : ℤ :=
  if first < second then -1 else if second < first then 1 else 0

variable {first second : Rank}

theorem orderSign_self (first : Rank) : orderSign first first = 0 := by simp [orderSign]

theorem orderSign_swap (first second : Rank) : orderSign first second = -orderSign second first := by
  rcases lt_trichotomy first second with below | rfl | above
  · simp [orderSign, below, below.asymm]
  · simp [orderSign]
  · simp [orderSign, above, above.asymm]

theorem orderSign_nonpos : orderSign first second ≤ 0 ↔ first ≤ second := by
  rcases lt_trichotomy first second with below | rfl | above
  · simp [orderSign, below, below.le]
  · simp [orderSign]
  · simp [orderSign, above, above.asymm]

theorem orderSign_pos : 0 < orderSign first second ↔ second < first := by
  rw [← not_le, orderSign_nonpos, not_le]

/-- In an ordered list the place parts the items up to the new one from those above it. -/
theorem place_parts (sorted : arr.Pairwise (fun first second => rank first ≤ rank second))
    (rule : ∀ other ∈ arr, above other = true ↔ rank item < rank other) :
    (∀ other ∈ arr.take (place above arr arr.length), rank other ≤ rank item) ∧
      ∀ other ∈ arr.drop (place above arr arr.length), rank item < rank other := by
  constructor
  · intro other member
    obtain ⟨index, within, rfl⟩ := List.mem_iff_getElem.mp member
    rw [List.length_take] at within
    rw [List.getElem_take]
    rcases @place_stops _ above arr arr.length (Nat.le_refl _) with front | ⟨last, found, notAbove⟩
    · omega
    obtain ⟨lastWithin, rfl⟩ := List.getElem?_eq_some_iff.mp found
    have lastBelow : rank arr[place above arr arr.length - 1] ≤ rank item := by
      rw [← not_lt, ← rule _ (List.getElem_mem lastWithin), notAbove]
      exact Bool.false_ne_true
    rcases Nat.lt_or_ge index (place above arr arr.length - 1) with earlier | here
    · exact (List.pairwise_iff_getElem.mp sorted _ _ _ lastWithin earlier).trans lastBelow
    · have same : index = place above arr arr.length - 1 := by omega
      subst same
      exact lastBelow
  · intro other member
    obtain ⟨index, found⟩ := List.mem_iff_getElem?.mp member
    rw [List.getElem?_drop] at found
    obtain ⟨within, _⟩ := List.getElem?_eq_some_iff.mp found
    exact (rule other (List.mem_of_mem_drop member)).mp (above_of_place_le (Nat.le_add_right _ _) within found)

theorem sorted_insertAt (sorted : arr.Pairwise (fun first second => rank first ≤ rank second))
    (before : ∀ other ∈ arr.take index, rank other ≤ rank item)
    (after : ∀ other ∈ arr.drop index, rank item < rank other) :
    (insertAt arr item index).Pairwise (fun first second => rank first ≤ rank second) := by
  rw [← List.take_append_drop index arr, List.pairwise_append] at sorted
  obtain ⟨front, back, apart⟩ := sorted
  refine List.pairwise_append.mpr ⟨front, List.pairwise_cons.mpr ⟨fun other member => (after other member).le, back⟩, ?_⟩
  intro other member later placed
  rcases List.mem_cons.mp placed with rfl | placed
  · exact before other member
  · exact apart other member later placed

end Ranked

end MuduoIm.Data.StableInsert
