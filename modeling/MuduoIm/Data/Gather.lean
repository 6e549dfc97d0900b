import Mathlib.Algebra.GroupWithZero.Nat
import Mathlib.Data.List.Induction
import Mathlib.Logic.Function.Basic

namespace MuduoIm.Data

/-! # A loop that gathers items in slots

Each item goes into the next slot.  The item that takes the last slot turns the
group into output, and the slots are used again from the first one on; what an
earlier group left in them stays there until it is overwritten.
-/

structure Gather (Item Output : Type) (width : Nat) where
  result : List Output
  i : Fin width
  slots : Fin width → Item

namespace Gather

variable {Item Output : Type} {width : Nat} [NeZero width]

def start (result : List Output) (slots : Fin width → Item) : Gather Item Output width :=
  { result, i := 0, slots }

def push (flush : (Fin width → Item) → List Output) (gather : Gather Item Output width) (item : Item) :
    Gather Item Output width :=
  let slots := Function.update gather.slots gather.i item
  if next : gather.i.val + 1 < width then { gather with i := ⟨gather.i.val + 1, next⟩, slots }
  else { result := gather.result ++ flush slots, i := 0, slots }

/-- The slots from `i` on are cleared before an incomplete group is read. -/
def cleared (empty : Item) (gather : Gather Item Output width) : Fin width → Item :=
  fun slot => if gather.i ≤ slot then empty else gather.slots slot

/-- The slots with the items in the first of them. -/
def fill (items : List Item) (slots : Fin width → Item) : Fin width → Item :=
  fun slot => items.getD slot (slots slot)

omit [NeZero width] in
theorem update_fill {items : List Item} {slots : Fin width → Item} {item : Item}
    (room : items.length < width) :
    Function.update (fill items slots) ⟨items.length, room⟩ item = fill (items ++ [item]) slots := by
  funext slot
  simp only [Function.update_apply, fill, List.getD_eq_getElem?_getD, Fin.ext_iff]
  split
  · next last => rw [last, List.getElem?_concat_length, Option.getD_some]
  · next other =>
      rcases Nat.lt_or_gt_of_ne other with before | after
      · rw [List.getElem?_append_left before]
      · rw [List.getElem?_eq_none (by omega), List.getElem?_eq_none (by rw [List.length_append]; simp; omega)]

variable {flush : (Fin width → Item) → List Output} {result : List Output} {slots : Fin width → Item}

/-- A group that is not complete waits in its slots. -/
theorem foldl_push_of_lt {items : List Item} (short : items.length < width) :
    items.foldl (push flush) (start result slots) =
      { result, i := ⟨items.length, short⟩, slots := fill items slots } := by
  induction items using List.reverseRecOn with
  | nil => rfl
  | append_singleton items item ih =>
      have room : items.length + 1 < width := by simpa using short
      rw [List.foldl_append, ih (by omega), List.foldl_cons, List.foldl_nil, push]
      simp only [room, dif_pos, update_fill, List.length_append, List.length_singleton]

/-- A complete group is turned into output. -/
theorem foldl_push_of_eq {items : List Item} (complete : items.length = width) :
    items.foldl (push flush) (start result slots) =
      start (result ++ flush (fill items slots)) (fill items slots) := by
  induction items using List.reverseRecOn with
  | nil => exact absurd complete.symm (NeZero.ne width)
  | append_singleton before last _ =>
      rw [List.length_append, List.length_singleton] at complete
      have room : before.length < width := by omega
      rw [List.foldl_append, foldl_push_of_lt room, List.foldl_cons, List.foldl_nil, push]
      simp only [complete, Nat.lt_irrefl, dif_neg, not_false_eq_true, update_fill, start]

end Gather

end MuduoIm.Data
