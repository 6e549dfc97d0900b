import Mathlib.Data.List.Range

namespace MuduoIm.Data

/-! # What a log segment produces

A consumer reads a log by offset and produces any number of outputs for each
record.  The outputs carry the offset of their record.
-/

variable {Record Output : Type} (produce : Record → List Output) (log : List Record)

def outputsAt (offset : Nat) : List (Nat × Output) :=
  match log[offset]? with
  | some record => (produce record).map (Prod.mk offset)
  | none => []

/-- The outputs of the records from offset `first` up to, but not with, `last`. -/
def outputs (first last : Nat) : List (Nat × Output) :=
  (List.range' first (last - first)).flatMap (outputsAt produce log)

variable {produce log} {first middle last offset : Nat}

@[simp] theorem outputs_self : outputs produce log first first = [] := by
  simp [outputs]

theorem outputs_append (lower : first ≤ middle) (upper : middle ≤ last) :
    outputs produce log first middle ++ outputs produce log middle last =
      outputs produce log first last := by
  have consecutive : List.range' first (middle - first) ++ List.range' middle (last - middle) =
      List.range' first (last - first) := by
    have join := List.range'_append_1 (s := first) (m := middle - first) (n := last - middle)
    rw [Nat.add_sub_cancel' lower] at join
    rw [join]
    congr 1
    omega
  rw [outputs, outputs, outputs, ← List.flatMap_append, consecutive]

theorem outputs_succ (lower : first ≤ last) :
    outputs produce log first (last + 1) =
      outputs produce log first last ++ outputsAt produce log last := by
  rw [← outputs_append lower (Nat.le_succ last)]
  simp [outputs]

/-- Records that are appended later do not change what a segment produced. -/
theorem outputs_publish {record : Record} (within : last ≤ log.length) :
    outputs produce (log ++ [record]) first last = outputs produce log first last := by
  refine List.flatMap_congr fun offset member => ?_
  have below : offset < log.length := by
    have bounds := List.mem_range'_1.mp member
    omega
  rw [outputsAt, outputsAt, List.getElem?_append_left below]

theorem filter_outputsAt :
    (outputsAt produce log last).filter (fun output => output.1 = offset) =
      if last = offset then outputsAt produce log last else [] := by
  simp only [outputsAt]
  by_cases same : last = offset
  · subst same
    cases log[last]? <;> simp
  · cases log[last]? <;> simp [same]

theorem filter_outputs_of_le (later : last ≤ offset) :
    (outputs produce log first last).filter (fun output => output.1 = offset) = [] := by
  rw [List.filter_eq_nil_iff]
  intro output member
  obtain ⟨source, within, found⟩ := List.mem_flatMap.mp member
  have bounds := List.mem_range'_1.mp within
  have named : output.1 = source := by
    simp only [outputsAt] at found
    split at found
    · obtain ⟨value, _, rfl⟩ := List.mem_map.mp found
      rfl
    · contradiction
  rw [decide_eq_true_eq]
  omega

/-- A segment holds the outputs of each of its records, and each of them once. -/
theorem filter_outputs (lower : first ≤ offset) (upper : offset < last) :
    (outputs produce log first last).filter (fun output => output.1 = offset) =
      outputsAt produce log offset := by
  induction last with
  | zero => omega
  | succ last ih =>
      rw [outputs_succ (by omega), List.filter_append, filter_outputsAt]
      by_cases same : last = offset
      · subst same
        rw [filter_outputs_of_le (Nat.le_refl last), if_pos rfl, List.nil_append]
      · rw [ih (by omega), if_neg same, List.append_nil]

end MuduoIm.Data
