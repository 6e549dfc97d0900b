import MuduoIm.Server.SagaCoordinator.Reversible

namespace MuduoIm.Server.SagaCoordinator

/-! # A saga of three inserts

The saga type `saga_test_basic`.  A row of `saga_test_table` stands for its
primary key, the text `saga-<saga_id>-<idx>`; its other columns are not read.
-/

abbrev TestTable := List (Int × Nat)

variable {Payload : Type}

/-- The first argument of a step says whether its statement is executed. -/
def mkInsert (idx : Nat) : StepFn Bool TestTable Payload := fun executed context table =>
  if executed ∧ (context.sagaId, idx) ∉ table then
    { ok := true, context, tables := (context.sagaId, idx) :: table }
  else { ok := false, context, tables := table }

/-- Deleting no row succeeds as well. -/
def mkDelete (idx : Nat) : StepFn Bool TestTable Payload := fun executed context table =>
  if executed then
    { ok := true, context, tables := table.filter (fun row => row ≠ (context.sagaId, idx)) }
  else { ok := false, context, tables := table }

def makeTestSaga (step3WillFail : Bool) : Definition Bool TestTable Payload where
  name := "saga_test_basic"
  steps := [
    { name := "step1_insert", forward := mkInsert 1, compensate := some (mkDelete 1) },
    { name := "step2_insert", forward := mkInsert 2, compensate := some (mkDelete 2) },
    if step3WillFail then
      { name := "step3_fail", compensate := none
        forward := fun _ context table =>
          { ok := false, context := { context with lastError := "intentional fail" }, tables := table } }
    else { name := "step3_insert", forward := mkInsert 3, compensate := some (mkDelete 3) }]

def insertedRows (sagaId : Int) (i : Nat) (table : TestTable) : Nat :=
  table.count (sagaId, i + 1)

/-- The steps of this saga find their rows by the saga id alone. -/
def recordsNothing (_ : Nat) (_ : Payload) : Prop := True

variable {idx : Nat} {executed : Bool} {context : Context Payload} {table : TestTable}

theorem mkInsert_confined : Confined insertedRows (@recordsNothing Payload) (mkInsert idx) where
  sagaId := fun _ _ _ => by unfold mkInsert; split <;> rfl
  others := fun _ _ _ other i apart => by
    simp only [mkInsert]
    split
    · simp [insertedRows, apart.symm]
    · rfl
  recorded := fun _ _ _ _ _ => trivial

theorem mkDelete_confined : Confined insertedRows (@recordsNothing Payload) (mkDelete idx) where
  sagaId := fun _ _ _ => by unfold mkDelete; split <;> rfl
  others := fun _ _ _ other i apart => by
    simp only [mkDelete]
    split
    · exact List.count_filter (by simp [apart])
    · rfl
  recorded := fun _ _ _ _ _ => trivial

theorem mkInsert_applies {i : Nat} (ok : (mkInsert (i + 1) executed context table).ok = true) :
    insertedRows context.sagaId i (mkInsert (i + 1) executed context table).tables =
        insertedRows context.sagaId i table + 1 ∧
      ∀ j, j ≠ i → insertedRows context.sagaId j (mkInsert (i + 1) executed context table).tables =
        insertedRows context.sagaId j table := by
  simp only [mkInsert] at ok ⊢
  split at ok
  · rename_i inserted
    rw [if_pos inserted]
    exact ⟨List.count_cons_self, fun j other => by simp [insertedRows, other.symm]⟩
  · contradiction

theorem mkDelete_undoes {i : Nat} (ok : (mkDelete (i + 1) executed context table).ok = true) :
    insertedRows context.sagaId i (mkDelete (i + 1) executed context table).tables = 0 ∧
      ∀ j, j ≠ i → insertedRows context.sagaId j (mkDelete (i + 1) executed context table).tables =
        insertedRows context.sagaId j table := by
  simp only [mkDelete] at ok ⊢
  split at ok
  · rename_i deleted
    rw [if_pos deleted]
    refine ⟨List.count_eq_zero_of_not_mem (by simp), fun j other => ?_⟩
    exact List.count_filter (by simp [other])
  · contradiction

/-- Step `i` of the saga: an insert with its delete, or the last step of the
failing variant. -/
theorem makeTestSaga_step {step3WillFail : Bool} {i : Nat} {step : Step Bool TestTable Payload}
    (found : (makeTestSaga step3WillFail).steps[i]? = some step) :
    (step.forward = mkInsert (i + 1) ∧ step.compensate = some (mkDelete (i + 1))) ∨
      (i = 2 ∧ step.compensate = none ∧ step.forward = fun _ context table =>
        { ok := false, context := { context with lastError := "intentional fail" }, tables := table }) := by
  rcases i with _ | _ | _ | i
  · cases found
    exact .inl ⟨rfl, rfl⟩
  · cases found
    exact .inl ⟨rfl, rfl⟩
  · cases step3WillFail with
    | false =>
        cases found
        exact .inl ⟨rfl, rfl⟩
    | true =>
        cases found
        exact .inr ⟨rfl, rfl, rfl⟩
  · cases found

theorem makeTestSaga_reversible (step3WillFail : Bool) :
    Reversible insertedRows (@recordsNothing Payload) (makeTestSaga step3WillFail) where
  forwardConfined := fun step member => by
    obtain ⟨i, found⟩ := List.mem_iff_getElem?.mp member
    rcases makeTestSaga_step found with ⟨inserts, _⟩ | ⟨_, _, fails⟩
    · rw [inserts]
      exact mkInsert_confined
    · rw [fails]
      exact ⟨fun _ _ _ => rfl, fun _ _ _ _ _ _ => rfl, fun _ _ _ _ _ => trivial⟩
  undoConfined := fun step member undo given => by
    obtain ⟨i, found⟩ := List.mem_iff_getElem?.mp member
    rcases makeTestSaga_step found with ⟨_, deletes⟩ | ⟨_, absent, _⟩
    · rw [deletes] at given
      cases given
      exact mkDelete_confined
    · rw [absent] at given
      contradiction
  applies := fun i step found executed context table ok => by
    rcases makeTestSaga_step found with ⟨inserts, _⟩ | ⟨_, _, fails⟩
    · rw [inserts] at ok ⊢
      exact ⟨trivial, mkInsert_applies ok⟩
    · rw [fails] at ok
      contradiction
  undoes := fun i step undo found given executed context table _ _ ok => by
    rcases makeTestSaga_step found with ⟨_, deletes⟩ | ⟨_, absent, _⟩
    · rw [deletes] at given
      cases given
      exact mkDelete_undoes ok
    · rw [absent] at given
      contradiction
  compensable := fun i step found notLast => by
    rcases makeTestSaga_step found with ⟨_, deletes⟩ | ⟨rfl, _, _⟩
    · exact ⟨_, deletes⟩
    · exact absurd notLast (Nat.lt_irrefl 3)

def testDefs : Definitions Bool TestTable Unit := fun sagaType =>
  if sagaType = (makeTestSaga false : Definition Bool TestTable Unit).name then some (makeTestSaga false) else none

theorem testDefs_reversible (sagaType : String) (definition : Definition Bool TestTable Unit)
    (registered : testDefs sagaType = some definition) :
    Reversible insertedRows recordsNothing definition := by
  simp only [testDefs] at registered
  split at registered
  · cases registered
    exact makeTestSaga_reversible false
  · contradiction

end MuduoIm.Server.SagaCoordinator
