import Mathlib.Logic.Function.Basic
import MuduoIm.Transition.Machine

namespace MuduoIm.Server.SagaCoordinator

open MuduoIm.Transition

/-! # The saga coordinator

`execute` runs the forward steps of a saga one transaction each, and when one
of them fails runs the compensations of the earlier steps in reverse.  After a
crash `recoverIncomplete` calls `execute` again for every saga of `saga_log`
that is still `running` or `compensating`.  Below, one transaction and one
statement outside a transaction are one event each, so a crash and the steps of
other sagas may fall between any two of them.
-/

structure Context (Payload : Type) where
  sagaId : Int
  sagaType : String
  payload : Payload
  currentStep : Nat := 0
  lastError : String := ""

structure StepResult (Tables Payload : Type) where
  ok : Bool
  context : Context Payload
  tables : Tables

/-- A step function reads and writes the business tables and the context; the
first argument is what its statements meet.  A step that throws counts as one
that returns false. -/
abbrev StepFn (Env Tables Payload : Type) :=
  Env → Context Payload → Tables → StepResult Tables Payload

structure Step (Env Tables Payload : Type) where
  name : String
  forward : StepFn Env Tables Payload
  compensate : Option (StepFn Env Tables Payload)

structure Definition (Env Tables Payload : Type) where
  name : String
  steps : List (Step Env Tables Payload)

/-- `defs_`, by name. -/
abbrev Definitions (Env Tables Payload : Type) := String → Option (Definition Env Tables Payload)

/-! ## The `saga_log` row -/

inductive SagaState where
  | running
  | compensating
  | done
  | failed
deriving DecidableEq, Repr

structure Row (Payload : Type) where
  sagaType : String
  state : SagaState := .running
  currentStep : Nat := 0
  payload : Payload
  errorMsg : Option String := none

/-- The rows that `recoverIncomplete` selects. -/
def SagaState.Incomplete (state : SagaState) : Prop :=
  state = .running ∨ state = .compensating

instance (state : SagaState) : Decidable state.Incomplete := by
  unfold SagaState.Incomplete
  infer_instance

variable {Env Tables Payload : Type}

def loadContextAndDef (defs : Definitions Env Tables Payload) (sagaId : Int) (row : Row Payload) :
    Option (Context Payload × Definition Env Tables Payload) :=
  (defs row.sagaType).map fun definition =>
    ({ sagaId, sagaType := row.sagaType, payload := row.payload, currentStep := row.currentStep },
      definition)

/-! The three marks ignore whether their UPDATE was executed. -/

def markDone (row : Row Payload) (executed : Bool) : Row Payload :=
  if executed then { row with state := .done } else row

def markCompensating (row : Row Payload) (error : String) (executed : Bool) : Row Payload :=
  if executed then { row with state := .compensating, errorMsg := some error } else row

def markFailed (row : Row Payload) (error : String) (executed : Bool) : Row Payload :=
  if executed then { row with state := .failed, errorMsg := some error } else row

/-! ## One forward step and one compensation -/

/-- `answerLost` is a COMMIT that the database executes while the connection
breaks before the answer. -/
inductive ForwardOutcome (Env : Type) where
  | noConnection
  | beginFailed
  | attempt (env : Env) (updated committed : Bool)
  | answerLost (env : Env)

/-- `ok` says whether the loop goes on, `committed` whether the database has
committed the step. -/
structure Attempt (Tables Payload : Type) where
  ok : Bool
  committed : Bool := ok
  context : Context Payload
  row : Row Payload
  tables : Tables

/-- The body of the forward loop.  The step and the progress of the row commit
together or, through the guard, not at all. -/
def forward (step : Step Env Tables Payload) (i : Nat) (context : Context Payload)
    (row : Row Payload) (tables : Tables) : ForwardOutcome Env → Attempt Tables Payload
  | .noConnection =>
      { ok := false, row, tables
        context := { context with currentStep := i, lastError := "acquire conn failed" } }
  | .beginFailed =>
      { ok := false, row, tables
        context := { context with currentStep := i, lastError := "begin tx failed" } }
  | .attempt env updated committed =>
      let result := step.forward env { context with currentStep := i } tables
      if !result.ok then { ok := false, context := result.context, row, tables }
      else if !updated || !committed then
        { ok := false, row, tables
          context := { result.context with lastError := "saga_log update or commit failed" } }
      else
        { ok := true, context := result.context, tables := result.tables
          row := { row with currentStep := i + 1, payload := result.context.payload } }
  | .answerLost env =>
      let result := step.forward env { context with currentStep := i } tables
      if !result.ok then { ok := false, context := result.context, row, tables }
      else
        -- the loop takes it for a COMMIT that has failed
        { ok := false, committed := true, tables := result.tables
          context := { result.context with lastError := "saga_log update or commit failed" }
          row := { row with currentStep := i + 1, payload := result.context.payload } }

inductive CompensateOutcome (Env : Type) where
  | noConnection
  | attempt (env : Env) (began committed : Bool)

/-- `wrote` says whether the tables may have changed, `complete` whether there
is nothing left to compensate here. -/
structure Compensation (Tables Payload : Type) where
  context : Context Payload
  tables : Tables
  wrote : Bool
  complete : Bool

/-- The body of the compensation loop.  It does not check that BEGIN succeeded;
without a transaction every statement commits by itself. -/
def compensate (step : Step Env Tables Payload) (context : Context Payload) (tables : Tables)
    (outcome : CompensateOutcome Env) : Compensation Tables Payload :=
  match step.compensate, outcome with
  | none, _ => { context, tables, wrote := false, complete := true }
  | some _, .noConnection => { context, tables, wrote := false, complete := false }
  | some undo, .attempt env began committed =>
      let result := undo env context tables
      if began then
        if result.ok && committed then
          { context := result.context, tables := result.tables, wrote := true, complete := true }
        else { context := result.context, tables, wrote := false, complete := false }
      else
        { context := result.context, tables := result.tables, wrote := true, complete := result.ok }

/-! ## A call of `execute` -/

/-- Where the process stands with a saga: no call since its start, before
forward step `i`, before `markCompensating`, before the compensation of step
`remaining - 1`, or after the call. -/
inductive Phase (Payload : Type) where
  | idle
  | forward (i : Nat) (context : Context Payload)
  | forwardFailed (context : Context Payload)
  | compensating (remaining : Nat) (context : Context Payload)
  | returned

/-- `compensated` and `abandoned` are history: some compensation has written to
the tables; the last call of `execute` has left a compensation uncommitted. -/
structure Saga (Payload : Type) where
  row : Row Payload
  call : Phase Payload := .idle
  compensated : Bool := false
  abandoned : Bool := false

inductive SagaEvent (Env : Type) where
  | execute (loaded : Bool)
  | forward (outcome : ForwardOutcome Env)
  | markDone (executed : Bool)
  | markCompensating (executed : Bool)
  | compensate (outcome : CompensateOutcome Env)
  | markFailed (executed : Bool)

def sagaStep (defs : Definitions Env Tables Payload) (sagaId : Int) (saga : Saga Payload)
    (tables : Tables) : SagaEvent Env → Option (Saga Payload × Tables)
  -- a new saga is executed by its creator, an old one by `recoverIncomplete`
  | .execute loaded =>
      match saga.call with
      | .idle =>
          if saga.row.state.Incomplete then
            match if loaded then loadContextAndDef defs sagaId saga.row else none with
            | none => some ({ saga with call := .returned }, tables)
            | some (context, _) =>
                some ({ saga with call := .forward context.currentStep context, abandoned := false }, tables)
          else none
      | _ => none
  | .forward outcome =>
      match saga.call, defs saga.row.sagaType with
      | .forward i context, some definition =>
          match definition.steps[i]? with
          | none => none
          | some step =>
              let attempt := SagaCoordinator.forward step i context saga.row tables outcome
              some ({ saga with
                row := attempt.row
                call := if attempt.ok then .forward (i + 1) attempt.context
                  else .forwardFailed attempt.context }, attempt.tables)
      | _, _ => none
  | .markDone executed =>
      match saga.call, defs saga.row.sagaType with
      | .forward i _, some definition =>
          if i < definition.steps.length then none
          else some ({ saga with row := SagaCoordinator.markDone saga.row executed, call := .returned }, tables)
      | _, _ => none
  | .markCompensating executed =>
      match saga.call with
      | .forwardFailed context =>
          some ({ saga with
            row := SagaCoordinator.markCompensating saga.row context.lastError executed
            call := .compensating context.currentStep context }, tables)
      | _ => none
  | .compensate outcome =>
      match saga.call, defs saga.row.sagaType with
      | .compensating (remaining + 1) context, some definition =>
          match definition.steps[remaining]? with
          | none => none
          | some step =>
              let compensation := SagaCoordinator.compensate step context tables outcome
              some ({ saga with
                call := .compensating remaining compensation.context
                compensated := saga.compensated || compensation.wrote
                abandoned := saga.abandoned || !compensation.complete }, compensation.tables)
      | _, _ => none
  | .markFailed executed =>
      match saga.call with
      | .compensating 0 context =>
          some ({ saga with
            row := SagaCoordinator.markFailed saga.row context.lastError executed
            call := .returned }, tables)
      | _ => none

/-! ## What an event does

Each event has one place in a call; the lemmas name it and what the event leaves.
-/

section

variable {defs : Definitions Env Tables Payload} {sagaId : Int} {saga after : Saga Payload}
variable {tables afterTables : Tables} {executed : Bool}

theorem executes_of_sagaStep {loaded : Bool}
    (stepped : sagaStep defs sagaId saga tables (.execute loaded : SagaEvent Env) = some (after, afterTables)) :
    saga.call = .idle ∧ saga.row.state.Incomplete ∧ afterTables = tables ∧
      ((loaded = false ∨ defs saga.row.sagaType = none) ∧ after = { saga with call := .returned } ∨
        after = { saga with
          call := .forward saga.row.currentStep {
            sagaId, sagaType := saga.row.sagaType
            payload := saga.row.payload, currentStep := saga.row.currentStep }
          abandoned := false }) := by
  simp only [sagaStep] at stepped
  split at stepped
  · rename_i idle
    split at stepped
    · rename_i incomplete
      refine ⟨idle, incomplete, ?_⟩
      cases loaded with
      | false =>
          cases stepped
          exact ⟨rfl, .inl ⟨.inl rfl, rfl⟩⟩
      | true =>
          rw [if_pos rfl, loadContextAndDef] at stepped
          cases registered : defs saga.row.sagaType with
          | none =>
              rw [registered] at stepped
              cases stepped
              exact ⟨rfl, .inl ⟨.inr rfl, rfl⟩⟩
          | some definition =>
              rw [registered] at stepped
              cases stepped
              exact ⟨rfl, .inr rfl⟩
    · cases stepped
  · cases stepped

theorem forwards_of_sagaStep {outcome : ForwardOutcome Env}
    (stepped : sagaStep defs sagaId saga tables (.forward outcome) = some (after, afterTables)) :
    ∃ i context definition step, saga.call = .forward i context ∧ defs saga.row.sagaType = some definition ∧
      definition.steps[i]? = some step ∧
      let attempt := forward step i context saga.row tables outcome
      afterTables = attempt.tables ∧ after = { saga with
        row := attempt.row
        call := if attempt.ok then .forward (i + 1) attempt.context else .forwardFailed attempt.context } := by
  simp only [sagaStep] at stepped
  split at stepped
  · rename_i i context definition call registered
    split at stepped
    · cases stepped
    · rename_i step found
      cases stepped
      exact ⟨i, context, definition, step, call, registered, found, rfl, rfl⟩
  · cases stepped

theorem marksDone_of_sagaStep
    (stepped : sagaStep defs sagaId saga tables (.markDone executed : SagaEvent Env) = some (after, afterTables)) :
    ∃ i context definition, saga.call = .forward i context ∧ defs saga.row.sagaType = some definition ∧
      definition.steps.length ≤ i ∧ afterTables = tables ∧
      after = { saga with row := markDone saga.row executed, call := .returned } := by
  simp only [sagaStep] at stepped
  split at stepped
  · rename_i i context definition call registered
    split at stepped
    · cases stepped
    · rename_i last
      cases stepped
      exact ⟨i, context, definition, call, registered, Nat.not_lt.mp last, rfl, rfl⟩
  · cases stepped

theorem marksCompensating_of_sagaStep
    (stepped : sagaStep defs sagaId saga tables (.markCompensating executed : SagaEvent Env) =
      some (after, afterTables)) :
    ∃ context, saga.call = .forwardFailed context ∧ afterTables = tables ∧ after = { saga with
      row := markCompensating saga.row context.lastError executed
      call := .compensating context.currentStep context } := by
  simp only [sagaStep] at stepped
  split at stepped
  · rename_i context call
    cases stepped
    exact ⟨context, call, rfl, rfl⟩
  · cases stepped

theorem compensates_of_sagaStep {outcome : CompensateOutcome Env}
    (stepped : sagaStep defs sagaId saga tables (.compensate outcome) = some (after, afterTables)) :
    ∃ remaining context definition step, saga.call = .compensating (remaining + 1) context ∧
      defs saga.row.sagaType = some definition ∧ definition.steps[remaining]? = some step ∧
      let compensation := compensate step context tables outcome
      afterTables = compensation.tables ∧ after = { saga with
        call := .compensating remaining compensation.context
        compensated := saga.compensated || compensation.wrote
        abandoned := saga.abandoned || !compensation.complete } := by
  simp only [sagaStep] at stepped
  split at stepped
  · rename_i remaining context definition call registered
    split at stepped
    · cases stepped
    · rename_i step found
      cases stepped
      exact ⟨remaining, context, definition, step, call, registered, found, rfl, rfl⟩
  · cases stepped

theorem marksFailed_of_sagaStep
    (stepped : sagaStep defs sagaId saga tables (.markFailed executed : SagaEvent Env) = some (after, afterTables)) :
    ∃ context, saga.call = .compensating 0 context ∧ afterTables = tables ∧ after = { saga with
      row := markFailed saga.row context.lastError executed
      call := .returned } := by
  simp only [sagaStep] at stepped
  split at stepped
  · rename_i context call
    cases stepped
    exact ⟨context, call, rfl, rfl⟩
  · cases stepped

end

/-! ## All sagas of a server -/

structure State (Tables Payload : Type) where
  sagas : Int → Option (Saga Payload) := fun _ => none
  tables : Tables

inductive Event (Env Payload : Type) where
  | start (sagaId : Int) (sagaType : String) (payload : Payload)
  | saga (sagaId : Int) (event : SagaEvent Env)
  | crash

def step (defs : Definitions Env Tables Payload) (state : State Tables Payload) :
    Event Env Payload → Option (State Tables Payload)
  | .start sagaId sagaType payload =>
      if state.sagas sagaId = none ∧ (defs sagaType).isSome then
        some { state with
          sagas := Function.update state.sagas sagaId (some { row := { sagaType, payload } }) }
      else none
  | .saga sagaId event =>
      match state.sagas sagaId with
      | none => none
      | some saga =>
          match sagaStep defs sagaId saga state.tables event with
          | none => none
          | some (after, tables) =>
              some { sagas := Function.update state.sagas sagaId (some after), tables }
  -- the restarted server calls `recoverIncomplete` before anything else
  | .crash => some { state with
      sagas := fun sagaId => (state.sagas sagaId).map (fun saga => { saga with call := .idle }) }

def machine (defs : Definitions Env Tables Payload) :
    Machine (State Tables Payload) (Event Env Payload) := ⟨step defs⟩

end MuduoIm.Server.SagaCoordinator
