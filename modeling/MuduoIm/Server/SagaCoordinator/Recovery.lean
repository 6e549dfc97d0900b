import MuduoIm.Server.SagaCoordinator.Reversible

namespace MuduoIm.Server.SagaCoordinator

open MuduoIm.Transition

/-! # One call of `execute`, and what recovery does afterwards

A call that no crash interrupts is a function of the answers of the database.
What is left of its saga then is the row in `saga_log`: as long as it is
incomplete, every start of the server enters `execute` again.
-/

variable {Env Tables Payload : Type}

/-- `forwards i` and `compensations i` answer step `i`, the others the load and
the three marks. -/
structure ExecuteAnswers (Env : Type) where
  loaded : Bool
  forwards : Nat → ForwardOutcome Env
  done : Bool
  compensating : Bool
  compensations : Nat → CompensateOutcome Env
  failed : Bool

/-- The steps from step `i` on. -/
def forwardLoop (outcomes : Nat → ForwardOutcome Env) :
    List (Step Env Tables Payload) → Nat → Context Payload → Row Payload → Tables → Attempt Tables Payload
  | [], _, context, row, tables => { ok := true, context, row, tables }
  | step :: rest, i, context, row, tables =>
      let attempt := forward step i context row tables (outcomes i)
      if attempt.ok then forwardLoop outcomes rest (i + 1) attempt.context attempt.row attempt.tables
      else attempt

/-- The steps below the third argument, in reverse. -/
def compensateLoop (outcomes : Nat → CompensateOutcome Env) (steps : List (Step Env Tables Payload)) :
    Nat → Context Payload → Tables → Context Payload × Tables
  | 0, context, tables => (context, tables)
  | i + 1, context, tables =>
      match steps[i]? with
      | none => (context, tables)
      | some step =>
          let compensation := compensate step context tables (outcomes i)
          compensateLoop outcomes steps i compensation.context compensation.tables

structure Executed (Tables Payload : Type) where
  ok : Bool
  row : Row Payload
  tables : Tables

/-- What follows the forward loop. -/
def conclude (definition : Definition Env Tables Payload) (answers : ExecuteAnswers Env)
    (attempt : Attempt Tables Payload) : Executed Tables Payload :=
  if attempt.ok then { ok := true, row := markDone attempt.row answers.done, tables := attempt.tables }
  else
    let marked := markCompensating attempt.row attempt.context.lastError answers.compensating
    let left := compensateLoop answers.compensations definition.steps attempt.context.currentStep
      attempt.context attempt.tables
    { ok := false, row := markFailed marked left.1.lastError answers.failed, tables := left.2 }

def execute (defs : Definitions Env Tables Payload) (sagaId : Int) (answers : ExecuteAnswers Env)
    (row : Row Payload) (tables : Tables) : Executed Tables Payload :=
  match if answers.loaded then loadContextAndDef defs sagaId row else none with
  | none => { ok := false, row, tables }
  | some (context, definition) => conclude definition answers
      (forwardLoop answers.forwards (definition.steps.drop context.currentStep) context.currentStep context row tables)

/-! ## The steps of one saga through restarts -/

inductive RecoveryEvent (Env : Type) where
  | restart
  | saga (event : SagaEvent Env)

/-- Nothing but this saga writes to the tables. -/
def recoveryStep (defs : Definitions Env Tables Payload) (sagaId : Int) (state : Saga Payload × Tables) :
    RecoveryEvent Env → Option (Saga Payload × Tables)
  | .restart => some ({ state.1 with call := .idle }, state.2)
  | .saga event => sagaStep defs sagaId state.1 state.2 event

def recovery (defs : Definitions Env Tables Payload) (sagaId : Int) :
    Machine (Saga Payload × Tables) (RecoveryEvent Env) := ⟨recoveryStep defs sagaId⟩

variable {defs : Definitions Env Tables Payload} {definition : Definition Env Tables Payload}
variable {sagaId : Int} {saga after : Saga Payload} {tables afterTables : Tables} {row : Row Payload}
variable {step : Step Env Tables Payload} {context : Context Payload} {i count : Nat}

/-- The steps of the coordinator that recovery takes. -/
def RecoveryEvent.event (sagaId : Int) : RecoveryEvent Env → Event Env Payload
  | .restart => .crash
  | .saga event => .saga sagaId event

/-- Recovery of a saga is a run of the coordinator. -/
theorem recovery_run {events : List (RecoveryEvent Env)}
    (completed : (recovery defs sagaId).run (saga, tables) events = some (after, afterTables)) :
    (machine defs).run { sagas := Function.update (fun _ => none) sagaId (some saga), tables }
        (events.map (RecoveryEvent.event sagaId)) =
      some { sagas := Function.update (fun _ => none) sagaId (some after), tables := afterTables } := by
  induction events generalizing saga tables with
  | nil =>
      cases completed
      rfl
  | cons event rest ih =>
      obtain ⟨⟨next, nextTables⟩, stepped, completed⟩ := Machine.run_cons_eq_some.mp completed
      rw [List.map_cons, Machine.run_cons_eq_some]
      refine ⟨_, ?_, ih completed⟩
      cases event with
      | restart =>
          cases stepped
          simp only [RecoveryEvent.event, machine, SagaCoordinator.step, Option.some.injEq, State.mk.injEq,
            and_true]
          funext other
          by_cases same : other = sagaId <;> simp [Function.update, same]
      | saga event =>
          have taken : sagaStep defs sagaId saga tables event = some (next, nextTables) := stepped
          simp only [RecoveryEvent.event, machine, SagaCoordinator.step, Function.update_self, taken,
            Function.update_idem]

/-! ## A call is a run -/

theorem recovery_cons {event : SagaEvent Env} {rest : List (RecoveryEvent Env)} {final : Saga Payload × Tables}
    (stepped : sagaStep defs sagaId saga tables event = some (after, afterTables))
    (completed : (recovery defs sagaId).run (after, afterTables) rest = some final) :
    (recovery defs sagaId).run (saga, tables) (.saga event :: rest) = some final :=
  Machine.run_cons_eq_some.mpr ⟨_, stepped, completed⟩

/-- What the load of a row reads. -/
def Row.load (row : Row Payload) (sagaId : Int) : Context Payload :=
  { sagaId, sagaType := row.sagaType, payload := row.payload, currentStep := row.currentStep }

theorem loadContextAndDef_registered (registered : defs row.sagaType = some definition) :
    loadContextAndDef defs sagaId row = some (row.load sagaId, definition) := by
  simp only [loadContextAndDef, registered, Option.map_some, Row.load]

/-- After a load of the row. -/
def Saga.entered (saga : Saga Payload) (sagaId : Int) : Saga Payload :=
  { saga with call := .forward saga.row.currentStep (saga.row.load sagaId), abandoned := false }

theorem sagaStep_execute (sagaId : Int) (saga : Saga Payload) (tables : Tables)
    (registered : defs saga.row.sagaType = some definition)
    (call : saga.call = .idle) (incomplete : saga.row.state.Incomplete) :
    sagaStep defs sagaId saga tables (.execute true : SagaEvent Env) = some (saga.entered sagaId, tables) := by
  simp only [sagaStep, call, if_pos incomplete, if_true, loadContextAndDef_registered registered]
  rfl

theorem forward_sagaType (outcome : ForwardOutcome Env) :
    (forward step i context row tables outcome).row.sagaType = row.sagaType := by
  rcases forward_cases step i context row tables outcome with ⟨_, _, same, _⟩ | ⟨_, advanced, _⟩
  · rw [same]
  · rw [advanced]

/-- After the forward step of a call. -/
def Saga.forwarded (saga : Saga Payload) (i : Nat) (attempt : Attempt Tables Payload) : Saga Payload :=
  { saga with
    row := attempt.row
    call := if attempt.ok then .forward (i + 1) attempt.context else .forwardFailed attempt.context }

theorem sagaStep_forward (sagaId : Int) (tables : Tables) (registered : defs saga.row.sagaType = some definition)
    (call : saga.call = .forward i context) (found : definition.steps[i]? = some step)
    (outcome : ForwardOutcome Env) :
    sagaStep defs sagaId saga tables (.forward outcome) =
      some (saga.forwarded i (forward step i context saga.row tables outcome),
        (forward step i context saga.row tables outcome).tables) := by
  simp only [sagaStep, call, registered, found, Saga.forwarded]

theorem forwardLoop_ok {outcomes : Nat → ForwardOutcome Env} {rest : List (Step Env Tables Payload)}
    (ok : (forward step i context row tables (outcomes i)).ok = true) :
    forwardLoop outcomes (step :: rest) i context row tables =
      let attempt := forward step i context row tables (outcomes i)
      forwardLoop outcomes rest (i + 1) attempt.context attempt.row attempt.tables := if_pos ok

theorem forwardLoop_failed {outcomes : Nat → ForwardOutcome Env} {rest : List (Step Env Tables Payload)}
    (failed : (forward step i context row tables (outcomes i)).ok = false) :
    forwardLoop outcomes (step :: rest) i context row tables =
      forward step i context row tables (outcomes i) :=
  if_neg (by rw [failed]; exact Bool.false_ne_true)

theorem remaining_cons {steps rest : List (Step Env Tables Payload)} (remaining : steps.drop i = step :: rest) :
    steps[i]? = some step ∧ steps.drop (i + 1) = rest ∧ i < steps.length := by
  have found : steps[i]? = some step := by
    rw [← List.head?_drop, remaining]
    rfl
  refine ⟨found, ?_, (List.getElem?_eq_some_iff.mp found).1⟩
  rw [← List.tail_drop, remaining]
  rfl

/-- The forward loop ends behind its last step or at the one that failed. -/
theorem forwardLoop_run (sagaId : Int) (saga : Saga Payload) (tables : Tables)
    (registered : defs saga.row.sagaType = some definition)
    (outcomes : Nat → ForwardOutcome Env) (call : saga.call = .forward i context)
    {rest : List (Step Env Tables Payload)} (remaining : definition.steps.drop i = rest)
    (within : i ≤ definition.steps.length) :
    let attempt := forwardLoop outcomes rest i context saga.row tables
    ∃ events after, (recovery defs sagaId).run (saga, tables) events = some (after, attempt.tables) ∧
      after.row = attempt.row ∧ after.row.sagaType = saga.row.sagaType ∧
      after.call = if attempt.ok then .forward definition.steps.length attempt.context
        else .forwardFailed attempt.context := by
  induction rest generalizing saga tables i context with
  | nil =>
      have behind : i = definition.steps.length := Nat.le_antisymm within (List.drop_eq_nil_iff.mp remaining)
      exact ⟨[], saga, rfl, rfl, rfl, by rw [call, behind]; rfl⟩
  | cons step rest ih =>
      obtain ⟨found, remaining, below⟩ := remaining_cons remaining
      have stepped := sagaStep_forward sagaId tables registered call found (outcomes i)
      cases ok : (forward step i context saga.row tables (outcomes i)).ok with
      | false =>
          rw [forwardLoop_failed ok]
          refine ⟨[.saga (.forward (outcomes i))], _, recovery_cons stepped rfl, rfl,
            forward_sagaType _, ?_⟩
          simp [Saga.forwarded, ok]
      | true =>
          rw [forwardLoop_ok ok]
          let attempt := forward step i context saga.row tables (outcomes i)
          have sameType : attempt.row.sagaType = saga.row.sagaType := forward_sagaType _
          have advanced : (saga.forwarded i attempt).call = .forward (i + 1) attempt.context := by
            simp [Saga.forwarded, attempt, ok]
          obtain ⟨events, after, completed, sameRow, keptType, reached⟩ := ih (saga.forwarded i attempt)
            attempt.tables ((congrArg defs sameType).trans registered) advanced remaining below
          exact ⟨.saga (.forward (outcomes i)) :: events, after,
            recovery_cons stepped completed, sameRow, keptType.trans sameType, reached⟩

/-- After the compensation of step `i` in a call. -/
def Saga.undone (saga : Saga Payload) (i : Nat) (compensation : Compensation Tables Payload) : Saga Payload :=
  { saga with
    call := .compensating i compensation.context
    compensated := saga.compensated || compensation.wrote
    abandoned := saga.abandoned || !compensation.complete }

theorem sagaStep_compensate (sagaId : Int) (tables : Tables) (registered : defs saga.row.sagaType = some definition)
    (call : saga.call = .compensating (i + 1) context) (found : definition.steps[i]? = some step)
    (outcome : CompensateOutcome Env) :
    sagaStep defs sagaId saga tables (.compensate outcome) =
      some (saga.undone i (compensate step context tables outcome),
        (compensate step context tables outcome).tables) := by
  simp only [sagaStep, call, registered, found, Saga.undone]

theorem compensateLoop_run (sagaId : Int) (saga : Saga Payload) (tables : Tables)
    (registered : defs saga.row.sagaType = some definition)
    (outcomes : Nat → CompensateOutcome Env) (call : saga.call = .compensating count context)
    (within : count ≤ definition.steps.length) :
    let left := compensateLoop outcomes definition.steps count context tables
    ∃ events after, (recovery defs sagaId).run (saga, tables) events = some (after, left.2) ∧
      after.row = saga.row ∧ after.call = .compensating 0 left.1 := by
  induction count generalizing saga tables context with
  | zero => exact ⟨[], saga, rfl, rfl, call⟩
  | succ i ih =>
      have found := List.getElem?_eq_getElem within
      have stepped := sagaStep_compensate sagaId tables registered call found (outcomes i)
      simp only [compensateLoop, found]
      obtain ⟨events, after, completed, sameRow, reached⟩ := ih
        (saga.undone i (compensate definition.steps[i] context tables (outcomes i))) _
        registered rfl (Nat.le_of_lt within)
      exact ⟨.saga (.compensate (outcomes i)) :: events, after,
        recovery_cons stepped completed, sameRow, reached⟩

/-- The step functions do not change at which step the loop stands. -/
def KeepsStep (definition : Definition Env Tables Payload) : Prop :=
  ∀ step ∈ definition.steps, ∀ env context tables,
    (step.forward env context tables).context.currentStep = context.currentStep

theorem forwardLoop_currentStep (keepsStep : KeepsStep definition) (outcomes : Nat → ForwardOutcome Env)
    {rest : List (Step Env Tables Payload)} (remaining : definition.steps.drop i = rest)
    (failed : (forwardLoop outcomes rest i context row tables).ok = false) :
    (forwardLoop outcomes rest i context row tables).context.currentStep < definition.steps.length := by
  induction rest generalizing i context row tables with
  | nil => cases failed
  | cons step rest ih =>
      obtain ⟨found, remaining, below⟩ := remaining_cons remaining
      cases ok : (forward step i context row tables (outcomes i)).ok with
      | true =>
          rw [forwardLoop_ok ok] at failed ⊢
          exact ih remaining failed
      | false =>
          rw [forwardLoop_failed ok]
          have stays (env : Env) : (step.forward env { context with currentStep := i } tables).context.currentStep <
              definition.steps.length :=
            Nat.lt_of_le_of_lt (Nat.le_of_eq (keepsStep step (List.mem_of_getElem? found) env _ _)) below
          rcases forward_cases step i context row tables (outcomes i) with
            ⟨_, _, _, _, entered, lastError, left, rfl | ⟨env, rfl⟩⟩ |
              ⟨_, _, env, _, _, ⟨succeeded, _⟩ | ⟨_, _, lastError, left⟩⟩
          · rw [left]
            exact below
          · rw [left]
            exact stays env
          · rw [ok] at succeeded
            cases succeeded
          · rw [left]
            exact stays env

theorem markCompensating_sagaType {error : String} {executed : Bool} :
    (markCompensating row error executed).sagaType = row.sagaType := by
  cases executed <;> rfl

theorem sagaStep_markFailed {executed : Bool} (call : saga.call = .compensating 0 context) :
    sagaStep defs sagaId saga tables (.markFailed executed : SagaEvent Env) =
      some ({ saga with row := markFailed saga.row context.lastError executed, call := .returned }, tables) := by
  simp only [sagaStep, call]

theorem conclude_run (sagaId : Int) {attempt : Attempt Tables Payload} (registered : defs saga.row.sagaType = some definition)
    (answers : ExecuteAnswers Env) (sameRow : saga.row = attempt.row)
    (reached : saga.call = if attempt.ok then .forward definition.steps.length attempt.context
      else .forwardFailed attempt.context)
    (within : attempt.ok = false → attempt.context.currentStep ≤ definition.steps.length) :
    let executed := conclude definition answers attempt
    ∃ events after, (recovery defs sagaId).run (saga, attempt.tables) events = some (after, executed.tables) ∧
      after.row = executed.row ∧ after.call = .returned := by
  cases ok : attempt.ok with
  | true =>
      have marked : sagaStep defs sagaId saga attempt.tables (.markDone answers.done) =
          some ({ saga with row := markDone saga.row answers.done, call := .returned }, attempt.tables) := by
        simp only [sagaStep, reached, ok, if_true, registered, Nat.lt_irrefl, if_false]
      simp only [conclude, ok, if_true]
      refine ⟨[.saga (.markDone answers.done)], _, recovery_cons marked rfl, ?_, rfl⟩
      rw [← sameRow]
  | false =>
      let compensating : Saga Payload := { saga with
        row := markCompensating saga.row attempt.context.lastError answers.compensating
        call := .compensating attempt.context.currentStep attempt.context }
      have marked : sagaStep defs sagaId saga attempt.tables (.markCompensating answers.compensating) =
          some (compensating, attempt.tables) := by
        simp only [sagaStep, reached, ok, Bool.false_eq_true, if_false, compensating]
      have stillRegistered : defs compensating.row.sagaType = some definition :=
        (congrArg defs markCompensating_sagaType).trans registered
      obtain ⟨events, after, completed, keptRow, ended⟩ := compensateLoop_run sagaId _ attempt.tables
        stillRegistered answers.compensations rfl (within ok)
      simp only [conclude, ok, Bool.false_eq_true, if_false]
      refine ⟨.saga (.markCompensating answers.compensating) :: (events ++ [.saga (.markFailed answers.failed)]), _,
        recovery_cons marked (Machine.run_trans completed (recovery_cons (sagaStep_markFailed ended) rfl)), ?_, rfl⟩
      simp only [keptRow, compensating, sameRow]

theorem execute_loaded (registered : defs row.sagaType = some definition) {answers : ExecuteAnswers Env}
    (loaded : answers.loaded = true) :
    execute defs sagaId answers row tables = conclude definition answers
      (forwardLoop answers.forwards (definition.steps.drop row.currentStep) row.currentStep (row.load sagaId)
        row tables) := by
  simp only [execute, loaded, if_true, loadContextAndDef_registered registered]
  rfl

theorem conclude_ok {attempt : Attempt Tables Payload} {answers : ExecuteAnswers Env} (ok : attempt.ok = true) :
    conclude definition answers attempt =
      { ok := true, row := markDone attempt.row answers.done, tables := attempt.tables } := if_pos ok

theorem conclude_failed {attempt : Attempt Tables Payload} {answers : ExecuteAnswers Env}
    (failed : attempt.ok = false) :
    let left := compensateLoop answers.compensations definition.steps attempt.context.currentStep
      attempt.context attempt.tables
    conclude definition answers attempt =
      { ok := false, tables := left.2
        row := markFailed (markCompensating attempt.row attempt.context.lastError answers.compensating)
          left.1.lastError answers.failed } :=
  if_neg (by rw [failed]; exact Bool.false_ne_true)

/-- The row that a call leaves when a forward step has failed. -/
theorem marks_row (row : Row Payload) (error lastError : String) (compensating failed : Bool) :
    let marked := markFailed (markCompensating row error compensating) lastError failed
    marked.sagaType = row.sagaType ∧ marked.currentStep = row.currentStep ∧ marked.payload = row.payload ∧
      (failed = true → marked.state = .failed) ∧
      (failed = false → row.state = .running → marked.state.Incomplete) := by
  cases failed with
  | true => cases compensating <;> exact ⟨rfl, rfl, rfl, fun _ => rfl, nofun⟩
  | false =>
      cases compensating with
      | true => exact ⟨rfl, rfl, rfl, nofun, fun _ _ => .inr rfl⟩
      | false => exact ⟨rfl, rfl, rfl, nofun, fun _ running => .inl running⟩

/-- A forward step that does not commit leaves the row, the tables and the number
of the step; the payload too, when the step function does not touch it. -/
theorem forward_failed_row {outcome : ForwardOutcome Env}
    (keepsStep : ∀ env context tables, (step.forward env context tables).context.currentStep = context.currentStep)
    (failed : (forward step i context row tables outcome).committed = false) :
    let attempt := forward step i context row tables outcome
    attempt.row = row ∧ attempt.tables = tables ∧ attempt.context.currentStep = i ∧
      ((∀ env context tables, (step.forward env context tables).context.payload = context.payload) →
        attempt.context.payload = context.payload) := by
  rcases forward_cases step i context row tables outcome with
    ⟨_, _, sameRow, sameTables, entered, lastError, left, rfl | ⟨env, rfl⟩⟩ | ⟨committed, _⟩
  · exact ⟨sameRow, sameTables, by rw [left], fun _ => by rw [left]⟩
  · exact ⟨sameRow, sameTables, by rw [left]; exact keepsStep _ _ _, fun keeps => by rw [left]; exact keeps _ _ _⟩
  · rw [failed] at committed
    cases committed

/-- A call that enters with an incomplete row is a run of the steps of its saga. -/
theorem execute_run (registered : defs saga.row.sagaType = some definition) (keepsStep : KeepsStep definition)
    (answers : ExecuteAnswers Env) (call : saga.call = .idle) (incomplete : saga.row.state.Incomplete)
    (within : saga.row.currentStep ≤ definition.steps.length) :
    let executed := execute defs sagaId answers saga.row tables
    ∃ events after, (recovery defs sagaId).run (saga, tables) events = some (after, executed.tables) ∧
      after.row = executed.row ∧ after.call = .returned := by
  cases loaded : answers.loaded with
  | false =>
      simp only [execute, loaded, Bool.false_eq_true, if_false]
      refine ⟨[.saga (.execute false)], { saga with call := .returned }, ?_, rfl, rfl⟩
      refine Machine.run_cons_eq_some.mpr ⟨({ saga with call := .returned }, tables), ?_, rfl⟩
      simp [recovery, recoveryStep, sagaStep, call, incomplete]
  | true =>
      simp only [execute, loaded, if_true, loadContextAndDef_registered registered]
      obtain ⟨events, left, completed, sameRow, sameType, reached⟩ := forwardLoop_run sagaId
        (saga.entered sagaId) tables registered answers.forwards rfl rfl within
      obtain ⟨later, after, ended, lastRow, returned⟩ := conclude_run sagaId (sameType ▸ registered)
        answers sameRow reached (fun failed => Nat.le_of_lt (forwardLoop_currentStep keepsStep _ rfl failed))
      exact ⟨.saga (.execute true) :: (events ++ later), after,
        recovery_cons (sagaStep_execute _ _ _ registered call incomplete) (Machine.run_trans completed ended),
        lastRow, returned⟩

/-! ## Sagas that recovery leaves alone -/

/-- The tables are as before, and so they stay. -/
def Unchanged (tables : Tables) (state : Saga Payload × Tables) : Prop := state.2 = tables

/-- Nothing selects a row that is not incomplete. -/
theorem sagaStep_of_complete {event : SagaEvent Env} (complete : ¬saga.row.state.Incomplete)
    (call : saga.call = .idle ∨ saga.call = .returned) : sagaStep defs sagaId saga tables event = none := by
  cases event <;> rcases call with call | call <;> simp [sagaStep, call, complete]

theorem recovery_unchanged_of_complete {events : List (RecoveryEvent Env)}
    (complete : ¬saga.row.state.Incomplete) (call : saga.call = .returned) :
    (recovery defs sagaId).Always (Unchanged tables) (saga, tables) events := by
  have kept : (recovery defs sagaId).Always (fun state => state.2 = tables ∧ ¬state.1.row.state.Incomplete ∧
      (state.1.call = .idle ∨ state.1.call = .returned)) (saga, tables) events := by
    refine Machine.always_of_step _ ⟨rfl, complete, .inr call⟩ ?_
    rintro state event next ⟨same, complete, call⟩ stepped
    cases event with
    | restart =>
        cases stepped
        exact ⟨same, complete, .inl rfl⟩
    | saga event =>
        have taken : sagaStep defs sagaId state.1 state.2 event = some next := stepped
        rw [sagaStep_of_complete complete call] at taken
        cases taken
  exact kept.mono fun _ held => held.1

/-- Step `i`, if there is one, cannot succeed any more, and the compensations
below it find nothing to undo. -/
structure Stuck (definition : Definition Env Tables Payload) (i : Nat) (payload : Payload) (tables : Tables) :
    Prop where
  fails : ∀ step, definition.steps[i]? = some step → ∀ env context, context.payload = payload →
    let result := step.forward env context tables
    result.ok = false ∧ result.context.payload = payload ∧ result.context.currentStep = context.currentStep
  undoes : ∀ j step undo, j < i → definition.steps[j]? = some step → step.compensate = some undo →
    ∀ env context, context.payload = payload →
      (undo env context tables).tables = tables ∧ (undo env context tables).context.payload = payload

/-- Where a stuck saga can stand. -/
structure StuckAt (sagaType : String) (i : Nat) (payload : Payload)
    (tables : Tables) (state : Saga Payload × Tables) : Prop where
  tables : state.2 = tables
  sagaType : state.1.row.sagaType = sagaType
  currentStep : state.1.row.currentStep = i
  stored : state.1.row.payload = payload
  call : match state.1.call with
    | .forward j context => j = i ∧ context.payload = payload
    | .forwardFailed context => context.currentStep = i ∧ context.payload = payload
    | .compensating remaining context => remaining ≤ i ∧ context.payload = payload
    | _ => True

variable {sagaType : String} {payload : Payload} {state next : Saga Payload × Tables}

theorem StuckAt.forward {outcome : ForwardOutcome Env} (stuck : Stuck definition i payload tables)
    (registered : defs sagaType = some definition) (at_i : StuckAt sagaType i payload tables state)
    (stepped : sagaStep defs sagaId state.1 state.2 (.forward outcome) = some next) :
    StuckAt sagaType i payload tables next := by
  obtain ⟨saga, current⟩ := state
  obtain ⟨after, afterTables⟩ := next
  obtain ⟨rfl, rfl, currentStep, samePayload, standing⟩ := at_i
  obtain ⟨j, context, other, step, call, same, found, rfl, rfl⟩ := forwards_of_sagaStep stepped
  rw [registered] at same
  cases same
  dsimp only at call
  simp only [call] at standing
  obtain ⟨rfl, rfl⟩ := standing
  have fails := stuck.fails step found
  rcases forward_cases step j context saga.row current outcome with
    ⟨failed, _, sameRow, sameTables, entered, lastError, left, origin⟩ | ⟨_, _, env, ok, _⟩
  · refine ⟨sameTables, congrArg Row.sagaType sameRow, (congrArg Row.currentStep sameRow).trans currentStep,
      (congrArg Row.payload sameRow).trans samePayload, ?_⟩
    simp only [failed, Bool.false_eq_true, if_false, left]
    rcases origin with rfl | ⟨env, rfl⟩
    · exact ⟨rfl, rfl⟩
    · obtain ⟨_, keptPayload, keptStep⟩ := fails env { context with currentStep := j } rfl
      exact ⟨keptStep, keptPayload⟩
  · rw [(fails env { context with currentStep := j } rfl).1] at ok
    cases ok

theorem StuckAt.compensate {outcome : CompensateOutcome Env} (stuck : Stuck definition i payload tables)
    (registered : defs sagaType = some definition) (at_i : StuckAt sagaType i payload tables state)
    (stepped : sagaStep defs sagaId state.1 state.2 (.compensate outcome) = some next) :
    StuckAt sagaType i payload tables next := by
  obtain ⟨saga, current⟩ := state
  obtain ⟨after, afterTables⟩ := next
  obtain ⟨rfl, rfl, currentStep, samePayload, standing⟩ := at_i
  obtain ⟨remaining, context, other, step, call, same, found, rfl, rfl⟩ := compensates_of_sagaStep stepped
  rw [registered] at same
  cases same
  dsimp only at call
  simp only [call] at standing
  obtain ⟨within, rfl⟩ := standing
  have kept : (SagaCoordinator.compensate step context current outcome).tables = current ∧
      (SagaCoordinator.compensate step context current outcome).context.payload = context.payload := by
    rcases compensate_cases step context current outcome with
      ⟨sameContext, sameTables, _⟩ | ⟨undo, given, env, left, written⟩
    · exact ⟨sameTables, congrArg Context.payload sameContext⟩
    · obtain ⟨undone, keptPayload⟩ := stuck.undoes remaining step undo within found given env context rfl
      refine ⟨?_, (congrArg Context.payload left).trans keptPayload⟩
      rcases written with ⟨sameTables, _⟩ | ⟨sameTables, _⟩
      · exact sameTables
      · exact sameTables.trans undone
  exact ⟨kept.1, rfl, currentStep, samePayload, Nat.le_of_lt within, kept.2⟩

theorem StuckAt.execute {loaded : Bool} (registered : defs sagaType = some definition)
    (at_i : StuckAt sagaType i payload tables state)
    (stepped : sagaStep defs sagaId state.1 state.2 (.execute loaded : SagaEvent Env) = some next) :
    StuckAt sagaType i payload tables next := by
  obtain ⟨saga, current⟩ := state
  obtain ⟨after, afterTables⟩ := next
  obtain ⟨rfl, rfl, rfl, rfl, standing⟩ := at_i
  obtain ⟨_, _, rfl, ⟨_, rfl⟩ | rfl⟩ := executes_of_sagaStep stepped
  · exact ⟨rfl, rfl, rfl, rfl, trivial⟩
  · exact ⟨rfl, rfl, rfl, rfl, rfl, rfl⟩

/-- The marks change neither the progress nor the payload. -/
theorem StuckAt.marked {row : Row Payload} {call : Phase Payload} (at_i : StuckAt sagaType i payload tables state)
    (marked : ∃ mark errorMsg, row = { state.1.row with state := mark, errorMsg })
    (standing : match call with
      | .forward j context => j = i ∧ context.payload = payload
      | .forwardFailed context => context.currentStep = i ∧ context.payload = payload
      | .compensating remaining context => remaining ≤ i ∧ context.payload = payload
      | _ => True) :
    StuckAt sagaType i payload tables ({ state.1 with row, call }, state.2) := by
  obtain ⟨mark, errorMsg, rfl⟩ := marked
  exact ⟨at_i.tables, at_i.sagaType, at_i.currentStep, at_i.stored, standing⟩

theorem StuckAt.sagaStep {event : SagaEvent Env} (stuck : Stuck definition i payload tables)
    (registered : defs sagaType = some definition) (at_i : StuckAt sagaType i payload tables state)
    (stepped : sagaStep defs sagaId state.1 state.2 event = some next) :
    StuckAt sagaType i payload tables next := by
  obtain ⟨after, afterTables⟩ := next
  cases event with
  | forward outcome => exact at_i.forward stuck registered stepped
  | compensate outcome => exact at_i.compensate stuck registered stepped
  | execute loaded => exact at_i.execute registered stepped
  | markDone executed =>
      obtain ⟨_, _, _, _, _, _, rfl, rfl⟩ := marksDone_of_sagaStep stepped
      exact at_i.marked (by cases executed <;> exact ⟨_, _, rfl⟩) trivial
  | markCompensating executed =>
      obtain ⟨context, call, rfl, rfl⟩ := marksCompensating_of_sagaStep stepped
      have standing := at_i.call
      simp only [call] at standing
      exact at_i.marked (by cases executed <;> exact ⟨_, _, rfl⟩) ⟨Nat.le_of_eq standing.1, standing.2⟩
  | markFailed executed =>
      obtain ⟨_, _, rfl, rfl⟩ := marksFailed_of_sagaStep stepped
      exact at_i.marked (by cases executed <;> exact ⟨_, _, rfl⟩) trivial

/-- However often it is entered, a stuck saga leaves the tables as they are. -/
theorem recovery_unchanged_of_stuck {events : List (RecoveryEvent Env)} (stuck : Stuck definition i payload tables)
    (registered : defs saga.row.sagaType = some definition) (currentStep : saga.row.currentStep = i)
    (stored : saga.row.payload = payload) (call : saga.call = .returned) :
    (recovery defs sagaId).Always (Unchanged tables) (saga, tables) events := by
  have start : StuckAt saga.row.sagaType i payload tables (saga, tables) :=
    ⟨rfl, rfl, currentStep, stored, by rw [call]; trivial⟩
  have kept : (recovery defs sagaId).Always (StuckAt saga.row.sagaType i payload tables) (saga, tables) events := by
    refine Machine.always_of_step _ start fun state event next at_i stepped => ?_
    cases event with
    | restart =>
        cases stepped
        exact ⟨at_i.tables, at_i.sagaType, at_i.currentStep, at_i.stored, trivial⟩
    | saga event => exact at_i.sagaStep stuck registered stepped
  exact kept.mono fun _ at_i => at_i.tables

/-! ## What all steps keep -/

/-- No step function takes the property from the tables, whether it runs forward
or undoes a step. -/
structure KeepsTables (property : Tables → Prop) (definition : Definition Env Tables Payload) : Prop where
  forward : ∀ step ∈ definition.steps, ∀ env context tables, property tables →
    property (step.forward env context tables).tables
  compensate : ∀ step ∈ definition.steps, ∀ undo, step.compensate = some undo → ∀ env context tables,
    property tables → property (undo env context tables).tables

theorem KeepsTables.sagaStep {property : Tables → Prop} {event : SagaEvent Env}
    (keeps : ∀ sagaType definition, defs sagaType = some definition → KeepsTables property definition)
    (holds : property tables)
    (stepped : sagaStep defs sagaId saga tables event = some (after, afterTables)) : property afterTables := by
  cases event with
  | forward outcome =>
      obtain ⟨i, context, definition, step, _, registered, found, rfl, _⟩ := forwards_of_sagaStep stepped
      rcases forward_cases step i context saga.row tables outcome with ⟨_, _, _, same, _⟩ | ⟨_, _, env, _, taken, _⟩
      · rw [same]
        exact holds
      · rw [taken]
        exact (keeps _ _ registered).forward step (List.mem_of_getElem? found) env _ _ holds
  | compensate outcome =>
      obtain ⟨_, context, definition, step, _, registered, found, rfl, _⟩ := compensates_of_sagaStep stepped
      rcases compensate_cases step context tables outcome with
        ⟨_, same, _⟩ | ⟨undo, given, env, _, ⟨same, _⟩ | ⟨written, _⟩⟩
      · rw [same]
        exact holds
      · rw [same]
        exact holds
      · rw [written]
        exact (keeps _ _ registered).compensate step (List.mem_of_getElem? found) undo given env _ _ holds
  | execute loaded =>
      obtain ⟨_, _, rfl, _⟩ := executes_of_sagaStep stepped
      exact holds
  | markDone executed =>
      obtain ⟨_, _, _, _, _, _, rfl, _⟩ := marksDone_of_sagaStep stepped
      exact holds
  | markCompensating executed =>
      obtain ⟨_, _, rfl, _⟩ := marksCompensating_of_sagaStep stepped
      exact holds
  | markFailed executed =>
      obtain ⟨_, _, rfl, _⟩ := marksFailed_of_sagaStep stepped
      exact holds

/-- Any number of sagas, crashes and recoveries keep what every step keeps. -/
theorem always_keepsTables {property : Tables → Prop} {state : State Tables Payload}
    {events : List (Event Env Payload)}
    (keeps : ∀ sagaType definition, defs sagaType = some definition → KeepsTables property definition)
    (holds : property state.tables) :
    (machine defs).Always (fun state => property state.tables) state events := by
  refine Machine.always_of_step _ holds fun state event next holds stepped => ?_
  cases event with
  | start sagaId sagaType payload =>
      simp only [machine, SagaCoordinator.step] at stepped
      split at stepped <;> cases stepped
      exact holds
  | saga sagaId event =>
      simp only [machine, SagaCoordinator.step] at stepped
      split at stepped
      · cases stepped
      · split at stepped
        · cases stepped
        · rename_i taken
          cases stepped
          exact KeepsTables.sagaStep keeps holds taken
  | crash =>
      cases stepped
      exact holds

end MuduoIm.Server.SagaCoordinator
