import MuduoIm.Server.SagaCoordinator.ExactlyOnce
import MuduoIm.Server.SagaCoordinator.InsertSaga

namespace MuduoIm.Server.SagaCoordinator

open MuduoIm.Transition

/-! # Two processes on one saga

One server starts a saga and executes it; another starts up meanwhile and calls
`recoverIncomplete`, which selects every saga that is not finished and later
loads each of them without another look at its state.
-/

inductive Executor where
  | creator
  | recovering
deriving DecidableEq, Repr

/-- `committed` and `compensated` are history: the forward steps whose
transactions have committed, and whether a compensation has written. -/
structure Contended (Tables Payload : Type) where
  row : Option (Row Payload) := none
  tables : Tables
  selected : Bool := false
  call : Executor → Phase Payload := fun _ => .idle
  committed : List Nat := []
  compensated : Bool := false

inductive Action (Env Payload : Type) where
  | start (sagaType : String) (payload : Payload)
  | select
  | load (executor : Executor) (loaded : Bool)
  | act (executor : Executor) (event : SagaEvent Env)

variable {Env Tables Payload : Type}

/-- The beginning of `execute`. -/
def loadedCall (defs : Definitions Env Tables Payload) (sagaId : Int) (row : Row Payload) (loaded : Bool) :
    Phase Payload :=
  match if loaded then loadContextAndDef defs sagaId row else none with
  | none => .returned
  | some (context, _) => .forward context.currentStep context

def contend (defs : Definitions Env Tables Payload) (sagaId : Int) (state : Contended Tables Payload) :
    Action Env Payload → Option (Contended Tables Payload)
  | .start sagaType payload =>
      if state.row.isNone ∧ (defs sagaType).isSome then
        some { state with row := some { sagaType, payload } }
      else none
  | .select =>
      match state.row with
      | none => some state
      | some row => some { state with selected := state.selected || decide row.state.Incomplete }
  | .load executor loaded =>
      match state.row, state.call executor with
      | some row, .idle =>
          if executor = .creator ∨ state.selected = true then
            some { state with call := Function.update state.call executor (loadedCall defs sagaId row loaded) }
          else none
      | _, _ => none
  | .act _ (.execute _) => none
  -- the other events of a call, each on the row as it is by then
  | .act executor event =>
      match state.row with
      | none => none
      | some row =>
          (sagaStep defs sagaId { row, call := state.call executor } state.tables event).map fun (after, tables) =>
            { state with
              row := some after.row, tables
              call := Function.update state.call executor after.call
              committed := state.committed ++
                newlyCommitted defs { row, call := state.call executor } state.tables event
              compensated := state.compensated || after.compensated }

def contention (defs : Definitions Env Tables Payload) (sagaId : Int) :
    Machine (Contended Tables Payload) (Action Env Payload) := ⟨contend defs sagaId⟩

/-- No forward step commits twice, and a saga whose steps have all committed
has not been compensated. -/
structure RunsOnce (defs : Definitions Env Tables Payload) (state : Contended Tables Payload) : Prop where
  atMostOnce : state.committed.Nodup
  uncompensated : ∀ row definition, state.row = some row → defs row.sagaType = some definition →
    (∀ i < definition.steps.length, i ∈ state.committed) → state.compensated = false

/-- A forward transaction that commits finds the progress of the row where its
executor believes it to be, and completes no saga that has been compensated; a
compensation writes only for a saga that is not complete. -/
def Undisturbed (defs : Definitions Env Tables Payload) (state : Contended Tables Payload) :
    Action Env Payload → Prop
  | .act executor (.forward outcome) => ∀ row definition i context step, state.row = some row →
      defs row.sagaType = some definition → state.call executor = .forward i context →
      definition.steps[i]? = some step → (forward step i context row state.tables outcome).committed = true →
        i = row.currentStep ∧ (i + 1 = definition.steps.length → state.compensated = false)
  | .act executor (.compensate outcome) => ∀ row definition remaining context step, state.row = some row →
      defs row.sagaType = some definition → state.call executor = .compensating (remaining + 1) context →
      definition.steps[remaining]? = some step → (compensate step context state.tables outcome).wrote = true →
        row.currentStep < definition.steps.length
  | _ => True

structure Tracked (defs : Definitions Env Tables Payload) (state : Contended Tables Payload) : Prop where
  unstarted : state.row = none → state.committed = [] ∧ state.compensated = false ∧
    ∀ executor, state.call executor = .idle
  started : ∀ row, state.row = some row → ∃ definition, defs row.sagaType = some definition ∧
    row.currentStep ≤ definition.steps.length ∧ state.committed = List.range row.currentStep ∧
    ∀ executor i context, state.call executor = .forward i context → i ≤ row.currentStep

variable {defs : Definitions Env Tables Payload} {definition : Definition Env Tables Payload} {sagaId : Int}
variable {state later : Contended Tables Payload} {row : Row Payload} {saga after : Saga Payload}
variable {tables afterTables : Tables} {executor : Executor} {action : Action Env Payload}

/-! ## What an event of a call does to the row -/

theorem newlyCommitted_forward {outcome : ForwardOutcome Env} {i : Nat} {context : Context Payload}
    {step : Step Env Tables Payload} (registered : defs saga.row.sagaType = some definition)
    (call : saga.call = .forward i context) (found : definition.steps[i]? = some step) :
    newlyCommitted defs saga tables (.forward outcome) =
      if (forward step i context saga.row tables outcome).committed then [i] else [] := by
  simp only [newlyCommitted, call, registered, found]

/-- A forward transaction commits, or leaves the row as it is. -/
theorem forward_event {outcome : ForwardOutcome Env} (registered : defs saga.row.sagaType = some definition)
    (stepped : sagaStep defs sagaId saga tables (.forward outcome) = some (after, afterTables)) :
    ∃ i context step, saga.call = .forward i context ∧ definition.steps[i]? = some step ∧
      after.compensated = saga.compensated ∧
      (((forward step i context saga.row tables outcome).committed = false ∧ after.row = saga.row ∧
          ∃ left, after.call = .forwardFailed left) ∨
        ((forward step i context saga.row tables outcome).committed = true ∧
          after.row.sagaType = saga.row.sagaType ∧ after.row.currentStep = i + 1 ∧
          ∀ j left, after.call = .forward j left → j = i + 1)) := by
  obtain ⟨i, context, other, step, call, same, found, _, rfl⟩ := forwards_of_sagaStep stepped
  rw [registered] at same
  cases same
  refine ⟨i, context, step, call, found, rfl, ?_⟩
  rcases forward_cases step i context saga.row tables outcome with
    ⟨refused, failed, same, _⟩ | ⟨committed, advanced, _⟩
  · exact .inl ⟨failed, same, by simp [refused]⟩
  · refine .inr ⟨committed, by rw [advanced], by rw [advanced], fun j left onward => ?_⟩
    dsimp only at onward
    split at onward <;> cases onward
    rfl

/-- The other events leave the progress alone and do not begin a forward step. -/
structure Beside (saga after : Saga Payload) : Prop where
  sagaType : after.row.sagaType = saga.row.sagaType
  currentStep : after.row.currentStep = saga.row.currentStep
  call : ∀ i context, after.call ≠ .forward i context

theorem markDone_event {executed : Bool}
    (stepped : sagaStep defs sagaId saga tables (.markDone executed : SagaEvent Env) = some (after, afterTables)) :
    Beside saga after ∧ after.compensated = saga.compensated := by
  obtain ⟨_, _, _, _, _, _, _, rfl⟩ := marksDone_of_sagaStep stepped
  cases executed <;> exact ⟨⟨rfl, rfl, nofun⟩, rfl⟩

theorem markCompensating_event {executed : Bool}
    (stepped : sagaStep defs sagaId saga tables (.markCompensating executed : SagaEvent Env) =
      some (after, afterTables)) : Beside saga after ∧ after.compensated = saga.compensated := by
  obtain ⟨_, _, _, rfl⟩ := marksCompensating_of_sagaStep stepped
  cases executed <;> exact ⟨⟨rfl, rfl, nofun⟩, rfl⟩

theorem markFailed_event {executed : Bool}
    (stepped : sagaStep defs sagaId saga tables (.markFailed executed : SagaEvent Env) = some (after, afterTables)) :
    Beside saga after ∧ after.compensated = saga.compensated := by
  obtain ⟨_, _, _, rfl⟩ := marksFailed_of_sagaStep stepped
  cases executed <;> exact ⟨⟨rfl, rfl, nofun⟩, rfl⟩

theorem compensate_event {outcome : CompensateOutcome Env} (registered : defs saga.row.sagaType = some definition)
    (stepped : sagaStep defs sagaId saga tables (.compensate outcome) = some (after, afterTables)) :
    Beside saga after ∧ ∃ remaining context step, saga.call = .compensating (remaining + 1) context ∧
      definition.steps[remaining]? = some step ∧
      after.compensated = (saga.compensated || (compensate step context tables outcome).wrote) := by
  obtain ⟨remaining, context, other, step, call, same, found, _, rfl⟩ := compensates_of_sagaStep stepped
  rw [registered] at same
  cases same
  exact ⟨⟨rfl, rfl, nofun⟩, remaining, context, step, call, found, rfl⟩

/-! ## One step -/

/-- What an event of a call leaves behind, with the step that it commits. -/
def Contended.record (state : Contended Tables Payload) (executor : Executor) (commits : List Nat)
    (after : Saga Payload) (tables : Tables) : Contended Tables Payload :=
  { state with
    row := some after.row, tables
    call := Function.update state.call executor after.call
    committed := state.committed ++ commits
    compensated := state.compensated || after.compensated }

theorem act_cases {event : SagaEvent Env} (stepped : contend defs sagaId state (.act executor event) = some later) :
    (∀ loaded, event ≠ .execute loaded) ∧ ∃ row after tables, state.row = some row ∧
      sagaStep defs sagaId { row, call := state.call executor } state.tables event = some (after, tables) ∧
      later = state.record executor
        (newlyCommitted defs { row, call := state.call executor } state.tables event) after tables := by
  cases event with
  | execute loaded => cases stepped
  | _ =>
      refine ⟨nofun, ?_⟩
      cases found : state.row with
      | none => simp [contend, found] at stepped
      | some row =>
          simp only [contend, found, Option.map_eq_some_iff] at stepped
          obtain ⟨⟨after, tables⟩, taken, rfl⟩ := stepped
          exact ⟨row, after, tables, rfl, taken, rfl⟩

theorem loadedCall_forward {loaded : Bool} {i : Nat} {context : Context Payload}
    (call : loadedCall defs sagaId row loaded = .forward i context) : i = row.currentStep := by
  simp only [loadedCall, loadContextAndDef] at call
  cases loaded with
  | false => cases call
  | true =>
      cases registered : defs row.sagaType with
      | none => simp [registered] at call
      | some definition =>
          simp only [registered, if_true, Option.map_some, Phase.forward.injEq] at call
          exact call.1.symm

theorem Tracked.ofRow (tracked : Tracked defs state) (found : state.row = some row)
    (registered : defs row.sagaType = some definition) :
    row.currentStep ≤ definition.steps.length ∧ state.committed = List.range row.currentStep ∧
      ∀ executor i context, state.call executor = .forward i context → i ≤ row.currentStep := by
  obtain ⟨known, same, rest⟩ := tracked.started row found
  rw [registered, Option.some.injEq] at same
  exact same ▸ rest

/-- An event that leaves the progress alone. -/
theorem Tracked.beside (tracked : Tracked defs state) (found : state.row = some row)
    (beside : Beside { row, call := state.call executor } after) :
    Tracked defs (state.record executor [] after tables) where
  unstarted := nofun
  started := by
    rintro _ ⟨⟩
    obtain ⟨definition, registered, within, committed, calls⟩ := tracked.started row found
    refine ⟨definition, by rw [beside.sagaType, registered], by rw [beside.currentStep]; exact within, ?_, ?_⟩
    · simp only [Contended.record, List.append_nil, beside.currentStep]
      exact committed
    · intro other i context call
      simp only [Contended.record] at call
      by_cases same : other = executor
      · rw [same, Function.update_self] at call
        exact absurd call (beside.call i context)
      · rw [Function.update_of_ne same] at call
        rw [beside.currentStep]
        exact calls other i context call

theorem runsOnce_beside_iff (tracked : Tracked defs state) (runsOnce : RunsOnce defs state)
    (found : state.row = some row) (registered : defs row.sagaType = some definition)
    (beside : Beside { row, call := state.call executor } after) :
    RunsOnce defs (state.record executor [] after tables) ↔
      (after.compensated = true → row.currentStep < definition.steps.length) := by
  obtain ⟨within, committed, _⟩ := tracked.ofRow found registered
  have kept : (state.record executor [] after tables).committed = List.range row.currentStep := by
    simp only [Contended.record, List.append_nil, committed]
  constructor
  · intro later compensated
    by_contra finished
    have none := later.uncompensated after.row definition rfl (by rw [beside.sagaType, registered]) (by
      intro i below
      rw [kept, List.mem_range]
      omega)
    simp only [Contended.record, compensated, Bool.or_true] at none
    cases none
  · intro unfinished
    refine ⟨by rw [kept]; exact List.nodup_range, ?_⟩
    rintro _ known ⟨⟩ same all
    rw [beside.sagaType, registered, Option.some.injEq] at same
    subst same
    rw [kept] at all
    have early := runsOnce.uncompensated row definition found registered (by rw [committed]; exact all)
    simp only [Contended.record, early, Bool.false_or]
    by_contra compensated
    have unfinished := unfinished (by simpa using compensated)
    have := List.mem_range.mp (all row.currentStep unfinished)
    omega

/-- A forward transaction that commits. -/
theorem runsOnce_forward_iff {i : Nat} {context : Context Payload} (tracked : Tracked defs state) (found : state.row = some row)
    (registered : defs row.sagaType = some definition) (call : state.call executor = .forward i context)
    (within : i < definition.steps.length) (sameType : after.row.sagaType = row.sagaType)
    (kept : after.compensated = false) :
    RunsOnce defs (state.record executor [i] after tables) ↔
      i = row.currentStep ∧ (i + 1 = definition.steps.length → state.compensated = false) := by
  obtain ⟨_, committed, calls⟩ := tracked.ofRow found registered
  have behind := calls executor i context call
  have recorded : (state.record executor [i] after tables).committed = List.range row.currentStep ++ [i] := by
    simp only [Contended.record, committed]
  have compensated : (state.record executor [i] after tables).compensated = state.compensated := by
    simp only [Contended.record, kept, Bool.or_false]
  constructor
  · intro later
    have once := later.atMostOnce
    rw [recorded, List.nodup_append] at once
    have fresh : i ∉ List.range row.currentStep := fun earlier => once.2.2 i earlier i List.mem_cons_self rfl
    rw [List.mem_range] at fresh
    have same : i = row.currentStep := by omega
    refine ⟨same, fun last => ?_⟩
    rw [← compensated]
    refine later.uncompensated after.row definition rfl (by rw [sameType, registered]) fun j below => ?_
    rw [recorded, same, ← List.range_succ, List.mem_range]
    omega
  · rintro ⟨rfl, last⟩
    rw [← List.range_succ] at recorded
    refine ⟨by rw [recorded]; exact List.nodup_range, ?_⟩
    rintro _ known ⟨⟩ same all
    rw [sameType, registered, Option.some.injEq] at same
    subst same
    rw [compensated]
    apply last
    have := List.mem_range.mp (recorded ▸ all (definition.steps.length - 1) (by omega))
    omega

theorem Tracked.forward (tracked : Tracked defs state) (found : state.row = some row)
    (registered : defs row.sagaType = some definition)
    (within : row.currentStep < definition.steps.length) (sameType : after.row.sagaType = row.sagaType)
    (currentStep : after.row.currentStep = row.currentStep + 1)
    (onward : ∀ i left, after.call = .forward i left → i = row.currentStep + 1) :
    Tracked defs (state.record executor [row.currentStep] after tables) where
  unstarted := nofun
  started := by
    rintro _ ⟨⟩
    obtain ⟨_, committed, calls⟩ := tracked.ofRow found registered
    refine ⟨definition, by rw [sameType, registered], by omega, ?_, ?_⟩
    · simp only [Contended.record, committed, currentStep, List.range_succ]
    · intro other i context call
      simp only [Contended.record] at call
      by_cases same : other = executor
      · rw [same, Function.update_self] at call
        exact Nat.le_of_eq ((onward i context call).trans currentStep.symm)
      · rw [Function.update_of_ne same] at call
        have := calls other i context call
        omega

theorem undisturbed_forward_iff {outcome : ForwardOutcome Env} {i : Nat} {context : Context Payload}
    {step : Step Env Tables Payload} (found : state.row = some row) (registered : defs row.sagaType = some definition)
    (call : state.call executor = .forward i context) (listed : definition.steps[i]? = some step) :
    Undisturbed defs state (.act executor (.forward outcome)) ↔
      ((forward step i context row state.tables outcome).committed = true →
        i = row.currentStep ∧ (i + 1 = definition.steps.length → state.compensated = false)) := by
  constructor
  · exact fun undisturbed => undisturbed row definition i context step found registered call listed
  · intro undisturbed otherRow other j otherContext otherStep sameRow same sameCall sameStep
    rw [found, Option.some.injEq] at sameRow
    subst sameRow
    rw [registered, Option.some.injEq] at same
    subst same
    rw [call] at sameCall
    cases sameCall
    rw [listed, Option.some.injEq] at sameStep
    exact sameStep ▸ undisturbed

theorem undisturbed_compensate_iff {outcome : CompensateOutcome Env} {remaining : Nat} {context : Context Payload}
    {step : Step Env Tables Payload} (found : state.row = some row) (registered : defs row.sagaType = some definition)
    (call : state.call executor = .compensating (remaining + 1) context)
    (listed : definition.steps[remaining]? = some step) :
    Undisturbed defs state (.act executor (.compensate outcome)) ↔
      ((compensate step context state.tables outcome).wrote = true → row.currentStep < definition.steps.length) := by
  constructor
  · exact fun undisturbed => undisturbed row definition remaining context step found registered call listed
  · intro undisturbed otherRow other count otherContext otherStep sameRow same sameCall sameStep
    rw [found, Option.some.injEq] at sameRow
    subst sameRow
    rw [registered, Option.some.injEq] at same
    subst same
    rw [call] at sameCall
    cases sameCall
    rw [listed, Option.some.injEq] at sameStep
    exact sameStep ▸ undisturbed

theorem runsOnce_act_iff {event : SagaEvent Env} (tracked : Tracked defs state) (runsOnce : RunsOnce defs state)
    (stepped : contend defs sagaId state (.act executor event) = some later) :
    (RunsOnce defs later ↔ Undisturbed defs state (.act executor event : Action Env Payload)) ∧
      (RunsOnce defs later → Tracked defs later) := by
  obtain ⟨notExecute, row, after, tables, found, taken, rfl⟩ := act_cases stepped
  obtain ⟨definition, registered, _⟩ := tracked.started row found
  have quiet (beside : Beside { row, call := state.call executor } after) (kept : after.compensated = false)
      (trivially : Undisturbed defs state (.act executor event : Action Env Payload)) :
      (RunsOnce defs (state.record executor [] after tables) ↔
          Undisturbed defs state (.act executor event : Action Env Payload)) ∧
        (RunsOnce defs (state.record executor [] after tables) → Tracked defs (state.record executor [] after tables)) := by
    refine ⟨iff_of_true ?_ trivially, fun _ => tracked.beside found beside⟩
    rw [runsOnce_beside_iff tracked runsOnce found registered beside, kept]
    exact nofun
  cases event with
  | execute loaded => exact absurd rfl (notExecute loaded)
  | markDone executed =>
      obtain ⟨beside, kept⟩ := markDone_event taken
      exact quiet beside kept trivial
  | markCompensating executed =>
      obtain ⟨beside, kept⟩ := markCompensating_event taken
      exact quiet beside kept trivial
  | markFailed executed =>
      obtain ⟨beside, kept⟩ := markFailed_event taken
      exact quiet beside kept trivial
  | compensate outcome =>
      obtain ⟨beside, remaining, context, step, call, listed, wrote⟩ := compensate_event registered taken
      have nothing : newlyCommitted defs { row, call := state.call executor } state.tables
          (.compensate outcome : SagaEvent Env) = [] := rfl
      rw [nothing]
      refine ⟨?_, fun _ => tracked.beside found beside⟩
      rw [runsOnce_beside_iff tracked runsOnce found registered beside, wrote, Bool.false_or,
        undisturbed_compensate_iff found registered call listed]
  | forward outcome =>
      obtain ⟨i, context, step, call, listed, kept, failed | committed⟩ := forward_event registered taken
      · obtain ⟨failed, same, left, onward⟩ := failed
        have nothing := @newlyCommitted_forward _ _ _ defs definition { row, call := state.call executor }
          state.tables outcome i context step registered call listed
        rw [failed, if_neg Bool.false_ne_true] at nothing
        rw [nothing]
        refine quiet ⟨by rw [same], by rw [same], by rw [onward]; exact nofun⟩ kept ?_
        rw [undisturbed_forward_iff found registered call listed, failed]
        exact nofun
      · obtain ⟨committed, sameType, currentStep, onward⟩ := committed
        have commits := @newlyCommitted_forward _ _ _ defs definition { row, call := state.call executor }
          state.tables outcome i context step registered call listed
        rw [committed, if_pos rfl] at commits
        rw [commits]
        have within := (List.getElem?_eq_some_iff.mp listed).1
        have exactly : RunsOnce defs (state.record executor [i] after tables) ↔ _ :=
          runsOnce_forward_iff tracked found registered call within sameType kept
        refine ⟨?_, fun later => ?_⟩
        · rw [exactly, undisturbed_forward_iff found registered call listed]
          exact ⟨fun undisturbed _ => undisturbed, fun undisturbed => undisturbed committed⟩
        · obtain ⟨rfl, _⟩ := exactly.mp later
          exact tracked.forward found registered within sameType currentStep onward

/-! ## All interleavings -/

theorem runsOnce_step_iff (tracked : Tracked defs state) (runsOnce : RunsOnce defs state)
    (stepped : (contention defs sagaId).step state action = some later) :
    (RunsOnce defs later ↔ Undisturbed defs state action) ∧ (RunsOnce defs later → Tracked defs later) := by
  cases action with
  | act executor event => exact runsOnce_act_iff tracked runsOnce stepped
  | start sagaType payload =>
      simp only [contention, contend] at stepped
      split at stepped <;> cases stepped
      rename_i admitted
      obtain ⟨committed, uncompensated, calls⟩ := tracked.unstarted (Option.isNone_iff_eq_none.mp admitted.1)
      obtain ⟨definition, registered⟩ := Option.isSome_iff_exists.mp admitted.2
      refine ⟨iff_of_true ⟨runsOnce.atMostOnce, fun _ _ _ _ _ => uncompensated⟩ trivial, fun _ => ⟨nofun, ?_⟩⟩
      rintro _ ⟨⟩
      refine ⟨definition, registered, Nat.zero_le _, committed, fun executor i context call => ?_⟩
      rw [calls executor] at call
      cases call
  | select =>
      simp only [contention, contend] at stepped
      split at stepped <;> cases stepped
      · exact ⟨iff_of_true runsOnce trivial, fun _ => tracked⟩
      · exact ⟨iff_of_true ⟨runsOnce.atMostOnce, runsOnce.uncompensated⟩ trivial,
          fun _ => ⟨tracked.unstarted, tracked.started⟩⟩
  | load executor loaded =>
      simp only [contention, contend] at stepped
      split at stepped
      · rename_i row found idle
        split at stepped <;> cases stepped
        refine ⟨iff_of_true ⟨runsOnce.atMostOnce, runsOnce.uncompensated⟩ trivial, fun _ => ⟨?_, ?_⟩⟩
        · exact fun absent => absurd (found.symm.trans absent) nofun
        · intro other same
          obtain ⟨definition, registered, within, committed, calls⟩ := tracked.started other same
          refine ⟨definition, registered, within, committed, fun another i context call => ?_⟩
          obtain rfl := Option.some.inj (found.symm.trans same)
          dsimp only at call
          by_cases self : another = executor
          · rw [self, Function.update_self] at call
            exact Nat.le_of_eq (loadedCall_forward call)
          · rw [Function.update_of_ne self] at call
            exact calls another i context call
      · cases stepped

theorem tracked_init (tables : Tables) : Tracked defs { tables } := ⟨fun _ => ⟨rfl, rfl, fun _ => rfl⟩, nofun⟩

/-- Two executors run every forward step at most once, and compensate no saga
that completes, if and only if they do not disturb each other. -/
theorem runs_once_iff (defs : Definitions Env Tables Payload) (sagaId : Int) (tables : Tables)
    (actions : List (Action Env Payload)) :
    (contention defs sagaId).Always (RunsOnce defs) { tables } actions ↔
      (contention defs sagaId).Meets (Undisturbed defs) { tables } actions :=
  Machine.always_iff_meets_of_kept (Tracked defs) ⟨List.nodup_nil, fun _ _ _ _ _ => rfl⟩ (tracked_init tables)
    (fun _ _ _ tracked runsOnce later stepped => (runsOnce_step_iff tracked runsOnce stepped).2 later)
    fun _ _ _ tracked runsOnce stepped => (runsOnce_step_iff tracked runsOnce stepped).1

private def forwards (executor : Executor) : Action Unit Unit := .act executor (.forward (.attempt () true true))

private def inserts (executor : Executor) : Action Bool Unit := .act executor (.forward (.attempt true true true))

/-- Both executors load the saga before one of them commits the first step; and
one finds the second step done by the other, and compensates the first. -/
theorem executors_disturb_each_other :
    (∃ state, (contention countingDefs 7).run { tables := 0 } [.start "counting" (), .select,
        .load .creator true, .load .recovering true, forwards .creator, forwards .recovering] = some state ∧
      state.committed = [0, 0] ∧ ¬ RunsOnce countingDefs state) ∧
    ∃ state, (contention testDefs 7).run { tables := [] } [.start "saga_test_basic" (), .load .creator true,
        inserts .creator, .select, .load .recovering true, inserts .creator, inserts .recovering,
        .act .recovering (.markCompensating true), .act .recovering (.compensate (.attempt true true true)),
        inserts .creator] = some state ∧
      state.committed = [0, 1, 2] ∧ state.compensated = true ∧ ¬ RunsOnce testDefs state := by
  refine ⟨⟨_, rfl, rfl, fun once => ?_⟩, _, rfl, rfl, rfl, fun once => ?_⟩
  · exact absurd once.atMostOnce (by decide)
  · exact absurd (once.uncompensated _ (makeTestSaga false) rfl rfl (by decide)) (by decide)

end MuduoIm.Server.SagaCoordinator
