import MuduoIm.Server.SagaCoordinator.Execute

namespace MuduoIm.Server.SagaCoordinator

open MuduoIm.Transition

/-! # Forward steps exactly once

A step and the progress of the row commit together, so a call of `execute` that
begins after a crash goes on where the last one stopped.
-/

variable {Env Tables Payload : Type}

/-- `committed` is history: the forward steps of each saga whose transactions
have committed, in that order. -/
structure Logged (Tables Payload : Type) where
  state : State Tables Payload
  committed : Int → List Nat := fun _ => []

/-- The forward step that an event of a call commits. -/
def newlyCommitted (defs : Definitions Env Tables Payload) (saga : Saga Payload) (tables : Tables) :
    SagaEvent Env → List Nat
  | .forward outcome =>
      match saga.call, defs saga.row.sagaType with
      | .forward i context, some definition =>
          match definition.steps[i]? with
          | none => []
          | some step => if (SagaCoordinator.forward step i context saga.row tables outcome).committed then [i] else []
      | _, _ => []
  | _ => []

def logStep (defs : Definitions Env Tables Payload) (logged : Logged Tables Payload) :
    Event Env Payload → Option (Logged Tables Payload)
  | .saga sagaId event =>
      match logged.state.sagas sagaId with
      | none => none
      | some before => (sagaStep defs sagaId before logged.state.tables event).map fun (after, tables) =>
          { state := { sagas := Function.update logged.state.sagas sagaId (some after), tables }
            committed := Function.update logged.committed sagaId
              (logged.committed sagaId ++ newlyCommitted defs before logged.state.tables event) }
  | event => (step defs logged.state event).map fun state => { logged with state }

def loggedMachine (defs : Definitions Env Tables Payload) :
    Machine (Logged Tables Payload) (Event Env Payload) := ⟨logStep defs⟩

/-- The database does what it is told for this saga, and its forward functions
succeed.  A crash may come at any time. -/
def Answers (defs : Definitions Env Tables Payload) (sagaId : Int) (logged : Logged Tables Payload) :
    Event Env Payload → Prop
  | .saga other (.execute loaded) => other = sagaId → loaded = true
  | .saga other (.forward outcome) => other = sagaId → ∃ env, outcome = .attempt env true true ∧
      ∀ saga definition i context step, logged.state.sagas sagaId = some saga →
        defs saga.row.sagaType = some definition → saga.call = .forward i context →
        definition.steps[i]? = some step →
        (step.forward env { context with currentStep := i } logged.state.tables).ok = true
  | .saga other (.markDone executed) => other = sagaId → executed = true
  | _ => True

/-- The steps commit in order, each at most once; after a call that has
returned all of them have. -/
structure ExactlyOnce (definition : Definition Env Tables Payload) (saga : Saga Payload) (committed : List Nat) :
    Prop where
  inOrder : ∃ count ≤ definition.steps.length, committed = List.range count
  returned : saga.call = .returned → committed = List.range definition.steps.length ∧
    saga.row.state = .done ∧ saga.row.currentStep = definition.steps.length

def StepsExactlyOnce (defs : Definitions Env Tables Payload) (sagaId : Int) (logged : Logged Tables Payload) : Prop :=
  ∀ saga definition, logged.state.sagas sagaId = some saga → defs saga.row.sagaType = some definition →
    ExactlyOnce definition saga (logged.committed sagaId)

/-! ## One saga -/

def Finished (definition : Definition Env Tables Payload) (row : Row Payload) : Prop :=
  row.state = .done ∧ row.currentStep = definition.steps.length

structure Advancing (definition : Definition Env Tables Payload) (saga : Saga Payload) (committed : List Nat) :
    Prop where
  within : saga.row.currentStep ≤ definition.steps.length
  committed : committed = List.range saga.row.currentStep
  call : match saga.call with
    | .idle => saga.row.state = .running ∨ Finished definition saga.row
    | .forward i _ => saga.row.state = .running ∧ i = saga.row.currentStep
    | .returned => Finished definition saga.row
    | _ => False

variable {defs : Definitions Env Tables Payload} {definition : Definition Env Tables Payload}
variable {sagaId : Int} {saga after : Saga Payload} {tables afterTables : Tables} {committed : List Nat}
variable {logged later : Logged Tables Payload} {event : Event Env Payload}

theorem forward_ok {step : Step Env Tables Payload} {i : Nat} {context : Context Payload} (row : Row Payload)
    {env : Env} (ok : (step.forward env { context with currentStep := i } tables).ok = true) :
    forward step i context row tables (.attempt env true true) =
      let result := step.forward env { context with currentStep := i } tables
      { ok := true, context := result.context, tables := result.tables
        row := { row with currentStep := i + 1, payload := result.context.payload } } := by
  simp only [forward, ok, Bool.not_true, Bool.false_eq_true, if_false, Bool.or_self]

theorem Advancing.exactlyOnce (advancing : Advancing definition saga committed) :
    ExactlyOnce definition saga committed where
  inOrder := ⟨_, advancing.within, advancing.committed⟩
  returned := by
    intro returned
    have finished := advancing.call
    rw [returned] at finished
    exact ⟨finished.2 ▸ advancing.committed, finished⟩

theorem Advancing.execute (advancing : Advancing definition saga committed)
    (registered : defs saga.row.sagaType = some definition)
    (stepped : sagaStep defs sagaId saga tables (.execute true : SagaEvent Env) = some (after, afterTables)) :
    Advancing definition after committed ∧ after.row = saga.row := by
  obtain ⟨call, incomplete, _, ⟨unloaded | unregistered, _⟩ | rfl⟩ := executes_of_sagaStep stepped
  · cases unloaded
  · rw [registered] at unregistered
    cases unregistered
  · have idle := advancing.call
    rw [call] at idle
    have running := idle.resolve_right fun finished => absurd finished.1 (by
      rcases incomplete with same | same <;> rw [same] <;> decide)
    exact ⟨⟨advancing.within, advancing.committed, running, rfl⟩, rfl⟩

theorem Advancing.forward {env : Env} (advancing : Advancing definition saga committed)
    (registered : defs saga.row.sagaType = some definition)
    (succeeds : ∀ i context step, saga.call = .forward i context → definition.steps[i]? = some step →
      (step.forward env { context with currentStep := i } tables).ok = true)
    (stepped : sagaStep defs sagaId saga tables (.forward (.attempt env true true)) = some (after, afterTables)) :
    Advancing definition after
        (committed ++ newlyCommitted defs saga tables (.forward (.attempt env true true))) ∧
      after.row.sagaType = saga.row.sagaType := by
  obtain ⟨i, context, other, step, call, same, found, _, rfl⟩ := forwards_of_sagaStep stepped
  rw [registered] at same
  cases same
  have running := advancing.call
  rw [call] at running
  obtain ⟨running, rfl⟩ := running
  have ok := forward_ok saga.row (succeeds _ _ _ call found)
  have commits : newlyCommitted defs saga tables (.forward (.attempt env true true)) = [saga.row.currentStep] := by
    simp only [newlyCommitted, call, registered, found, ok, if_true]
  rw [ok, commits]
  have within := (List.getElem?_eq_some_iff.mp found).1
  refine ⟨⟨within, ?_, running, rfl⟩, rfl⟩
  rw [advancing.committed]
  exact List.range_succ.symm

theorem Advancing.markDone (advancing : Advancing definition saga committed)
    (registered : defs saga.row.sagaType = some definition)
    (stepped : sagaStep defs sagaId saga tables (.markDone true : SagaEvent Env) = some (after, afterTables)) :
    Advancing definition after committed ∧ after.row.sagaType = saga.row.sagaType := by
  obtain ⟨i, context, other, call, same, last, _, rfl⟩ := marksDone_of_sagaStep stepped
  rw [registered] at same
  cases same
  have running := advancing.call
  rw [call] at running
  obtain ⟨_, rfl⟩ := running
  have within := advancing.within
  exact ⟨⟨within, advancing.committed, rfl, Nat.le_antisymm within last⟩, rfl⟩

/-- No call of this saga gets to a compensation. -/
theorem Advancing.sagaStep {event : SagaEvent Env} (advancing : Advancing definition saga committed)
    (registered : defs saga.row.sagaType = some definition) (found : logged.state.sagas sagaId = some saga)
    (answers : Answers defs sagaId logged (.saga sagaId event : Event Env Payload))
    (stepped : sagaStep defs sagaId saga logged.state.tables event = some (after, afterTables)) :
    Advancing definition after (committed ++ newlyCommitted defs saga logged.state.tables event) ∧
      after.row.sagaType = saga.row.sagaType := by
  have call := advancing.call
  cases event with
  | execute loaded =>
      obtain rfl := answers rfl
      obtain ⟨advanced, row⟩ := advancing.execute registered stepped
      rw [row]
      exact ⟨(List.append_nil committed).symm ▸ advanced, rfl⟩
  | forward outcome =>
      obtain ⟨env, rfl, succeeds⟩ := answers rfl
      exact advancing.forward registered (fun i context step call => succeeds _ _ _ _ _ found registered call) stepped
  | markDone executed =>
      obtain rfl := answers rfl
      obtain ⟨advanced, sameType⟩ := advancing.markDone registered stepped
      exact ⟨(List.append_nil committed).symm ▸ advanced, sameType⟩
  | markCompensating executed =>
      obtain ⟨context, failed, _⟩ := marksCompensating_of_sagaStep stepped
      rw [failed] at call
      exact call.elim
  | compensate outcome =>
      obtain ⟨remaining, context, _, _, undoing, _⟩ := compensates_of_sagaStep stepped
      rw [undoing] at call
      exact call.elim
  | markFailed executed =>
      obtain ⟨context, undone, _⟩ := marksFailed_of_sagaStep stepped
      rw [undone] at call
      exact call.elim

/-! ## All runs -/

structure Progressing (defs : Definitions Env Tables Payload) (sagaId : Int) (logged : Logged Tables Payload) :
    Prop where
  unstarted : logged.state.sagas sagaId = none → logged.committed sagaId = []
  started : ∀ saga, logged.state.sagas sagaId = some saga → ∃ definition,
    defs saga.row.sagaType = some definition ∧ Advancing definition saga (logged.committed sagaId)

theorem Progressing.step (progressing : Progressing defs sagaId logged) (answers : Answers defs sagaId logged event)
    (stepped : (loggedMachine defs).step logged event = some later) : Progressing defs sagaId later := by
  cases event with
  | start other sagaType payload =>
      obtain ⟨state, started, rfl⟩ := Option.map_eq_some_iff.mp stepped
      simp only [SagaCoordinator.step] at started
      split at started
      · rename_i admitted
        cases started
        by_cases same : sagaId = other
        · subst same
          obtain ⟨definition, registered⟩ := Option.isSome_iff_exists.mp admitted.2
          refine ⟨fun absurdly => by simp at absurdly, fun saga found => ?_⟩
          simp only [Function.update_self, Option.some.injEq] at found
          subst found
          exact ⟨definition, registered, Nat.zero_le _, progressing.unstarted admitted.1, .inl rfl⟩
        · have unchanged : Function.update logged.state.sagas other
              (some { row := { sagaType, payload } }) sagaId = logged.state.sagas sagaId :=
            Function.update_of_ne same ..
          exact ⟨fun absent => progressing.unstarted (unchanged ▸ absent),
            fun saga found => progressing.started saga (unchanged ▸ found)⟩
      · cases started
  | saga other event =>
      simp only [loggedMachine, logStep] at stepped
      split at stepped
      · cases stepped
      · rename_i before found
        obtain ⟨⟨after, tables⟩, taken, rfl⟩ := Option.map_eq_some_iff.mp stepped
        by_cases same : sagaId = other
        · subst same
          obtain ⟨definition, registered, advancing⟩ := progressing.started before found
          obtain ⟨advanced, sameType⟩ := advancing.sagaStep registered found answers taken
          refine ⟨fun absurdly => by simp at absurdly, fun saga present => ?_⟩
          simp only [Function.update_self, Option.some.injEq] at present
          subst present
          rw [sameType]
          simp only [Function.update_self]
          exact ⟨definition, registered, advanced⟩
        · refine ⟨fun absent => ?_, fun saga present => ?_⟩
          · simp only [Function.update_of_ne same] at absent ⊢
            exact progressing.unstarted absent
          · simp only [Function.update_of_ne same] at present ⊢
            exact progressing.started saga present
  | crash =>
      cases stepped
      refine ⟨fun absent => progressing.unstarted (Option.map_eq_none_iff.mp absent), fun saga present => ?_⟩
      obtain ⟨before, found, rfl⟩ := Option.map_eq_some_iff.mp present
      obtain ⟨definition, registered, advancing⟩ := progressing.started before found
      refine ⟨definition, registered, advancing.within, advancing.committed, ?_⟩
      have call := advancing.call
      split at call
      · exact call
      · exact .inl call.1
      · exact .inr call
      · exact call.elim

/-- A saga whose forward functions succeed, over a database that answers, runs
each of its steps once and in order, wherever the crashes fall. -/
theorem steps_exactly_once (defs : Definitions Env Tables Payload) (sagaId : Int) (tables : Tables)
    {events : List (Event Env Payload)}
    (met : (loggedMachine defs).Meets (Answers defs sagaId) { state := { tables } } events) :
    (loggedMachine defs).Always (StepsExactlyOnce defs sagaId) { state := { tables } } events := by
  have start : Progressing defs sagaId ({ state := { tables } } : Logged Tables Payload) :=
    ⟨fun _ => rfl, nofun⟩
  refine (Machine.always_of_meets (Progressing defs sagaId) start
    (fun _ _ _ progressing answers => progressing.step answers) met).mono ?_
  intro logged progressing saga definition found registered
  obtain ⟨known, same, advancing⟩ := progressing.started saga found
  rw [registered, Option.some.injEq] at same
  exact same ▸ advancing.exactlyOnce

/-- Two steps that count how often they run. -/
def countingDefs : Definitions Unit Nat Unit := fun _ => some {
  name := "counting"
  steps := List.replicate 2 {
    name := "count", compensate := none
    forward := fun _ context tables => { ok := true, context, tables := tables + 1 } } }

/-- Three crashes, the last one before the row is marked. -/
private def crashing : List (Event Unit Unit) :=
  [.start 7 "counting" (), .crash, .saga 7 (.execute true), .saga 7 (.forward (.attempt () true true)),
    .crash, .saga 7 (.execute true), .saga 7 (.forward (.attempt () true true)), .crash,
    .saga 7 (.execute true), .saga 7 (.markDone true)]

theorem steps_exactly_once_crashing : ∃ logged saga,
    (loggedMachine countingDefs).run { state := { tables := 0 } } crashing = some logged ∧
    logged.state.sagas 7 = some saga ∧ saga.call = .returned ∧ StepsExactlyOnce countingDefs 7 logged := by
  have counts {logged : Logged Nat Unit} : Answers countingDefs 7 logged
      (.saga 7 (.forward (.attempt () true true))) := by
    refine fun _ => ⟨(), rfl, fun saga definition i context step _ registered _ found => ?_⟩
    cases registered
    rw [List.eq_of_mem_replicate (List.mem_of_getElem? found)]
  have met : (loggedMachine countingDefs).Meets (Answers countingDefs 7) { state := { tables := 0 } } crashing := by
    apply Machine.meets_of_forall
    simp only [crashing, List.forall_mem_cons]
    exact ⟨fun _ => trivial, fun _ => trivial, fun _ _ => rfl, fun _ => counts, fun _ => trivial, fun _ _ => rfl,
      fun _ => counts, fun _ => trivial, fun _ _ => rfl, fun _ _ => rfl, nofun⟩
  exact ⟨_, _, rfl, rfl, rfl, (steps_exactly_once countingDefs 7 0 met).atEnd rfl⟩

end MuduoIm.Server.SagaCoordinator
