import MuduoIm.Server.SagaCoordinator.InsertSaga

namespace MuduoIm.Server.SagaCoordinator

open MuduoIm.Transition

/-! # A finished saga is all or nothing -/

variable {Env Tables Payload : Type}
variable (effect : Int → Nat → Tables → Nat) (records : Nat → Payload → Prop)

/-! ## The property and the condition -/

def Settled (definition : Definition Env Tables Payload) (saga : Saga Payload)
    (applied : Nat → Nat) : Prop :=
  (saga.row.state = .done → ∀ i < definition.steps.length, applied i = 1) ∧
    (saga.row.state = .failed → saga.abandoned = false →
      ∀ i < definition.steps.length, applied i = 0)

/-- Every saga of a registered type that is `done` has each step applied once,
and every saga that is `failed`, with no compensation left uncommitted, has
none applied. -/
def AllOrNothing (defs : Definitions Env Tables Payload) (state : State Tables Payload) : Prop :=
  ∀ sagaId saga definition, state.sagas sagaId = some saga →
    defs saga.row.sagaType = some definition →
      Settled definition saga (fun i => effect sagaId i state.tables)

/-- `execute` is not entered for a saga that a compensation has written for, and
the compensations begin where the row stands, before the last step is done. -/
def InStep (defs : Definitions Env Tables Payload) (state : State Tables Payload) : Event Env Payload → Prop
  | .saga sagaId (.execute _) =>
      ∀ saga, state.sagas sagaId = some saga → saga.compensated = false
  | .saga sagaId (.markCompensating _) => ∀ saga context definition, state.sagas sagaId = some saga →
      saga.call = .forwardFailed context → defs saga.row.sagaType = some definition →
        context.currentStep = saga.row.currentStep ∧ context.currentStep < definition.steps.length
  | _ => True

/-! ## What holds of one saga at every point of its call -/

structure Progress (definition : Definition Env Tables Payload) (row : Row Payload)
    (applied : Nat → Nat) : Prop where
  within : row.currentStep ≤ definition.steps.length
  applied : AppliedBelow row.currentStep applied
  recorded : ∀ i < row.currentStep, records i row.payload

def CallConsistent (definition : Definition Env Tables Payload) (sagaId : Int)
    (saga : Saga Payload) (applied : Nat → Nat) : Phase Payload → Prop
  | .idle | .returned => True
  | .forward i context =>
      saga.row.state.Incomplete ∧ saga.compensated = false ∧ i = saga.row.currentStep ∧
        Ready records sagaId saga.row.currentStep context
  | .forwardFailed context =>
      saga.row.state.Incomplete ∧ saga.compensated = false ∧ Ready records sagaId saga.row.currentStep context
  | .compensating remaining context =>
      saga.row.state.Incomplete ∧ saga.row.currentStep < definition.steps.length ∧
        remaining ≤ saga.row.currentStep ∧ Ready records sagaId saga.row.currentStep context ∧
        (saga.abandoned = false → AppliedBelow remaining applied)

structure Consistent (definition : Definition Env Tables Payload) (sagaId : Int)
    (saga : Saga Payload) (applied : Nat → Nat) : Prop where
  settled : Settled definition saga applied
  progress : saga.row.state.Incomplete → saga.compensated = false →
    Progress records definition saga.row applied
  call : CallConsistent records definition sagaId saga applied saga.call

variable {effect records}
variable {definition : Definition Env Tables Payload} {defs : Definitions Env Tables Payload}
variable {sagaId : Int} {saga after : Saga Payload} {tables afterTables : Tables}
variable {applied : Nat → Nat}

theorem SagaState.Incomplete.ne_done {state : SagaState} (incomplete : state.Incomplete) :
    state ≠ .done := by
  rcases incomplete with rfl | rfl <;> decide

theorem SagaState.Incomplete.ne_failed {state : SagaState} (incomplete : state.Incomplete) :
    state ≠ .failed := by
  rcases incomplete with rfl | rfl <;> decide

theorem settled_of_incomplete (incomplete : saga.row.state.Incomplete) :
    Settled definition saga applied :=
  ⟨fun done => absurd done incomplete.ne_done, fun failed => absurd failed incomplete.ne_failed⟩

/-! ## One step of a call -/

/-- The tables look the same to every other saga. -/
def OthersKept (effect : Int → Nat → Tables → Nat) (sagaId : Int) (before after : Tables) : Prop :=
  ∀ other, other ≠ sagaId → ∀ i, effect other i after = effect other i before

theorem Consistent.execute {loaded : Bool}
    (consistent : Consistent records definition sagaId saga applied)
    (uncompensated : saga.compensated = false)
    (stepped : sagaStep defs sagaId saga tables (.execute loaded) = some (after, afterTables)) :
    Consistent records definition sagaId after applied ∧ afterTables = tables ∧
      after.row.sagaType = saga.row.sagaType := by
  obtain ⟨_, incomplete, rfl, ⟨_, rfl⟩ | rfl⟩ := executes_of_sagaStep stepped
  · exact ⟨⟨consistent.settled, consistent.progress, trivial⟩, rfl, rfl⟩
  · have progress := consistent.progress incomplete uncompensated
    refine ⟨⟨settled_of_incomplete incomplete, fun _ _ => progress, ?_⟩, rfl, rfl⟩
    exact ⟨incomplete, uncompensated, rfl, rfl, progress.recorded⟩

theorem Consistent.forward {outcome : ForwardOutcome Env}
    (reversible : Reversible effect records definition)
    (registered : defs saga.row.sagaType = some definition)
    (consistent : Consistent records definition sagaId saga (fun i => effect sagaId i tables))
    (stepped : sagaStep defs sagaId saga tables (.forward outcome) = some (after, afterTables)) :
    Consistent records definition sagaId after (fun i => effect sagaId i afterTables) ∧
      OthersKept effect sagaId tables afterTables ∧ after.row.sagaType = saga.row.sagaType := by
  obtain ⟨i, context, other, step, call, same, found, rfl, rfl⟩ := forwards_of_sagaStep stepped
  rw [registered] at same
  cases same
  have holds := consistent.call
  rw [call] at holds
  obtain ⟨incomplete, uncompensated, rfl, ready⟩ := holds
  have progress := consistent.progress incomplete uncompensated
  have others : OthersKept effect sagaId tables
      (SagaCoordinator.forward step saga.row.currentStep context saga.row tables outcome).tables :=
    fun other apart j => forward_others reversible found (by rw [ready.sagaId]; exact apart) j
  have within := (List.getElem?_eq_some_iff.mp found).1
  cases result : (SagaCoordinator.forward step saga.row.currentStep context saga.row tables outcome).committed with
  | false =>
      obtain ⟨refused, sameRow, sameTables, left⟩ := forward_failed reversible found ready result
      simp only [refused, sameRow, sameTables, Bool.false_eq_true, if_false]
      exact ⟨⟨settled_of_incomplete incomplete, fun _ _ => progress,
        incomplete, uncompensated, left⟩, fun _ _ _ => rfl, trivial⟩
  | true =>
      obtain ⟨newRow, left, once, rest⟩ := forward_committed reversible found ready result
      have applied := progress.applied.succ once rest
      have advanced : Progress records definition
          (SagaCoordinator.forward step saga.row.currentStep context saga.row tables outcome).row
          (fun j => effect sagaId j
            (SagaCoordinator.forward step saga.row.currentStep context saga.row tables outcome).tables) := by
        rw [newRow]
        exact ⟨within, applied, left.recorded⟩
      have kept : (SagaCoordinator.forward step saga.row.currentStep context saga.row tables outcome).row.state =
          saga.row.state := by rw [newRow]
      have stands : (SagaCoordinator.forward step saga.row.currentStep context saga.row tables
          outcome).row.currentStep = saga.row.currentStep + 1 := by rw [newRow]
      rw [← kept] at incomplete
      refine ⟨⟨settled_of_incomplete incomplete, fun _ _ => advanced, ?_⟩, others, by dsimp only; rw [newRow]⟩
      -- the row has advanced also when the answer is lost, and the context can serve it
      rw [← stands] at left
      dsimp only
      split
      · exact ⟨incomplete, uncompensated, stands.symm, left⟩
      · exact ⟨incomplete, uncompensated, left⟩

theorem Consistent.markDone {executed : Bool}
    (registered : defs saga.row.sagaType = some definition)
    (consistent : Consistent records definition sagaId saga applied)
    (stepped : sagaStep defs sagaId saga tables (.markDone executed : SagaEvent Env) =
      some (after, afterTables)) :
    Consistent records definition sagaId after applied ∧ afterTables = tables ∧
      after.row.sagaType = saga.row.sagaType := by
  obtain ⟨i, context, other, call, same, finished, rfl, rfl⟩ := marksDone_of_sagaStep stepped
  rw [registered] at same
  cases same
  have holds := consistent.call
  rw [call] at holds
  obtain ⟨incomplete, uncompensated, rfl, ready⟩ := holds
  have progress := consistent.progress incomplete uncompensated
  cases executed with
  | false => exact ⟨⟨settled_of_incomplete incomplete, fun _ _ => progress, trivial⟩, rfl, rfl⟩
  | true =>
      refine ⟨⟨⟨fun _ i below => ?_, nofun⟩, ?_, trivial⟩, rfl, rfl⟩
      · rw [progress.applied, if_pos (by omega)]
      · exact fun incomplete => absurd rfl incomplete.ne_done

theorem Consistent.markCompensating {executed : Bool}
    (consistent : Consistent records definition sagaId saga applied)
    (inStep : ∀ context, saga.call = .forwardFailed context →
      context.currentStep = saga.row.currentStep ∧ context.currentStep < definition.steps.length)
    (stepped : sagaStep defs sagaId saga tables (.markCompensating executed : SagaEvent Env) =
      some (after, afterTables)) :
    Consistent records definition sagaId after applied ∧ afterTables = tables ∧
      after.row.sagaType = saga.row.sagaType := by
  obtain ⟨context, call, rfl, rfl⟩ := marksCompensating_of_sagaStep stepped
  have holds := consistent.call
  rw [call] at holds
  obtain ⟨incomplete, uncompensated, ready⟩ := holds
  obtain ⟨position, within⟩ := inStep context call
  rw [position] at within
  have progress := consistent.progress incomplete uncompensated
  have unwinding : AppliedBelow context.currentStep applied := position ▸ progress.applied
  cases executed with
  | false =>
      exact ⟨⟨settled_of_incomplete incomplete, fun _ _ => progress,
        incomplete, within, Nat.le_of_eq position, ready, fun _ => unwinding⟩, rfl, rfl⟩
  | true =>
      have marked : SagaState.compensating.Incomplete := .inr rfl
      exact ⟨⟨settled_of_incomplete marked, fun _ _ => ⟨progress.within, progress.applied,
        progress.recorded⟩, marked, within, Nat.le_of_eq position, ready,
        fun _ => unwinding⟩, rfl, rfl⟩

theorem Consistent.compensate {outcome : CompensateOutcome Env}
    (reversible : Reversible effect records definition)
    (registered : defs saga.row.sagaType = some definition)
    (consistent : Consistent records definition sagaId saga (fun i => effect sagaId i tables))
    (stepped : sagaStep defs sagaId saga tables (.compensate outcome) = some (after, afterTables)) :
    Consistent records definition sagaId after (fun i => effect sagaId i afterTables) ∧
      OthersKept effect sagaId tables afterTables ∧ after.row.sagaType = saga.row.sagaType := by
  obtain ⟨remaining, context, other, step, call, same, found, rfl, rfl⟩ := compensates_of_sagaStep stepped
  rw [registered] at same
  cases same
  have holds := consistent.call
  rw [call] at holds
  obtain ⟨incomplete, within, position, ready, unwinding⟩ := holds
  refine ⟨⟨settled_of_incomplete incomplete, ?_, incomplete, within,
    Nat.le_of_succ_le position, compensate_ready reversible found ready, ?_⟩, ?_, rfl⟩
  · intro _ uncompensated
    obtain ⟨earlier, untouched⟩ := Bool.or_eq_false_iff.mp uncompensated
    rw [compensate_idle untouched]
    exact consistent.progress incomplete earlier
  · intro complete
    obtain ⟨earlier, completed⟩ := Bool.or_eq_false_iff.mp complete
    exact compensate_complete reversible found (by omega) ready (by omega)
      (unwinding earlier) (by simpa using completed)
  · exact fun other apart j =>
      compensate_others reversible found (by rw [ready.sagaId]; exact apart) j

theorem Consistent.markFailed {executed : Bool}
    (consistent : Consistent records definition sagaId saga applied)
    (stepped : sagaStep defs sagaId saga tables (.markFailed executed : SagaEvent Env) =
      some (after, afterTables)) :
    Consistent records definition sagaId after applied ∧ afterTables = tables ∧
      after.row.sagaType = saga.row.sagaType := by
  obtain ⟨context, call, rfl, rfl⟩ := marksFailed_of_sagaStep stepped
  have holds := consistent.call
  rw [call] at holds
  obtain ⟨incomplete, within, position, ready, unwinding⟩ := holds
  cases executed with
  | false => exact ⟨⟨settled_of_incomplete incomplete, consistent.progress, trivial⟩, rfl, rfl⟩
  | true =>
      refine ⟨⟨⟨nofun, fun _ complete i _ => ?_⟩, ?_, trivial⟩, rfl, rfl⟩
      · rw [unwinding complete, if_neg (Nat.not_lt_zero i)]
      · exact fun incomplete => absurd rfl incomplete.ne_failed

theorem Consistent.sagaStep {event : SagaEvent Env} (reversible : Reversible effect records definition)
    (registered : defs saga.row.sagaType = some definition)
    (consistent : Consistent records definition sagaId saga (fun i => effect sagaId i tables))
    (entered : ∀ loaded, event = .execute loaded → saga.compensated = false)
    (inStep : ∀ executed context, event = .markCompensating executed → saga.call = .forwardFailed context →
      context.currentStep = saga.row.currentStep ∧ context.currentStep < definition.steps.length)
    (stepped : sagaStep defs sagaId saga tables event = some (after, afterTables)) :
    Consistent records definition sagaId after (fun i => effect sagaId i afterTables) ∧
      OthersKept effect sagaId tables afterTables ∧ after.row.sagaType = saga.row.sagaType := by
  cases event with
  | execute loaded =>
      obtain ⟨kept, rfl, sameType⟩ := consistent.execute (entered loaded rfl) stepped
      exact ⟨kept, fun _ _ _ => rfl, sameType⟩
  | forward outcome => exact consistent.forward reversible registered stepped
  | markDone executed =>
      obtain ⟨kept, rfl, sameType⟩ := consistent.markDone registered stepped
      exact ⟨kept, fun _ _ _ => rfl, sameType⟩
  | markCompensating executed =>
      obtain ⟨kept, rfl, sameType⟩ := consistent.markCompensating (fun context => inStep executed context rfl) stepped
      exact ⟨kept, fun _ _ _ => rfl, sameType⟩
  | compensate outcome => exact consistent.compensate reversible registered stepped
  | markFailed executed =>
      obtain ⟨kept, rfl, sameType⟩ := consistent.markFailed stepped
      exact ⟨kept, fun _ _ _ => rfl, sameType⟩

/-! ## All sagas -/

structure AllConsistent (effect : Int → Nat → Tables → Nat) (records : String → Nat → Payload → Prop)
    (defs : Definitions Env Tables Payload) (state : State Tables Payload) : Prop where
  unstarted : ∀ sagaId, state.sagas sagaId = none → ∀ i, effect sagaId i state.tables = 0
  started : ∀ sagaId saga, state.sagas sagaId = some saga →
    ∃ definition, defs saga.row.sagaType = some definition ∧
      Consistent (records saga.row.sagaType) definition sagaId saga
        (fun i => effect sagaId i state.tables)

variable {effects : String → Nat → Payload → Prop} {state next : State Tables Payload}

theorem AllConsistent.allOrNothing (consistent : AllConsistent effect effects defs state) :
    AllOrNothing effect defs state := by
  intro sagaId saga definition found registered
  obtain ⟨known, lookup, holds⟩ := consistent.started sagaId saga found
  rw [registered] at lookup
  cases lookup
  exact holds.settled

theorem consistent_new {sagaType : String} {payload : Payload} {ofType : Nat → Payload → Prop}
    (untouched : ∀ i, applied i = 0) :
    Consistent ofType definition sagaId { row := { sagaType, payload } } applied where
  settled := ⟨nofun, nofun⟩
  progress := fun _ _ => ⟨Nat.zero_le _, fun i => untouched i, fun i below => absurd below (Nat.not_lt_zero i)⟩
  call := trivial

theorem AllConsistent.update (consistent : AllConsistent effect effects defs state)
    (registered : defs after.row.sagaType = some definition)
    (kept : Consistent (effects after.row.sagaType) definition sagaId after
      (fun i => effect sagaId i afterTables))
    (others : OthersKept effect sagaId state.tables afterTables) :
    AllConsistent effect effects defs
      { sagas := Function.update state.sagas sagaId (some after), tables := afterTables } where
  unstarted := fun other absent i => by
    by_cases same : other = sagaId
    · simp [same] at absent
    · simp only [Function.update_of_ne same] at absent
      rw [others other same]
      exact consistent.unstarted other absent i
  started := fun other entry found => by
    by_cases same : other = sagaId
    · subst same
      simp only [Function.update_self, Option.some.injEq] at found
      subst found
      exact ⟨definition, registered, kept⟩
    · simp only [Function.update_of_ne same] at found
      simp only [others other same]
      exact consistent.started other entry found

theorem AllConsistent.step {event : Event Env Payload}
    (reversible : ∀ sagaType definition, defs sagaType = some definition →
      Reversible effect (effects sagaType) definition)
    (consistent : AllConsistent effect effects defs state) (inStep : InStep defs state event)
    (stepped : (machine defs).step state event = some next) :
    AllConsistent effect effects defs next := by
  cases event with
  | start sagaId sagaType payload =>
      simp only [machine, SagaCoordinator.step] at stepped
      split at stepped
      · rename_i admitted
        obtain ⟨definition, registered⟩ := Option.isSome_iff_exists.mp admitted.2
        cases stepped
        exact consistent.update registered (consistent_new (consistent.unstarted sagaId admitted.1))
          (fun _ _ _ => rfl)
      · contradiction
  | saga sagaId event =>
      simp only [machine, SagaCoordinator.step] at stepped
      cases found : state.sagas sagaId with
      | none => simp [found] at stepped
      | some saga =>
          cases result : sagaStep defs sagaId saga state.tables event with
          | none => simp [found, result] at stepped
          | some after =>
              simp only [found, result, Option.some.injEq] at stepped
              subst stepped
              obtain ⟨definition, registered, holds⟩ := consistent.started sagaId saga found
              have permitted : ∀ loaded, event = .execute loaded → saga.compensated = false := by
                intro loaded same
                subst same
                exact inStep saga found
              have begins : ∀ executed context, event = .markCompensating executed →
                  saga.call = .forwardFailed context → context.currentStep = saga.row.currentStep ∧
                    context.currentStep < definition.steps.length := by
                intro executed context same call
                subst same
                exact inStep saga context definition found call registered
              obtain ⟨kept, others, sameType⟩ :=
                holds.sagaStep (reversible _ _ registered) registered permitted begins result
              rw [← sameType] at registered kept
              exact consistent.update registered kept others
  | crash =>
      cases stepped
      refine ⟨fun other absent => consistent.unstarted other (Option.map_eq_none_iff.mp absent), ?_⟩
      intro other entry lookup
      obtain ⟨saga, found, rfl⟩ := Option.map_eq_some_iff.mp lookup
      obtain ⟨definition, registered, holds⟩ := consistent.started other saga found
      exact ⟨definition, registered, holds.settled, holds.progress, trivial⟩

/-- Over tables that show no forward effect at first, every run that enters
`execute` only for sagas without compensations written so far, and begins the
compensations of a saga only where its row stands, keeps all finished sagas all
or nothing. -/
theorem all_or_nothing_of_inStep
    (reversible : ∀ sagaType definition, defs sagaType = some definition →
      Reversible effect (effects sagaType) definition)
    (clean : ∀ sagaId i, effect sagaId i tables = 0) {events : List (Event Env Payload)}
    (met : (machine defs).Meets (InStep defs) { tables } events) :
    (machine defs).Always (AllOrNothing effect defs) { tables } events := by
  refine (Machine.always_of_meets (AllConsistent effect effects defs)
    ⟨fun sagaId _ => clean sagaId, fun _ _ found => by simp at found⟩
    (fun _ _ _ consistent inStep stepped => consistent.step reversible inStep stepped) met).mono ?_
  exact fun _ consistent => consistent.allOrNothing

private def inserted : ForwardOutcome Bool := .attempt true true true

/-- A crash after the first step, a restart, and a second step that fails. -/
private def resumed : List (Event Bool Unit) :=
  [.start 7 "saga_test_basic" (), .saga 7 (.execute true), .saga 7 (.forward inserted), .crash,
    .saga 7 (.execute true), .saga 7 (.forward (.attempt false true true)), .saga 7 (.markCompensating true),
    .saga 7 (.compensate (.attempt true true true)), .saga 7 (.markFailed true),
    .start 8 "saga_test_basic" (), .saga 8 (.execute true), .saga 8 (.forward inserted),
    .saga 8 (.forward inserted), .saga 8 (.forward inserted), .saga 8 (.markDone true)]

theorem resumed_all_or_nothing :
    ∃ state failed done, (machine testDefs).run { tables := [] } resumed = some state ∧
      state.sagas 7 = some failed ∧ failed.row.state = .failed ∧ failed.abandoned = false ∧
      state.sagas 8 = some done ∧ done.row.state = .done ∧ AllOrNothing insertedRows testDefs state := by
  have entered {state : State TestTable Unit} {sagaId : Int} {saga : Saga Unit} {loaded : Bool}
      (found : state.sagas sagaId = some saga) (uncompensated : saga.compensated = false) :
      InStep testDefs state (.saga sagaId (.execute loaded)) := by
    intro other same
    cases found.symm.trans same
    exact uncompensated
  have met : (machine testDefs).Meets (InStep testDefs) { tables := [] } resumed := by
    refine .cons rfl trivial <| .cons rfl (entered rfl rfl) <| .cons rfl trivial <| .cons rfl trivial <|
      .cons rfl (entered rfl rfl) <| .cons rfl trivial <| .cons rfl ?_ <| .cons rfl trivial <|
      .cons rfl trivial <| .cons rfl trivial <| .cons rfl (entered rfl rfl) <| .cons rfl trivial <|
      .cons rfl trivial <| .cons rfl trivial <| .cons rfl trivial trivial
    intro saga context definition found call registered
    cases found
    cases call
    cases registered
    decide
  refine ⟨_, _, _, rfl, rfl, rfl, rfl, rfl, rfl, Machine.Always.atEnd
    (all_or_nothing_of_inStep testDefs_reversible (fun _ _ => rfl) met) rfl⟩

/-! ## A resumed compensation and a lost answer -/

/-- The second insert fails, the first is compensated, and the server crashes
before `markFailed`; the restarted server goes on with the second insert. -/
private def compensatedThenResumed : List (Event Bool Unit) :=
  [.start 7 "saga_test_basic" (), .saga 7 (.execute true), .saga 7 (.forward inserted),
    .saga 7 (.forward (.attempt false true true)), .saga 7 (.markCompensating true),
    .saga 7 (.compensate (.attempt true true true)), .crash, .saga 7 (.execute true),
    .saga 7 (.forward inserted), .saga 7 (.forward inserted), .saga 7 (.markDone true)]

/-- The first insert commits, but the call takes it for one that has not. -/
private def committedUnnoticed : List (Event Bool Unit) :=
  [.start 7 "saga_test_basic" (), .saga 7 (.execute true), .saga 7 (.forward (.answerLost true)),
    .saga 7 (.markCompensating true), .saga 7 (.markFailed true)]

theorem resumed_compensation_is_done_in_part :
    (∀ sagaType definition, testDefs sagaType = some definition →
      Reversible insertedRows recordsNothing definition) ∧
    (∃ state, (machine testDefs).run { tables := [] } compensatedThenResumed = some state ∧
      ¬ AllOrNothing insertedRows testDefs state) ∧
    ∃ state, (machine testDefs).run { tables := [] } committedUnnoticed = some state ∧
      ¬ AllOrNothing insertedRows testDefs state := by
  refine ⟨testDefs_reversible, ⟨_, rfl, fun finished => ?_⟩, _, rfl, fun finished => ?_⟩
  · obtain ⟨done, _⟩ := finished 7 _ (makeTestSaga false) rfl rfl
    exact absurd (done rfl 0 (by decide)) (by decide)
  · obtain ⟨_, failed⟩ := finished 7 _ (makeTestSaga false) rfl rfl
    exact absurd (failed rfl rfl 0 (by decide)) (by decide)

end MuduoIm.Server.SagaCoordinator
