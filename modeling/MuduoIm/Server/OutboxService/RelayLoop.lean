import MuduoIm.Server.OutboxService.Custody

namespace MuduoIm.Server.OutboxService

open MuduoIm.Transition

/-! # The relay thread and those who wake it

The relay thread drains the table and, when it claimed nothing, waits on a
condition variable.  Other threads commit rows and call `wake` afterwards.  The
statements of `drainOnce` are executed; a step is one of them or one action on
`wakeMu_`, `wakeFlag_` and the condition variable.
-/

/-- Where the relay thread is in `relayLoop`. -/
inductive Position where
  | stopped
  | top
  | draining (claims : Nat)
  | locking
  | testing (timedOut : Bool)
  | parking
  | blocked
  | roused (timedOut : Bool)
  | clearing
deriving DecidableEq, Repr

/-- How far a thread is in `wake`. -/
inductive WakeStage where
  | outside
  | calling
  | locked
  | flagged
  | notified
deriving DecidableEq, Repr

/-- `rows` are the ids that the thread has committed since its last call of
`wake` returned. -/
structure Committer where
  rows : List Nat := []
  stage : WakeStage := .outside
deriving DecidableEq, Repr

inductive Holder (T : Type) where
  | relay
  | committer (thread : T)
deriving DecidableEq, Repr

/-- The last two fields are history: the ids that were ever claimed, and those
that were committed before a call of `wake` that has returned. -/
structure RelayLoop (T Payload : Type) where
  table : State Unit Payload := {}
  running : Bool := false
  position : Position := .stopped
  wakeMu : Option (Holder T) := none
  wakeFlag : Bool := false
  committers : T → Committer := fun _ => {}
  claimed : List Nat := []
  woken : List Nat := []

inductive LoopEvent (T Payload : Type) where
  | tick (elapsed : Nat)
  | callback (context : Nat) (ok executed : Bool)
  | start (executed : Bool)
  | stop
  | crash
  | commit (thread : T) (row : Row Payload)
  | wake (thread : T)
  | select
  | claim
  | produce (queued executed : Bool)
  | drained
  | lock
  | test
  | park
  | rouse (timedOut : Bool)
  | clear

variable {T Payload : Type}

section

variable [DecidableEq T]

def RelayLoop.setCommitter (loop : RelayLoop T Payload) (thread : T) (committer : Committer) :
    RelayLoop T Payload :=
  { loop with committers := Function.update loop.committers thread committer }

/-- The next action of `wake` in this thread. -/
def wake (loop : RelayLoop T Payload) (thread : T) : Option (RelayLoop T Payload) :=
  let committer := loop.committers thread
  match committer.stage with
  | .outside => some (loop.setCommitter thread { committer with stage := .calling })
  | .calling =>
      if loop.wakeMu = none then
        some { loop.setCommitter thread { committer with stage := .locked } with
          wakeMu := some (.committer thread) }
      else none
  | .locked =>
      some { loop.setCommitter thread { committer with stage := .flagged } with wakeFlag := true }
  | .flagged =>
      -- `notify_one`: a thread that is not in the wait misses it
      some { loop.setCommitter thread { committer with stage := .notified } with
        position := if loop.position = .blocked then .roused false else loop.position }
  | .notified =>
      some { loop.setCommitter thread {} with
        wakeMu := none
        woken := committer.rows ++ loop.woken }

def loopStep (batchSize : Nat) (loop : RelayLoop T Payload) :
    LoopEvent T Payload → Option (RelayLoop T Payload)
  | .tick elapsed => (step batchSize loop.table (.tick elapsed)).map fun table => { loop with table }
  | .callback context ok executed =>
      (step batchSize loop.table (.callback () context ok executed)).map fun table => { loop with table }
  | .start executed =>
      if loop.running ∨ loop.position ≠ .stopped then none
      else (step batchSize loop.table (.start () executed)).map fun table =>
        { loop with table, running := true, position := .top }
  -- `stop` goes on with a call of `wake`
  | .stop => if loop.running then some { loop with running := false } else none
  | .crash =>
      (step batchSize loop.table (.crash ())).map fun table =>
        { table, claimed := loop.claimed, woken := loop.woken }
  | .commit thread row =>
      if (loop.committers thread).stage = .outside then
        (step batchSize loop.table (.commit row)).map fun table =>
          { loop.setCommitter thread { rows := row.id :: (loop.committers thread).rows } with table }
      else none
  | .wake thread => wake loop thread
  | .select =>
      if loop.position = .top then
        if loop.running then
          (step batchSize loop.table (.select () true)).map fun table =>
            { loop with table, position := .draining 0 }
        else some { loop with position := .stopped }
      else none
  | .claim =>
      match loop.position, (loop.table.relays ()).rows with
      | .draining claims, row :: _ =>
          (step batchSize loop.table (.claim () true)).map fun table =>
            if Claimable loop.table.outbox row.id then
              { loop with table, position := .draining (claims + 1), claimed := row.id :: loop.claimed }
            else { loop with table }
      | _, _ => none
  | .produce queued executed =>
      match loop.position with
      | .draining _ =>
          (step batchSize loop.table (.produce () queued executed)).map fun table => { loop with table }
      | _ => none
  | .drained =>
      match loop.position with
      | .draining claims =>
          if (loop.table.relays ()).rows = [] ∧ (loop.table.relays ()).claimed = [] then
            some { loop with position := if claims = 0 then .locking else .top }
          else none
      | _ => none
  -- the lock before the wait, and the one that the wait takes again
  | .lock =>
      match loop.position with
      | .locking =>
          if loop.wakeMu = none then some { loop with position := .testing false, wakeMu := some .relay }
          else none
      | .roused timedOut =>
          if loop.wakeMu = none then some { loop with position := .testing timedOut, wakeMu := some .relay }
          else none
      | _ => none
  -- after a timeout the wait returns whatever the predicate says
  | .test =>
      match loop.position with
      | .testing timedOut =>
          some { loop with
            position := if loop.wakeFlag ∨ ¬ loop.running ∨ timedOut then .clearing else .parking }
      | _ => none
  | .park =>
      if loop.position = .parking then some { loop with position := .blocked, wakeMu := none } else none
  -- a timeout or a spurious wake-up
  | .rouse timedOut =>
      if loop.position = .blocked then some { loop with position := .roused timedOut } else none
  | .clear =>
      if loop.position = .clearing then
        some { loop with position := .top, wakeFlag := false, wakeMu := none }
      else none

def loopMachine (T Payload : Type) [DecidableEq T] (batchSize : Nat) :
    Machine (RelayLoop T Payload) (LoopEvent T Payload) := ⟨loopStep batchSize⟩

end

/-- The relay is blocked in its wait, and a row that it was woken for was never
claimed. -/
def SleepsThrough (loop : RelayLoop T Payload) : Prop :=
  loop.position = .blocked ∧ loop.wakeFlag = false ∧
    ∃ row ∈ loop.table.outbox, row.id ∉ loop.claimed ∧ row.id ∈ loop.woken

end MuduoIm.Server.OutboxService
