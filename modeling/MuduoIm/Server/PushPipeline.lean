import MuduoIm.Data.LogReader
import MuduoIm.PushRouter.Transactional
import MuduoIm.Server.Conversations
import MuduoIm.Server.OutboxService.Soundness

namespace MuduoIm.Server.PushPipeline

open MuduoIm.Data MuduoIm.Data.LogReader MuduoIm.Transition
open MuduoIm.PushRouter (PushOut Word pushCommands route)
open MuduoIm.PushRouter.Transactional (CommitsInSequence InSequence)
open MuduoIm.Server.Conversations (readCommand readCommand_route)
open MuduoIm.Server.OutboxService (Entry System SystemEvent Traced kafkaPayload systemStep)

/-! # From the outbox to the devices

With `outboxOnlyMode_` a private message reaches its receiver over its row in the
outbox, `im.messages`, the transactional router, `im.push.commands` and the
consumer that each instance has in a group of its own.
-/

structure Push (Session : Type) where
  user : Int
  session : Session
  frame : Json

/-- One call of the callback, with the online table and the open sessions that it
found. -/
structure Handling (Session : Type) where
  manager : OnlineManager Session
  isOpen : Session → Bool
  pushes : List (Push Session)

/-- `appended` are the entries behind the records of `im.messages`. -/
structure State (R Txn Instance Session : Type) where
  system : System R Txn := {}
  appended : List (Entry Json) := []
  router : PushRouter.Transactional.State := {}
  readers : Instance → Reader (Handling Session) := fun _ => {}
  managers : Instance → OnlineManager Session := fun _ => {}
  isOpen : Session → Bool := fun _ => false

/-- `append index` writes an entry to `im.messages` that was handed to Kafka, and
`sessions` is any change of the sessions. -/
inductive Event (R Txn Instance Session : Type) where
  | outbox (event : SystemEvent R Txn)
  | append (index : ℕ)
  | router (event : PushRouter.Transactional.Event)
  | sessions (managers : Instance → OnlineManager Session) (isOpen : Session → Bool)
  | start (server : Instance)
  | consume (server : Instance) (crashes : Bool)
  | crash (server : Instance)

/-- The types of the columns, and the check of the receiver in
`handlePrivateMessage`. -/
def InRange (message : PrivateMessage) : Prop :=
  0 < message.toUser ∧ Word message.toUser ∧ Word message.fromUser ∧ Word message.timestamp

instance (message : PrivateMessage) : Decidable (InRange message) :=
  inferInstanceAs (Decidable (_ ∧ (_ ∧ _) ∧ (_ ∧ _) ∧ _ ∧ _))

section

variable {R Txn Instance Session : Type} [DecidableEq R] [DecidableEq Txn] [DecidableEq Instance]

/-- The callback of `enablePushCommandSubscription`; `none` when the read of
`targetUid` throws. -/
def handle (manager : OnlineManager Session) (isOpen : Session → Bool) (command : ℕ × PushOut) :
    Option (Handling Session × Bool) :=
  match command.2.value.valueString "targetUid" "" with
  | none => none
  | some _ =>
      let pushes := match readCommand command.2.value with
        | none => []
        | some (user, frame) => (manager.getSessions isOpen user).map fun session => { user, session, frame }
      some ({ manager, isOpen, pushes }, true)

/-- Kafka reports the delivery of an entry only when it has written it. -/
def State.permits (state : State R Txn Instance Session) : SystemEvent R Txn → Bool
  | .begin _ message => decide (InRange message)
  | .relay (.callback relay context true _) =>
      (state.system.relays.relays relay).outstanding[context]?.all
        fun entry => state.appended.any fun written => written.id = entry.id
  | _ => true

def step (batchSize : ℕ) (state : State R Txn Instance Session) :
    Event R Txn Instance Session → Option (State R Txn Instance Session)
  | .outbox event =>
      if state.permits event then
        (systemStep batchSize state.system event).map fun system => { state with system }
      else none
  | .append index =>
      match state.system.relays.handed[index]? with
      | none => none
      | some entry => some { state with
          appended := state.appended ++ [entry]
          router := { state.router with log := state.router.log ++ [some entry.payload] } }
  | .router event =>
      match event with
      | .publish _ => none
      | _ => (PushRouter.Transactional.step state.router event).map fun router => { state with router }
  | .sessions managers isOpen => some { state with managers, isOpen }
  | .start server =>
      (state.readers server).start.map fun reader =>
        { state with readers := Function.update state.readers server reader }
  | .consume server crashes =>
      ((state.readers server).take state.router.commands (handle (state.managers server) state.isOpen) crashes).map
        fun taken => { state with readers := Function.update state.readers server taken.1 }
  | .crash server =>
      some { state with readers := Function.update state.readers server (state.readers server).crash }

def machine (R Txn Instance Session : Type) [DecidableEq R] [DecidableEq Txn] [DecidableEq Instance]
    (batchSize : ℕ) : Machine (State R Txn Instance Session) (Event R Txn Instance Session) := ⟨step batchSize⟩

/-- The condition under which the router loses nothing. -/
def RoutesInSequence (state : State R Txn Instance Session) : Event R Txn Instance Session → Prop
  | .router event => CommitsInSequence state.router event
  | _ => True

end

end MuduoIm.Server.PushPipeline
