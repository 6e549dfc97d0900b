import MuduoIm.Data.Table
import MuduoIm.Server.FriendService
import MuduoIm.Transition.Machine

namespace MuduoIm.Server.ClientAck

open MuduoIm.Data MuduoIm.Transition MuduoIm.Server.FriendService

/-! # Acknowledgements of the clients

Any number of `client_ack` frames are handled at once, one SQL statement a
step; between the steps new messages are flushed into the tables.
-/

/-- What is read or written of a row of `private_messages`. -/
structure PrivateRow where
  fromUser : Int
  toUser : Int
  deliveredAt : Option Int := none
deriving DecidableEq, Repr

/-- What is read or written of a row of `group_messages`. -/
structure GroupRow where
  fromUser : Int
  deliveredCount : Int := 0
deriving DecidableEq, Repr

/-- A row of one of the two tables.  Message ids are unique over both of them,
so they are one table here. -/
inductive Message where
  | privateMessage (row : PrivateRow)
  | groupMessage (row : GroupRow)
deriving DecidableEq, Repr

structure Frame where
  ackerId : Int
  msgId : String
deriving DecidableEq, Repr

/-- A delivered frame, sent to the devices of `toUser`. -/
structure Delivered (Call : Type) where
  call : Call
  toUser : Int
  msgId : String
  deliveredAt : Int
  deliveredCount : Int
deriving DecidableEq, Repr

/-- An UPDATE that changed a row. -/
inductive Write (Call : Type) where
  | deliveredAt (call : Call) (value : Int)
  | deliveredCount (call : Call)
deriving DecidableEq, Repr

inductive Phase where
  | idle
  | acquired (deliveredAt : Int)
  -- the UPDATE of `private_messages` reports a row, or not
  | updated (deliveredAt : Int)
  | passed (deliveredAt : Int)
  -- the UPDATE of `group_messages` reports a row
  | counted (deliveredAt : Int)
  | released (fromUser deliveredAt deliveredCount : Int)
  | finished
deriving DecidableEq, Repr

/-- `pushes` and `writes` are histories. -/
structure State (Call : Type) where
  messages : Table String Message := ∅
  calls : Call → Phase := fun _ => .idle
  pushes : List (Delivered Call) := []
  writes : List (Write Call) := []

inductive Event (Call : Type) where
  | insertPrivate (msgId : String) (fromUser toUser : Int)
  | insertGroup (msgId : String) (fromUser : Int)
  | handleClientAck (call : Call) (connected : Bool) (now : Int)
  | updatePrivate (call : Call) (answer : CommitAnswer)
  | selectPrivate (call : Call) (answered : Bool)
  | updateGroup (call : Call) (answer : CommitAnswer)
  | selectGroup (call : Call) (answered : Bool)
  | push (call : Call)
deriving DecidableEq, Repr

variable {Call : Type} [DecidableEq Call] (frameOf : Call → Frame)

def State.goto (state : State Call) (call : Call) (phase : Phase) : State Call :=
  { state with calls := Function.update state.calls call phase }

def State.message (state : State Call) (call : Call) : Option Message :=
  state.messages.lookup (frameOf call).msgId

/-- An UPDATE of the row of the message. -/
def State.write (state : State Call) (call : Call) (message : Message) (write : Write Call) : State Call :=
  { state with
    messages := state.messages.insert (frameOf call).msgId message
    writes := state.writes ++ [write] }

def step (state : State Call) : Event Call → Option (State Call)
  | .insertPrivate msgId fromUser toUser =>
      if (state.messages.lookup msgId).isSome then none
      else some { state with messages := state.messages.insert msgId (.privateMessage { fromUser, toUser }) }
  | .insertGroup msgId fromUser =>
      if (state.messages.lookup msgId).isSome then none
      else some { state with messages := state.messages.insert msgId (.groupMessage { fromUser }) }
  | .handleClientAck call connected now =>
      match state.calls call with
      | .idle =>
          if (frameOf call).msgId = "" ∨ connected = false then some (state.goto call .finished)
          else some (state.goto call (.acquired now))
      | _ => none
  | .updatePrivate call answer =>
      match state.calls call with
      | .acquired deliveredAt =>
          match state.message frameOf call with
          | some (.privateMessage row) =>
              if answer ≠ .refused ∧ row.toUser = (frameOf call).ackerId ∧ row.deliveredAt = none then
                some ((state.write frameOf call (.privateMessage { row with deliveredAt := some deliveredAt })
                  (.deliveredAt call deliveredAt)).goto call
                    (if answer = .committed then .updated deliveredAt else .passed deliveredAt))
              else some (state.goto call (.passed deliveredAt))
          | _ => some (state.goto call (.passed deliveredAt))
      | _ => none
  | .selectPrivate call answered =>
      match state.calls call with
      | .updated deliveredAt =>
          match state.message frameOf call with
          | some (.privateMessage row) =>
              some (state.goto call (.released (if answered then row.fromUser else 0) deliveredAt 1))
          | _ => some (state.goto call (.released 0 deliveredAt 1))
      | _ => none
  | .updateGroup call answer =>
      match state.calls call with
      | .passed deliveredAt =>
          match state.message frameOf call with
          | some (.groupMessage row) =>
              if answer ≠ .refused then
                some ((state.write frameOf call (.groupMessage { row with deliveredCount := row.deliveredCount + 1 })
                  (.deliveredCount call)).goto call
                    (if answer = .committed then .counted deliveredAt else .released 0 deliveredAt 1))
              else some (state.goto call (.released 0 deliveredAt 1))
          | _ => some (state.goto call (.released 0 deliveredAt 1))
      | _ => none
  | .selectGroup call answered =>
      match state.calls call with
      | .counted deliveredAt =>
          match state.message frameOf call with
          | some (.groupMessage row) =>
              if answered then some (state.goto call (.released row.fromUser deliveredAt row.deliveredCount))
              else some (state.goto call (.released 0 deliveredAt 1))
          | _ => some (state.goto call (.released 0 deliveredAt 1))
      | _ => none
  | .push call =>
      match state.calls call with
      | .released fromUser deliveredAt deliveredCount =>
          if fromUser ≤ 0 ∨ fromUser = (frameOf call).ackerId then some (state.goto call .finished)
          else some { state.goto call .finished with
            pushes := state.pushes ++ [⟨call, fromUser, (frameOf call).msgId, deliveredAt, deliveredCount⟩] }
      | _ => none

def machine : Machine (State Call) (Event Call) := ⟨step frameOf⟩

end MuduoIm.Server.ClientAck
