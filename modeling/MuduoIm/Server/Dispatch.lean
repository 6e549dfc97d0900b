import MuduoIm.Server.Conversations

namespace MuduoIm.Server.Dispatch

open MuduoIm.Data MuduoIm.Server MuduoIm.Server.MessageHandlers MuduoIm.Server.MessageQueue
open MuduoIm.Server.Delivery MuduoIm.Server.Conversations

/-! # The message handler of an instance

What the handler does on the IO thread with a message of a session, for every
type of frame.  A read of a field of another type throws, and the handler
catches nothing, so its result is then `none`.  No handler changes anything
before its last read.
-/

structure WsMessage where
  isText : Bool := true
  text : String
deriving DecidableEq, Repr

/-- The frames that a server pushes about deliveries, read positions and
typing. -/
inductive Notice where
  | delivered (msgId : String) (deliveredAt deliveredCount : Int)
  | readAck (fromUserId toUserId : Int) (lastMsgId : String)
  | readSync (convId : Int) (lastMsgId : String)
  | typing (fromUserId toUserId : Int)
deriving DecidableEq, Repr

structure Notified (Instance Session : Type) where
  server : Instance
  user : Int
  session : Session
  notice : Notice

/-- What the task of a recall captures, on the instance that runs it. -/
structure RecallTask (Instance Session : Type) where
  server : Instance
  session : Session
  msgId : String
  fromUserId : Int

/-- The columns `delivered_at`, which is NULL in a new row, and
`delivered_count`, by message. -/
structure Deliveries where
  deliveredAt : Table String Int := ∅
  deliveredCount : Table String Int := ∅

/-- The instances with what the frames about other things than a message
change: `readPositions` holds the `read_pos` keys of Redis, `recalls` the
submitted tasks.  `notices` is what the last step pushed besides `pushes`. -/
structure World (Instance Session : Type) extends State Instance Session where
  deliveries : Deliveries := {}
  readPositions : Table String String := ∅
  recalls : List (RecallTask Instance Session) := []
  notices : List (Notified Instance Session) := []

/-- Which connections and statements of the handlers are answered. -/
structure Answers extends Conversations.Answers where
  acquired : Bool := true
  updated : ConvType → Bool := fun _ => true
  cleared : Bool := true
  positioned : Bool := true

inductive FrameType where
  | msg
  | groupMsg
  | typing
  | fileMsg
  | recall
  | edit
  | reaction
  | clientAck
  | readAck
  | readSync
  | unknown
deriving DecidableEq, Repr

def frameType (type : String) : FrameType :=
  if type = "msg" then .msg
  else if type = "group_msg" then .groupMsg
  else if type = "typing" then .typing
  else if type = "file_msg" then .fileMsg
  else if type = "recall" then .recall
  else if type = "edit" then .edit
  else if type = "reaction" then .reaction
  else if type = "client_ack" then .clientAck
  else if type = "read_ack" then .readAck
  else if type = "read_sync" then .readSync
  else .unknown

/-! ## Delivered messages -/

namespace Deliveries

/-- The update of `group_messages`: the sender, or 0, and the new count. -/
def countGroup (deliveries : Deliveries) (answers : Answers) (records : Records) (msgId : String) :
    Deliveries × Int × Int :=
  match records.groupRow msgId with
  | none => (deliveries, 0, 1)
  | some row =>
      if answers.updated .group then
        let count := (deliveries.deliveredCount.lookup msgId).getD 0 + 1
        ({ deliveries with deliveredCount := deliveries.deliveredCount.insert msgId count },
          if answers.selected then (row.fromUser, count) else (0, 1))
      else (deliveries, 0, 1)

/-- The update of `private_messages`, and that of `group_messages` if it
affects no row. -/
def acknowledge (deliveries : Deliveries) (answers : Answers) (records : Records) (msgId : String)
    (ackerId now : Int) : Deliveries × Int × Int :=
  match records.privateRow msgId with
  | none => deliveries.countGroup answers records msgId
  | some row =>
      if answers.updated .privateChat ∧ row.toUser = ackerId ∧ deliveries.deliveredAt.lookup msgId = none then
        ({ deliveries with deliveredAt := deliveries.deliveredAt.insert msgId now },
          if answers.selected then row.fromUser else 0, 1)
      else deliveries.countGroup answers records msgId

end Deliveries

/-! ## Handlers -/

def clearUnread (unread : Unread) (userId peerId : Int) : Unread := unread.erase (userId, peerId)

def keyReadPos (userId : Int) (toStr : String) : String := "read_pos:" ++ toString userId ++ ":" ++ toStr

section

variable {Instance Session : Type} (managers : Instance → OnlineManager Session) (isOpen : Session → Bool)

def broadcastToUser (server : Instance) (userId : Int) (notice : Notice) : List (Notified Instance Session) :=
  ((managers server).getSessions isOpen userId).map (fun session => ⟨server, userId, session, notice⟩)

def sendToOtherDevices (server : Instance) (userId : Int) (excludeDevice : String) (notice : Notice) :
    List (Notified Instance Session) :=
  ((managers server).getOtherSessions isOpen userId excludeDevice).map
    (fun session => ⟨server, userId, session, notice⟩)

end

namespace World

variable {Instance Session : Type} (world : World Instance Session)

/-- The world after a step that neither answers nor pushes. -/
def quiet (user : Int) : World Instance Session :=
  { world with toState := world.toState.quiet user, notices := [] }

/-- The session is sent an error frame. -/
def refuse (message : String) : World Instance Session := { world with reply := some (.error message) }

variable (isOpen : Session → Bool) (server : Instance) (user : Int) (frame : Json) (answers : Answers)

def handleTyping : Option (World Instance Session) := do
  let toStr ← frame.valueString "to" ""
  let toUserId := (stoll toStr).getD 0
  if toStr = "" ∨ toUserId ≤ 0 then return world
  else return { world with
    notices := broadcastToUser world.managers isOpen server toUserId (.typing user toUserId) }

/-- A `to` that is no number is taken for the user 0. -/
def handleReadAck (config : Config) (device : String) : Option (World Instance Session) := do
  let toStr ← frame.valueString "to" ""
  let lastMsgId ← frame.valueString "lastMsgId" ""
  let toUserId := (stoll toStr).getD 0
  if toStr = "" ∨ lastMsgId = "" then return world
  else return { world with
    unread := if config.redisPool && answers.cleared then clearUnread world.unread user toUserId
      else world.unread
    readPositions := if config.redisPool && answers.positioned then
        world.readPositions.insert (keyReadPos user toStr) lastMsgId
      else world.readPositions
    notices := broadcastToUser world.managers isOpen server toUserId (.readAck user toUserId lastMsgId) ++
      sendToOtherDevices world.managers isOpen server user device (.readSync toUserId lastMsgId) }

def handleClientAck (now : Int) : Option (World Instance Session) := do
  let msgId ← frame.valueString "msgId" ""
  if msgId = "" then return world
  else
    let records := world.records.flushed answers.flush
    if answers.acquired then
      let (deliveries, fromUser, count) := world.deliveries.acknowledge answers records msgId user now
      return { world with
        records, deliveries
        notices := if fromUser ≤ 0 ∨ fromUser = user then []
          else broadcastToUser world.managers isOpen server fromUser (.delivered msgId now count) }
    else return { world with records }

def handleRecall (session : Session) (submitted : Bool) : Option (World Instance Session) := do
  let msgId ← frame.valueString "msgId" ""
  if msgId = "" then return world.refuse "missing msgId"
  else if submitted then return { world with recalls := world.recalls ++ [⟨server, session, msgId, user⟩] }
  else return world.refuse "server busy, retry later"

def handleEdit (session : Session) (now : Int) : Option (World Instance Session) := do
  let _ ← frame.valueString "msgId" ""
  let _ ← frame.valueString "newBody" ""
  return { world with
    toState := world.toState.settle user (Conversations.handleEdit world.managers isOpen server user session
      world.records world.unread frame now answers.toAnswers) }

def handleReaction (weightString : String → List Nat) (session : Session) : Option (World Instance Session) := do
  let _ ← frame.valueString "msgId" ""
  let _ ← frame.valueString "emoji" ""
  return { world with
    toState := world.toState.settle user (Conversations.handleReaction world.managers isOpen server user session
      weightString world.records world.unread frame answers.toAnswers) }

variable [DecidableEq Instance] (settings : Settings) (device : String) (arrival : Arrival)

/-- The private and the group handler, which are those of `MessageHandlers`. -/
def handleText (handler : Handler) : Option (World Instance Session) :=
  match checkArguments handler.invalidTarget frame with
  | .error .illTyped => none
  | _ => some { world with
      toState := world.toState.submitText settings server user device frame arrival handler }

def handleFileMessage : Option (World Instance Session) :=
  match checkFileArguments frame with
  | .error .illTyped => none
  | _ => some { world with toState := world.toState.submitFile server user frame arrival }

/-- The handler of a frame of an authenticated session. -/
def dispatch (session : Session) : FrameType → Option (World Instance Session)
  | .msg => world.handleText server user frame settings device arrival .privateMessage
  | .groupMsg => world.handleText server user frame settings device arrival .groupMessage
  | .typing => world.handleTyping isOpen server user frame
  | .fileMsg => world.handleFileMessage server user frame arrival
  | .recall => world.handleRecall server user frame session arrival.submitted
  | .edit => world.handleEdit isOpen server user frame answers session arrival.now
  | .reaction => world.handleReaction isOpen server user frame answers settings.weightString session
  | .clientAck => world.handleClientAck isOpen server user frame answers arrival.now
  | .readAck => world.handleReadAck isOpen server user frame answers settings.config device
  | .readSync => world.handleReadAck isOpen server user frame answers settings.config device
  | .unknown => some (world.refuse "unknown message type")

/-- The callback of `setMessageHandler`.  `parse` is that of the JSON library,
without a value for a discarded text. -/
def messageHandler (parse : String → Option Json) (session : Session) (message : WsMessage) :
    Option (World Instance Session) :=
  let world := world.quiet user
  if message.isText = false then some world
  else match parse message.text with
  | none => some (world.refuse "invalid JSON")
  | some frame => do
      let type ← frame.valueString "type" ""
      if user ≤ 0 then return world.refuse "not authenticated"
      else world.dispatch isOpen server user frame answers settings device arrival session (frameType type)

end World

end MuduoIm.Server.Dispatch
