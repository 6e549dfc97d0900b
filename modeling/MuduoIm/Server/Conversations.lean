import MuduoIm.Data.Text
import MuduoIm.PushRouter.Route
import MuduoIm.Server.Delivery
import MuduoIm.Server.MessageQueue.FailedFlush
import MuduoIm.Server.Recall

namespace MuduoIm.Server.Conversations

open MuduoIm.Data MuduoIm.Data.Text MuduoIm.Transition MuduoIm.Server MuduoIm.Server.MessageHandlers
open MuduoIm.Server.MessageQueue MuduoIm.Server.Recall MuduoIm.Server.Delivery

/-! # Conversations and the frames that are pushed about their messages

Any number of instances with an online table, a dedup set and a worker pool
each, over one MySQL and one Redis server.  Which sessions are open, and
whether a statement is answered, is an argument of each step.
-/

structure Reaction where
  msgId : String
  uid : Int
  emoji : String
deriving DecidableEq, Repr

/-- The collation of `message_reactions` compares the weights of two texts. -/
def Reaction.SameKey (weightString : String → List Nat) (left right : Reaction) : Prop :=
  weightString left.msgId = weightString right.msgId ∧ left.uid = right.uid ∧
    weightString left.emoji = weightString right.emoji

instance (weightString : String → List Nat) (left right : Reaction) :
    Decidable (left.SameKey weightString right) :=
  inferInstanceAs (Decidable (_ ∧ _ ∧ _))

/-- What the handlers share.  `outbox` holds the messages that were committed
with a row of the outbox, and `members` the pairs of a group and a user in
`group_members`. -/
structure Records where
  store : MessageStore := {}
  outbox : List PrivateMessage := []
  recalled : RecalledRows := {}
  reactions : List Reaction := []
  members : List (Int × Int) := []

/-- What a handler leaves behind, answers to the sender and pushes; `inserted`
is the row that it adds to `message_reactions`. -/
structure Effect (Instance Session : Type) where
  records : Records
  reply : Option Reply := none
  pushes : List (Sent Instance Session) := []
  inserted : Option Reaction := none
  unread : Unread

/-- Which of the statements of a handler are answered. -/
structure Answers where
  flush : FlushOutcome := {}
  edited : ConvType → Bool := fun _ => true
  toggled : Bool := true
  queried : Bool := true
  selected : Bool := true
  read : Bool := true
  memberIds : Bool := true

def getMemberIds (answered : Bool) (records : Records) (groupId : Int) : List Int :=
  if answered then (records.members.filter (fun row => row.1 = groupId)).map Prod.snd else []

def Records.flushed (records : Records) (outcome : FlushOutcome) : Records :=
  { records with store := (flushMessageQueue outcome records.store).store }

/-- A frame names a message by the id that its row has, as the page does. -/
def Records.privateRow (records : Records) (msgId : String) : Option PrivateMessage :=
  records.store.tables.privateMessages.find? (fun row => row.msgId = msgId)

def Records.groupRow (records : Records) (msgId : String) : Option GroupMessage :=
  records.store.tables.groupMessages.find? (fun row => row.msgId = msgId)

/-! ## Edits -/

/-- The checks of `editMessage` on the row that it finds. -/
def editable (editorId now : Int) (recalled : List String) (msgId : String) (fromUser timestamp : Int) : Bool :=
  decide (fromUser = editorId) && decide (msgId ∉ recalled) && decide (now - 15 * 60 * 1000 ≤ timestamp)

/-- `none` when it returns false. -/
def editMessage (answered : Bool) (records : Records) (msgId : String) (editorId now : Int)
    (newBody : String) : ConvType → Option Records
  | .privateChat =>
      match records.privateRow msgId with
      | none => none
      | some row =>
          if answered && editable editorId now records.recalled.privateMessages msgId row.fromUser row.timestamp then
            some { records with store.tables.privateMessages :=
              records.store.tables.privateMessages.map fun other =>
                if other.msgId = msgId then { other with content := newBody } else other }
          else none
  | .group =>
      match records.groupRow msgId with
      | none => none
      | some row =>
          if answered && editable editorId now records.recalled.groupMessages msgId row.fromUser row.timestamp then
            some { records with store.tables.groupMessages :=
              records.store.tables.groupMessages.map fun other =>
                if other.msgId = msgId then { other with content := newBody } else other }
          else none

section

variable {Instance Session : Type} (managers : Instance → OnlineManager Session) (isOpen : Session → Bool)
variable (server : Instance) (user : Int) (session : Session)

/-- The frame goes to the session that asked and to all open sessions of some
users. -/
def pushTo (userIds : List Int) (frame : Frame) : List (Sent Instance Session) :=
  ⟨server, user, session, frame⟩ ::
    userIds.flatMap (fun userId => broadcastToUser managers isOpen server userId frame)

def handleEdit (records : Records) (unread : Unread) (frame : Json) (now : Int) (answers : Answers) :
    Effect Instance Session :=
  match frame.valueString "msgId" "", frame.valueString "newBody" "" with
  | some msgId, some newBody =>
      if msgId = "" ∨ newBody = "" then
        { records, unread, reply := some (.error "missing msgId or newBody") }
      else if 10000 < newBody.utf8ByteSize then
        { records, unread, reply := some (.error "message too long (max 10000 chars)") }
      else
        let records := records.flushed answers.flush
        match editMessage (answers.edited .privateChat) records msgId user now newBody .privateChat with
        | some edited =>
            let convId := if answers.selected then ((edited.privateRow msgId).map (·.toUser)).getD 0 else 0
            { records := edited, unread
              pushes := pushTo managers isOpen server user session [convId]
                (.edit msgId newBody now user .privateChat convId) }
        | none =>
            match editMessage (answers.edited .group) records msgId user now newBody .group with
            | some edited =>
                let convId := if answers.selected then ((edited.groupRow msgId).map (·.groupId)).getD 0 else 0
                { records := edited, unread
                  pushes := pushTo managers isOpen server user session
                    ((getMemberIds answers.memberIds edited convId).filter (fun memberId => memberId ≠ user))
                    (.edit msgId newBody now user .group convId) }
            | none =>
                { records, unread
                  reply := some (.error "edit failed (timeout / not your message / already recalled)") }
  -- a field of another type throws
  | _, _ => { records, unread }

/-! ## Reactions -/

variable (weightString : String → List Nat)

/-- `toggleReaction` returns true. -/
def toggles (answers : Answers) (msgId emoji : String) : Bool :=
  decide (msgId ≠ "" ∧ emoji ≠ "" ∧ emoji.utf8ByteSize ≤ 16) && answers.toggled

/-- The table after `toggleReaction` and the row that was inserted; `none` when
it returns false. -/
def toggleReaction (answers : Answers) (reactions : List Reaction) (msgId : String) (uid : Int)
    (emoji : String) : Option (List Reaction × Option Reaction) :=
  let reaction : Reaction := ⟨msgId, uid, emoji⟩
  if toggles answers msgId emoji = false then none
  else if answers.queried = true ∧ ∃ row ∈ reactions, row.SameKey weightString reaction then
    some (reactions.filter (fun row => ¬row.SameKey weightString reaction), none)
  -- INSERT IGNORE
  else if ∃ row ∈ reactions, row.SameKey weightString reaction then some (reactions, none)
  else some (reactions ++ [reaction], some reaction)

/-- The users by emoji, with the emojis, each read as a `char*`, in the order of
the keys of an object. -/
def getReactions (answered : Bool) (reactions : List Reaction) (msgId : String) : Json :=
  let rows := if answered then reactions.filter (fun row => weightString row.msgId = weightString msgId) else []
  let emojis := (rows.map (fun row => cString row.emoji)).dedup.mergeSort (fun left right => decide (left ≤ right))
  .object (emojis.map fun emoji =>
    (emoji, .array ((rows.filter (fun row => cString row.emoji = emoji)).map
      (fun row => .string (toString row.uid)))))

def handleReaction (records : Records) (unread : Unread) (frame : Json) (answers : Answers) :
    Effect Instance Session :=
  match frame.valueString "msgId" "", frame.valueString "emoji" "" with
  | some msgId, some emoji =>
      if msgId = "" ∨ emoji = "" then
        { records, unread, reply := some (.error "missing msgId or emoji") }
      else if 16 < emoji.utf8ByteSize then
        { records, unread, reply := some (.error "emoji too long") }
      else
        let records := records.flushed answers.flush
        match toggleReaction weightString answers records.reactions msgId user emoji with
        | none => { records, unread, reply := some (.error "reaction failed (db error)") }
        | some (reactions, inserted) =>
            let records := { records with reactions }
            match if answers.selected then records.privateRow msgId else none with
            | some row =>
                let peer := if user = row.fromUser then row.toUser else row.fromUser
                { records, unread, inserted
                  pushes := pushTo managers isOpen server user session [peer]
                    (.reactionUpdate msgId (getReactions weightString answers.read reactions msgId)
                      .privateChat peer) }
            | none =>
                match if answers.selected then records.groupRow msgId else none with
                | some row =>
                    { records, unread, inserted
                      pushes := pushTo managers isOpen server user session
                        ((getMemberIds answers.memberIds records row.groupId).filter
                          (fun memberId => memberId ≠ user))
                        (.reactionUpdate msgId (getReactions weightString answers.read reactions msgId)
                          .group row.groupId) }
                | none =>
                    { records, unread, inserted
                      pushes := pushTo managers isOpen server user session []
                        (.reactionUpdate msgId (.object []) .privateChat 0) }
  | _, _ => { records, unread }

end

/-! ## Tasks of the workers -/

/-- What a conversation is between. -/
inductive Conversation where
  | direct (first second : Int)
  | group (groupId : Int)
deriving DecidableEq, Repr

def Conversation.TakesPart (members : List (Int × Int)) (userId : Int) : Conversation → Prop
  | .direct first second => userId = first ∨ userId = second
  | .group groupId => (groupId, userId) ∈ members

inductive Task where
  | text (task : MessageHandlers.Task) (replyTo senderDevice : String)
  | file (task : FileTask)

def Task.msgId : Task → String
  | .text task _ _ => task.msgId
  | .file task => task.msgId

/-- What a worker meets.  `reached` is what the router publishes to. -/
structure WorkOutcome (Instance : Type) where
  persist : PersistOutcome := {}
  memberIds : Bool := true
  saved : Bool := true
  reached : List Instance := []
  now : Int := 0

/-- How the instances are set up; `dump` writes the content of a file message,
and `weightString` is the collation of the database. -/
structure Settings where
  config : Config := {}
  outboxOnlyMode : Bool := false
  dump : Json → String
  weightString : String → List Nat

section

variable {Instance Session : Type} (managers : Instance → OnlineManager Session) (isOpen : Session → Bool)
variable (settings : Settings) (server : Instance) (outcome : WorkOutcome Instance)

/-- The persistence and the delivery of a text message, after the ack too. -/
def workPrivate (records : Records) (unread : Unread) (clientMsgId : String) (message : PrivateMessage)
    (replyTo senderDevice : String) : Effect Instance Session :=
  let persisted := settings.config.outboxService &&
    (outboxTransaction outcome.persist.outbox records.store message).1
  let delivered := deliverPrivate managers isOpen (fun _ _ => outcome.reached) settings.outboxOnlyMode
    persisted server message replyTo senderDevice unread
  { records := { records with
      store := persist settings.config outcome.persist records.store (.privateMessage message)
      outbox := if persisted then records.outbox ++ [message] else records.outbox }
    reply := some (.ack message.msgId clientMsgId)
    pushes := delivered.sent
    unread := delivered.unread }

def workGroup (records : Records) (unread : Unread) (clientMsgId : String) (message : GroupMessage)
    (mentions : List Json) (replyTo : String) : Effect Instance Session :=
  let memberIds := getMemberIds outcome.memberIds records message.groupId
  let mentioned := mentionIds memberIds message.fromUser mentions
  let item := (MessageHandlers.Task.groupMessage clientMsgId message mentions).item memberIds
  { records := { records with store := persist settings.config outcome.persist records.store item }
    reply := some (.ack message.msgId clientMsgId)
    pushes := (memberIds.filter (fun memberId => memberId ≠ message.fromUser)).flatMap fun memberId =>
      broadcastToUser managers isOpen server memberId
        (.groupMsg message replyTo mentioned (decide (memberId ∈ mentioned)))
    unread }

def workFile (records : Records) (unread : Unread) (task : FileTask) : Effect Instance Session :=
  let delivered := deliverFile managers isOpen server task outcome.now unread
  { records := { records with
      store.tables := (records.store.tables.savePrivateMessage outcome.saved (task.row settings.dump)).2 }
    reply := some (.ack task.msgId "")
    pushes := delivered.sent
    unread := delivered.unread }

/-- The user and the payload that the consumer of `im.push.commands` finds in a
command; it skips the others. -/
def readCommand (command : Json) : Option (Int × Json) := do
  let named ← command.valueString "targetUid" ""
  let target ← if named = "" then none else stoll named
  return (target, (command.member "payload").getD .null)

/-- The command that the push router makes of a message names its receiver, and
the payload has the members of the frame. -/
theorem readCommand_route {message : PrivateMessage} (receiver : 0 < message.toUser)
    (toUser : PushRouter.Word message.toUser) (fromUser : PushRouter.Word message.fromUser)
    (timestamp : PushRouter.Word message.timestamp) :
    ∃ command, PushRouter.route (some (OutboxService.kafkaPayload message)) = some [command] ∧
      ∃ payload, readCommand command.value = some (message.toUser, payload) ∧
        ∀ key, payload.member key = (Frame.msg message "").json.member key := by
  refine ⟨_, PushRouter.route_kafkaPayload (by omega) toUser fromUser timestamp, ?_⟩
  have read := stoll_toString (Int.le_of_lt receiver) toUser.2
  have named := ne_empty_of_stoll read
  simp only [readCommand, Json.valueString, Json.member, List.lookup_cons, String.reduceBEq, Option.bind_eq_bind,
    Option.bind_some, if_neg named, read]
  refine ⟨_, rfl, ?_⟩
  intro key
  -- the router writes the same members in another order
  by_cases listed : key ∈ ["content", "from", "msgId", "timestamp", "to", "type"]
  · simp only [List.mem_cons, List.not_mem_nil, or_false] at listed
    rcases listed with rfl | rfl | rfl | rfl | rfl | rfl <;> rfl
  · simp only [List.mem_cons, List.not_mem_nil, or_false, not_or] at listed
    simp [Frame.json, Frame.replyMember, List.lookup_cons, beq_eq_false_iff_ne.mpr, listed]

/-- The consumer of `im.push.commands`, for the command that the push router
makes of a row of the outbox. -/
def deliverCommand (records : Records) (unread : Unread) (message : PrivateMessage) :
    Effect Instance Session where
  records := records
  pushes := broadcastToUser managers isOpen server message.toUser (.msg message "")
  unread := unread

def Task.work (records : Records) (unread : Unread) : Task → Effect Instance Session
  | .text (.privateMessage clientMsgId message) replyTo senderDevice =>
      workPrivate managers isOpen settings server outcome records unread clientMsgId message replyTo senderDevice
  | .text (.groupMessage clientMsgId message mentions) replyTo _ =>
      workGroup managers isOpen settings server outcome records unread clientMsgId message mentions replyTo
  | .file task => workFile managers isOpen settings server outcome records unread task

end

/-! ## The instances as a machine -/

/-- What a frame asks for.  The frames of `other` push nothing about a message;
a recall is a step of its own. -/
inductive MessageType where
  | msg
  | groupMsg
  | fileMsg
  | edit
  | reaction
  | other
  | unknown
deriving DecidableEq, Repr

def messageType (type : String) : MessageType :=
  if type = "msg" then .msg
  else if type = "group_msg" then .groupMsg
  else if type = "file_msg" then .fileMsg
  else if type = "edit" then .edit
  else if type = "reaction" then .reaction
  else if type ∈ ["typing", "recall", "client_ack", "read_ack", "read_sync"] then .other
  else .unknown

structure ChatServer (Session : Type) where
  onlineManager : OnlineManager Session := {}
  recentMsgIds : List String := []
  submitted : List Task := []

/-- `conversations` is history: the conversation in which each message was
sent.  `causer` is the user for whom the last step was made; `reply`, `pushes`
and `inserted` are what it did. -/
structure State (Instance Session : Type) where
  servers : Instance → ChatServer Session := fun _ => {}
  records : Records := {}
  unread : Unread := ∅
  conversations : Table String Conversation := ∅
  causer : Int := 0
  reply : Option Reply := none
  pushes : List (Sent Instance Session) := []
  inserted : Option Reaction := none

/-- A frame comes over a session whose user is authenticated, or 0. -/
inductive Event (Instance Session : Type) where
  | message (server : Instance) (user : Int) (session : Session) (device : String) (frame : Json)
      (arrival : Arrival) (answers : Answers) (isOpen : Session → Bool)
  | work (server : Instance) (msgId : String) (outcome : WorkOutcome Instance) (isOpen : Session → Bool)
  | pushCommand (server : Instance) (message : PrivateMessage) (isOpen : Session → Bool)
  | recallMessage (outcome : FlushOutcome) (msgId : String) (user now : Int)
  | flush (outcome : FlushOutcome)
  | connect (server : Instance) (user : Int) (device : String) (session : Session)
  | close (server : Instance) (user : Int) (device : String)
  | members (rows : List (Int × Int))

def textConversation : MessageHandlers.Task → Conversation
  | .privateMessage _ message => .direct message.fromUser message.toUser
  | .groupMessage _ message _ => .group message.groupId

/-- A client that has a group open names it in `groupId`, which the handler
does not read. -/
def fileConversation (frame : Json) (task : FileTask) : Conversation :=
  match (frame.valueString "groupId" "").bind stoll with
  | some groupId => .group groupId
  | none => .direct task.fromUserId task.toUserId

namespace State

variable {Instance Session : Type} (state : State Instance Session)

def managers : Instance → OnlineManager Session := fun server => (state.servers server).onlineManager

/-- The state after a step that neither answers nor pushes. -/
def quiet (user : Int) : State Instance Session :=
  { state with causer := user, reply := none, pushes := [], inserted := none }

def settle (user : Int) (effect : Effect Instance Session) : State Instance Session :=
  { state with
    records := effect.records
    unread := effect.unread
    causer := user
    reply := effect.reply
    pushes := effect.pushes
    inserted := effect.inserted }

variable [DecidableEq Instance]

def setServer (server : Instance) (chat : ChatServer Session) : State Instance Session :=
  { state with servers := Function.update state.servers server chat }

/-- The end of a fast path. -/
def submit (server : Instance) (user : Int) (recentMsgIds : List String) (reply : Option Reply)
    (accepted : Option (Task × Conversation)) : State Instance Session :=
  let chat := state.servers server
  { state.setServer server { chat with
      recentMsgIds, submitted := chat.submitted ++ (accepted.map Prod.fst).toList } with
    conversations := match accepted with
      | none => state.conversations
      | some (task, conversation) => state.conversations.insert task.msgId conversation
    causer := user, reply, pushes := [], inserted := none }

def submitText (settings : Settings) (server : Instance) (user : Int) (device : String) (frame : Json)
    (arrival : Arrival) (handler : Handler) : State Instance Session :=
  let path := handler.handle settings.config.moderation (state.servers server).recentMsgIds frame user arrival
  state.submit server user path.recentMsgIds path.reply (path.task.map fun task =>
    (.text task ((frame.valueString "replyTo" "").getD "") device, textConversation task))

def submitFile (server : Instance) (user : Int) (frame : Json) (arrival : Arrival) : State Instance Session :=
  let path := handleFileMessage frame user arrival
  state.submit server user (state.servers server).recentMsgIds path.1 (path.2.map fun task =>
    (.file task, fileConversation frame task))

/-- The message handler of an instance. -/
def handleMessage (settings : Settings) (server : Instance) (user : Int) (session : Session)
    (device : String) (frame : Json) (arrival : Arrival) (answers : Answers) (isOpen : Session → Bool) :
    State Instance Session :=
  match (frame.valueString "type" "").map messageType with
  | none => state.quiet user
  | some type =>
      if user ≤ 0 then { state.quiet user with reply := some (.error "not authenticated") }
      else match type with
      | .msg => state.submitText settings server user device frame arrival .privateMessage
      | .groupMsg => state.submitText settings server user device frame arrival .groupMessage
      | .fileMsg => state.submitFile server user frame arrival
      | .edit => state.settle user
          (handleEdit state.managers isOpen server user session state.records state.unread frame arrival.now answers)
      | .reaction => state.settle user
          (handleReaction state.managers isOpen server user session settings.weightString state.records state.unread
            frame answers)
      | .other => state.quiet user
      | .unknown => { state.quiet user with reply := some (.error "unknown message type") }

end State

variable {Instance Session : Type} [DecidableEq Instance]

def Task.fromUser : Task → Int
  | .text task _ _ => task.fromUser
  | .file task => task.fromUserId

def step (settings : Settings) (state : State Instance Session) :
    Event Instance Session → Option (State Instance Session)
  | .message server user session device frame arrival answers isOpen =>
      -- server ids come from Snowflake, which never issues one twice
      if (state.conversations.lookup arrival.msgId).isSome then none
      else some (state.handleMessage settings server user session device frame arrival answers isOpen)
  | .work server msgId outcome isOpen =>
      let chat := state.servers server
      match chat.submitted.find? (fun task => task.msgId = msgId) with
      | none => none
      | some task =>
          let effect := task.work state.managers isOpen settings server outcome state.records state.unread
          some ((state.setServer server { chat with
            submitted := chat.submitted.filter (fun other => other.msgId ≠ msgId) }).settle task.fromUser effect)
  -- a row of the outbox may be relayed at any time and more than once
  | .pushCommand server message isOpen =>
      if message ∈ state.records.outbox then
        some (state.settle message.fromUser
          (deliverCommand state.managers isOpen server state.records state.unread message))
      else none
  | .recallMessage outcome msgId user now =>
      let records := state.records.flushed outcome
      some { state.quiet user with
        records := { records with
          recalled := (recallMessage records.store.tables records.recalled msgId user now).2 } }
  | .flush outcome => some { state.quiet 0 with records := state.records.flushed outcome }
  | .connect server user device session =>
      let chat := state.servers server
      if 0 < user then
        some ((state.setServer server { chat with
          onlineManager := (chat.onlineManager.addDevice user device session).1 }).quiet user)
      else none
  | .close server user device =>
      let chat := state.servers server
      some ((state.setServer server { chat with
        onlineManager := (chat.onlineManager.removeDevice user device).1 }).quiet user)
  -- AUTO_INCREMENT counts group ids from 1
  | .members rows =>
      if ∀ row ∈ rows, 0 < row.1 then
        some { state.quiet 0 with records := { state.records with members := rows } }
      else none

def machine (Instance Session : Type) [DecidableEq Instance] (settings : Settings) :
    Machine (State Instance Session) (Event Instance Session) := ⟨step settings⟩

end MuduoIm.Server.Conversations
