import MuduoIm.Data.Text
import MuduoIm.Server.FriendService
import MuduoIm.Server.MessageHandlers
import MuduoIm.Server.OutboxService.Payload
import MuduoIm.Server.Transactions
import MuduoIm.Tools.MessageRows

namespace MuduoIm.Server.Persistence

open MuduoIm.Data MuduoIm.Data.Text MuduoIm.Transition
open MuduoIm.Server.FriendService (Answers CommitAnswer)
open MuduoIm.Tools (Kind)

/-! # The ways of a message into its table

The outbox transaction, the readers of the Redis queue, the save without Redis
and the consumer of `im.messages` each write the row of an accepted message.
The tables have all columns that an edit or a recall changes; both name the
message by the id that its row has.
-/

/-- A row of a message table; `target` is `to_user` or `group_id`. -/
structure Row where
  msgId : String
  fromUser : Int
  target : Int
  content : String
  timestamp : Int
  mentions : Option String := none
  editedAt : Option Int := none
  originalBody : Option String := none
  recalled : Bool := false
deriving DecidableEq, Repr

abbrev Tables := Kind → List Row

def kindOf : QueueItem → Kind
  | .privateMessage _ => .privateChat
  | .groupMessage _ => .group

def rowOf : QueueItem → Row
  | .privateMessage message =>
      { msgId := message.msgId, fromUser := message.fromUser, target := message.toUser
        content := message.content, timestamp := message.timestamp }
  | .groupMessage message =>
      { msgId := message.msgId, fromUser := message.fromUser, target := message.groupId
        content := message.content, timestamp := message.timestamp, mentions := message.mentions }

/-! ## Statements -/

/-- The key of `msg_id` refuses a second row. -/
def insert (kind : Kind) (row : Row) (tables : Tables) : Option Tables :=
  if ∀ other ∈ tables kind, other.msgId ≠ row.msgId then
    some fun other => if other = kind then tables kind ++ [row] else tables other
  else none

/-- `ON DUPLICATE KEY UPDATE id=id`. -/
def insertOrKeep (kind : Kind) (row : Row) (tables : Tables) : Tables := (insert kind row tables).getD tables

/-- An UPDATE of the rows that `selected` selects. -/
def modify (kind : Kind) (selected : Row → Bool) (change : Row → Row) (tables : Tables) : Tables :=
  fun other => if other = kind then (tables kind).map fun row => if selected row then change row else row
    else tables other

/-! ## The texts -/

/-- The object that `queueMessage` gets. -/
def queueItem : QueueItem → Json
  | .privateMessage message => .object [("_type", .string "private"), ("msgId", .string message.msgId),
      ("from", .integer message.fromUser), ("to", .integer message.toUser),
      ("content", .string message.content), ("timestamp", .integer message.timestamp)]
  | .groupMessage message => .object ([("_type", .string "group"), ("msgId", .string message.msgId),
      ("groupId", .integer message.groupId), ("from", .integer message.fromUser),
      ("content", .string message.content), ("timestamp", .integer message.timestamp)] ++
        message.mentions.toList.map fun mentions => ("mentions", .string mentions))

/-- A value of `im.messages`.  Nothing under `src` publishes group messages; the
members are those that `persistGroup` reads. -/
def record : QueueItem → Json
  | .privateMessage message => OutboxService.kafkaPayload message
  | .groupMessage message => .object ([("type", .string "group"), ("msgId", .string message.msgId),
      ("groupId", .integer message.groupId), ("from", .integer message.fromUser),
      ("content", .string message.content), ("timestamp", .integer message.timestamp)] ++
        message.mentions.toList.map fun mentions => ("mentions", .string mentions))

/-- `CASE WHEN ? = '' THEN NULL ELSE …`. -/
def mentionsOrNull (mentions : String) : Option String := if mentions = "" then none else some mentions

def readPrivate (json : Json) : Option Row := do
  let msgId ← json.valueString "msgId" ""
  let fromUser ← json.valueInt "from" 0
  let target ← json.valueInt "to" 0
  let content ← json.valueString "content" ""
  let timestamp ← json.valueInt "timestamp" 0
  return { msgId, fromUser, target, content, timestamp }

def readGroup (json : Json) : Option Row := do
  let msgId ← json.valueString "msgId" ""
  let target ← json.valueInt "groupId" 0
  let fromUser ← json.valueInt "from" 0
  let content ← json.valueString "content" ""
  let timestamp ← json.valueInt "timestamp" 0
  let mentions ← json.valueString "mentions" ""
  return { msgId, fromUser, target, content, timestamp, mentions := mentionsOrNull mentions }

/-- The row that a reader saves, by the member `typeKey`; `none` also when a
read throws. -/
def readRow (typeKey : String) (json : Json) : Option (Kind × Row) := do
  let type ← json.valueString typeKey ""
  if type = "private" then
    let row ← readPrivate json
    return (.privateChat, row)
  else if type = "group" then
    let row ← readGroup json
    return (.group, row)
  else none

def readText (codec : JsonCodec) (typeKey text : String) : Option (Kind × Row) :=
  match codec.parse text with
  | .error _ => none
  | .ok json => readRow typeKey json

/-! ## The writers -/

inductive Writer where
  | outbox
  | flushMessageQueue
  | directSaveMessage
  | withoutRedis
  | persister
deriving DecidableEq, Repr

/-- `executed` covers the connection and the INSERT into the message table,
`outboxRow` and `commit` the rest of the outbox transaction. -/
structure WriteAnswers where
  executed : Bool := true
  outboxRow : Bool := true
  commit : CommitAnswer := .committed
deriving DecidableEq, Repr

variable (codec : JsonCodec)

/-- An INSERT outside a transaction: whether it succeeds, and what it leaves. -/
def save (executed : Bool) (kind : Kind) (row : Row) (tables : Tables) : Bool × Tables :=
  match if executed then insert kind row tables else none with
  | none => (false, tables)
  | some inserted => (true, inserted)

def outboxTransaction (answers : WriteAnswers) (message : PrivateMessage) (tables : Tables) : Bool × Tables :=
  let (savedRow, inserted) := save answers.executed .privateChat (rowOf (.privateMessage message)) tables
  if savedRow && answers.outboxRow then
    match answers.commit with
    | .committed => (true, inserted)
    | .lost => (false, inserted)
    | .refused => (false, tables)
  else (false, tables)

/-- What the two readers of a queue text do with it. -/
def saveText (executed : Bool) (text : String) (tables : Tables) : Bool × Tables :=
  match readText codec "_type" text with
  | none => (false, tables)
  | some (kind, row) => save executed kind row tables

/-- `persistPrivate` and `persistGroup`. -/
def persist (executed : Bool) (text : String) (tables : Tables) : Bool × Tables :=
  match readText codec "type" text with
  | none => (false, tables)
  | some (kind, row) => if executed then (true, insertOrKeep kind row tables) else (false, tables)

/-- A group message has no outbox row. -/
def write (writer : Writer) (answers : WriteAnswers) (item : QueueItem) (tables : Tables) : Bool × Tables :=
  match writer, item with
  | .outbox, .privateMessage message => outboxTransaction answers message tables
  | .outbox, .groupMessage _ => (false, tables)
  | .flushMessageQueue, item => saveText codec answers.executed (codec.dump (queueItem item)) tables
  | .directSaveMessage, item => saveText codec answers.executed (codec.dump (queueItem item)) tables
  | .withoutRedis, item => save answers.executed (kindOf item) (rowOf item) tables
  | .persister, item => persist codec answers.executed (codec.dump (record item)) tables

/-! ## Edits and recalls -/

/-- The UPDATE of an edit; `row` is what the SELECT has found, with its texts
read as `char*`. -/
def updateContent (row : Row) (msgId : String) (editorId : Int) (newBody : String) (kind : Kind) (now : Int)
    (tables : Tables) : Tables :=
  modify kind (fun other => other.msgId = msgId ∧ other.fromUser = editorId ∧ other.recalled = false)
    (fun other => { other with
      content := newBody
      editedAt := some now
      -- the first edit keeps the old content; NULL and an empty text are the same here
      originalBody := if cString (row.originalBody.getD "") = "" then some (cString row.content)
        else other.originalBody })
    tables

/-- `executed` answers the UPDATE and the INSERT into `message_edits`. -/
def editMessage (msgId : String) (editorId : Int) (newBody : String) (kind : Kind) (now : Int) (answers : Answers)
    (tables : Tables) : Bool × Tables :=
  if !answers.connected then (false, tables)
  else if !answers.active then (false, tables)
  else
    match if answers.selected then (tables kind).find? (fun row => row.msgId = msgId) else none with
    | none => (false, tables)
    | some row =>
        if row.fromUser ≠ editorId then (false, tables)
        else if row.recalled then (false, tables)
        else if row.timestamp < now - Transactions.editWindowMs then (false, tables)
        else
          let edited := updateContent row msgId editorId newBody kind now tables
          if !answers.executed 0 || edited kind = tables kind then (false, tables)
          else if !answers.executed 1 then (false, tables)
          else
            match answers.commit with
            | .committed => (true, edited)
            | .lost => (false, edited)
            | .refused => (false, tables)

/-- One of the two UPDATEs of `recallMessage`: whether it affects a row. -/
def markRecalled (kind : Kind) (msgId : String) (fromUserId twoMinAgo : Int) (executed : Bool) (tables : Tables) :
    Bool × Tables :=
  let selected (row : Row) : Bool :=
    row.msgId = msgId ∧ row.fromUser = fromUserId ∧ twoMinAgo < row.timestamp ∧ row.recalled = false
  if executed && (tables kind).any selected then
    (true, modify kind selected (fun row => { row with recalled := true }) tables)
  else (false, tables)

def recallMessage (msgId : String) (fromUserId now : Int) (connected : Bool) (executed : Kind → Bool)
    (tables : Tables) : Bool × Tables :=
  if !connected then (false, tables)
  else
    let twoMinAgo := now - 120000
    match markRecalled .privateChat msgId fromUserId twoMinAgo (executed .privateChat) tables with
    | (true, marked) => (true, marked)
    | (false, tables) => markRecalled .group msgId fromUserId twoMinAgo (executed .group) tables

/-! ## The machine of one message -/

/-- `written` is history: whether an attempt has reported success. -/
structure State where
  tables : Tables
  written : Bool := false

inductive Event where
  | write (writer : Writer) (answers : WriteAnswers)
  | edit (msgId : String) (editorId : Int) (newBody : String) (kind : Kind) (now : Int) (answers : Answers)
  | recall (msgId : String) (fromUserId now : Int) (connected : Bool) (executed : Kind → Bool)

def step (item : QueueItem) (state : State) : Event → State
  | .write writer answers =>
      let (ok, tables) := write codec writer answers item state.tables
      { tables, written := state.written || ok }
  | .edit msgId editorId newBody kind now answers =>
      { state with tables := (editMessage msgId editorId newBody kind now answers state.tables).2 }
  | .recall msgId fromUserId now connected executed =>
      { state with tables := (recallMessage msgId fromUserId now connected executed state.tables).2 }

def machine (item : QueueItem) : Machine State Event where
  step state event := some (step codec item state event)

end MuduoIm.Server.Persistence
