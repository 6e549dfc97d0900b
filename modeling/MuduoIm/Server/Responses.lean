import MuduoIm.Server.FriendService
import MuduoIm.Server.MessageQueries
import MuduoIm.Server.Transactions
import MuduoIm.Tools.ArchiveQuery
import MuduoIm.Tools.ArchiveWorker.Copies
import MuduoIm.Tools.EsSyncWorker.NoSkip

namespace MuduoIm.Server.Responses

open MuduoIm.Data MuduoIm.Transition MuduoIm.Tools
open MuduoIm.Data.Text (cString)
open MuduoIm.Server.FriendService (Answers CommitAnswer)
open MuduoIm.Tools.ArchiveQuery (Conversation)
open MuduoIm.Tools.EsSyncWorker (Document)

/-! # Searching and reading messages while they change

A search goes to Elasticsearch, and to MySQL if that fails.  A history is read
from MySQL and filled up from the archive.  Meanwhile messages are saved, edited
and recalled in MySQL, by the ids that their rows have, and the two workers copy
rows.  A call that writes, a query and the answer of another server are one step
each.
-/

/-- What a message says. -/
structure Text where
  kind : Kind
  msgId : String
  content : String
deriving DecidableEq, Repr

/-- An element of an answer; `kind` is its `chatType`. -/
structure Entry where
  kind : Kind
  message : ArchiveQuery.Message
  archived : Bool := false
deriving DecidableEq, Repr

structure Response where
  success : Bool := true
  message : String := ""
  source : Option String := none
  messages : List Entry := []
deriving DecidableEq, Repr

def Entry.text (entry : Entry) : Text := ⟨entry.kind, entry.message.msgId, entry.message.content⟩

def rowText (kind : Kind) (row : Row) : Text := ⟨kind, row.msgId, row.content⟩

/-- The text of a row as the server reads it, which takes the column for a
`char*`. -/
def shownText (kind : Kind) (row : Row) : Text := ⟨kind, row.msgId, cString row.content⟩

def documentText (doc : Document) : Text := ⟨doc.msgKind, doc.msgId, doc.body⟩

def rowEntry (kind : Kind) (row : Row) : Entry :=
  ⟨kind, { ArchiveQuery.message row with content := cString row.content }, false⟩

def documentEntry (doc : Document) : Entry :=
  ⟨doc.msgKind, ⟨doc.msgId, doc.senderId, doc.recipient, doc.body, doc.createdAt⟩, false⟩

/-- What the processes are started with.  `like` is the match of a content
against an escaped keyword in MySQL, `analyzed` that of a body in
Elasticsearch. -/
structure Config where
  batch : Nat
  calendar : ArchiveWorker.Calendar
  esClient : Bool
  archiveQueryHost : Bool
  like : String → String → Bool
  analyzed : String → String → Bool

/-! ## The queries -/

section

variable (config : Config) (tables : Tools.Tables)

/-- The query of both histories. -/
def selectHistory (conversation : Conversation) (limit : Nat) (before : Int) : List Entry :=
  (page (fun row => conversation.contains row && MessageQueries.Row.listed before row.timestamp row.recalled)
    Row.timestamp limit (tables conversation.kind)).map (rowEntry conversation.kind)

def getPrivateHistory (userId peerId : Int) : Nat → Int → List Entry :=
  selectHistory tables (.privateChat userId peerId)

def getGroupHistory (groupId : Int) : Nat → Int → List Entry := selectHistory tables (.group groupId)

def getHistory : Conversation → Nat → Int → List Entry
  | .privateChat userId peerId => getPrivateHistory tables userId peerId
  | .group groupId => getGroupHistory tables groupId

/-- `joined` are the groups of the user. -/
def participates (userId : Int) (joined : Int → Bool) (kind : Kind) (row : Row) : Bool :=
  match kind with
  | .privateChat => decide (row.fromUser = userId) || decide (row.target = userId)
  | .group => joined row.target

/-- One of the two queries of `searchMessages`. -/
def found (userId : Int) (joined : Int → Bool) (keyword : String) (limit : Nat) (kind : Kind) : List Entry :=
  (page (fun row => participates userId joined kind row && config.like keyword row.content && !row.recalled)
    Row.timestamp limit (tables kind)).map (rowEntry kind)

/-- The `_id` of a document is its `msg_id`, so the last one replaces the others. -/
def indexed (accepted : List Document) (msgId : String) : Option Document :=
  accepted.reverse.find? fun doc => doc.msgId = msgId

/-- The filter of the query; `recipient_id` is a field of private messages only. -/
def filtered (userId : Int) (doc : Document) : Bool :=
  decide (doc.senderId = userId) || decide (doc.msgKind = .privateChat ∧ doc.recipient = userId)

/-- What Elasticsearch answers to the query. -/
def Hits (searchable : List Document) (userId : Int) (keyword : String) (hits : List Document) : Prop :=
  hits.length ≤ 50 ∧ hits.Pairwise (fun first second => second.createdAt ≤ first.createdAt) ∧
    ∀ doc ∈ hits, indexed searchable doc.msgId = some doc ∧
      config.analyzed keyword doc.body = true ∧ filtered userId doc = true

instance (searchable : List Document) (userId : Int) (keyword : String) (hits : List Document) :
    Decidable (Hits config searchable userId keyword hits) := by
  unfold Hits
  infer_instance

end

/-! ## The rows as JSON

The queries are those of `MessageQueries` on tables without the columns that
the workers do not read.
-/

def historyJson (entry : Entry) : Json :=
  .object ([("content", .string entry.message.content), ("from", .integer entry.message.fromUser),
    ("msgId", .string entry.message.msgId), ("timestamp", .integer entry.message.timestamp)] ++
    match entry.kind with
    | .privateChat => [("to", .integer entry.message.target)]
    | .group => [])

def searchJson (entry : Entry) : Json :=
  match entry.kind with
  | .privateChat => .object [
      ("chatType", .string "private"), ("content", .string entry.message.content),
      ("from", .integer entry.message.fromUser), ("msgId", .string entry.message.msgId),
      ("timestamp", .integer entry.message.timestamp), ("to", .integer entry.message.target)]
  | .group => .object [
      ("chatType", .string "group"), ("content", .string entry.message.content),
      ("from", .integer entry.message.fromUser), ("groupId", .integer entry.message.target),
      ("msgId", .string entry.message.msgId), ("timestamp", .integer entry.message.timestamp)]

def privateRow (row : Row) : MessageQueries.Row PrivateMessage :=
  ⟨⟨row.msgId, row.fromUser, row.target, row.content, row.timestamp⟩, row.recalled⟩

def groupRow (mentions : Row → Option String) (row : Row) : MessageQueries.Row GroupMessage :=
  ⟨⟨row.msgId, row.target, row.fromUser, row.content, row.timestamp, mentions row⟩, row.recalled⟩

section

variable {config : Config} {tables : Tools.Tables} {mysql : MessageQueries.MySQL}
variable {database : MessageQueries.Database} {mentions : Row → Option String} {userId peerId groupId before : Int}
variable {keyword : String} {limit : Nat}

theorem getPrivateHistory_json (rows : database.privateMessages = (tables .privateChat).map privateRow) :
    MessageQueries.getPrivateHistory mysql database userId peerId limit before =
      .array (if mysql.connected && mysql.privateResult then
        (getPrivateHistory tables userId peerId limit before).map historyJson else []) := by
  rw [MessageQueries.getPrivateHistory, rows, page_map, List.map_map, getPrivateHistory, selectHistory, List.map_map]
  split <;> rfl

theorem getGroupHistory_json (rows : database.groupMessages = (tables .group).map (groupRow mentions)) :
    MessageQueries.getGroupHistory mysql database groupId limit before =
      .array (if mysql.connected && mysql.groupResult then
        (getGroupHistory tables groupId limit before).map historyJson else []) := by
  rw [MessageQueries.getGroupHistory, rows, page_map, List.map_map, getGroupHistory, selectHistory, List.map_map]
  split <;> rfl

theorem foundPrivate_json (like : mysql.like = config.like) {joined : Int → Bool}
    (rows : database.privateMessages = (tables .privateChat).map privateRow) :
    MessageQueries.foundPrivate mysql database userId keyword limit =
      if mysql.privateResult then (found config tables userId joined keyword limit .privateChat).map searchJson
      else [] := by
  rw [MessageQueries.foundPrivate, rows, page_map, List.map_map, found, List.map_map, like]
  rfl

theorem foundGroup_json (like : mysql.like = config.like)
    (rows : database.groupMessages = (tables .group).map (groupRow mentions)) :
    MessageQueries.foundGroup mysql database userId keyword limit =
      if mysql.groupResult then
        (found config tables userId (fun groupId => (groupId, userId) ∈ database.members) keyword limit .group).map
          searchJson
      else [] := by
  rw [MessageQueries.foundGroup, rows, page_map, List.map_map, found, List.map_map, like]
  rfl

end

/-! ## The handlers -/

/-- How far a handler has come. -/
inductive Phase where
  | searching (userId : Int) (keyword : String)
  | fallback (userId : Int) (keyword : String)
  | foundPrivate (userId : Int) (keyword : String) (messages : List Entry)
  | reading (conversation : Conversation) (before : Int)
  | merging (conversation : Conversation) (before : Int) (messages : List Entry)
  | ready (response : Response)
deriving DecidableEq, Repr

/-- What the handler has gathered. -/
def Phase.messages : Phase → List Entry
  | .foundPrivate _ _ messages => messages
  | .merging _ _ messages => messages
  | .ready response => response.messages
  | _ => []

inductive Reply where
  | elasticsearch (hits : Option (List Document))
  | noConnection
  | mysql (result : Bool) (joined : Int → Bool)
  | archive (answered : Bool)

/-- `searchable` are the documents that the last refresh of the index has made
visible.  The last three fields are history: the messages that
`recallMessage` has returned true for, the texts that an edit that returned true
has replaced and that no edit has put back, and what the last step has sent. -/
structure State (Call : Type) where
  archive : ArchiveQuery.Server := {}
  index : EsSyncWorker.Worker := {}
  searchable : List Document := []
  calls : Call → Option Phase := fun _ => none
  recalled : List (Kind × String) := []
  superseded : List Text := []
  response : Option Response := none

/-- `main.cpp` names one MySQL host, so reads see what is committed. -/
def State.tables {Call : Type} (state : State Call) : Tools.Tables := state.archive.worker.committed.messages

section

variable (config : Config)

def handleSearchMessages (userId : Int) (keyword : String) : Phase :=
  if keyword.utf8ByteSize < 2 then .ready { success := false, message := "keyword too short" }
  else if config.esClient then .searching userId keyword
  else .fallback userId keyword

def handleGetMessageHistory (userId : Int) (peerId groupId before : String) : Phase :=
  .reading
    (if 0 < MessageQueries.parameter groupId then .group (MessageQueries.parameter groupId)
      else .privateChat userId (MessageQueries.parameter peerId))
    (MessageQueries.parameter before)

/-- After MySQL the archive is asked for what is missing. -/
def afterHistory (conversation : Conversation) (before : Int) (messages : List Entry) : Phase :=
  if config.archiveQueryHost ∧ messages.length < 50 then .merging conversation before messages
  else .ready { messages }

/-- The cursor of the archive query: the timestamp of the oldest message found. -/
def archBefore (before : Int) (messages : List Entry) : Int :=
  let cursor := if 0 < before then before else 9999999999999
  match messages.getLast? with
  | none => cursor
  | some last =>
      if 0 < last.message.timestamp ∧ last.message.timestamp < cursor then last.message.timestamp else cursor

def queryArchive (archive : ArchiveQuery.Server) (conversation : Conversation) (before : Int)
    (messages : List Entry) : List Entry :=
  (ArchiveQuery.queryHistory archive.worker archive.cache conversation (archBefore before messages)
    (50 - messages.length)).1.map fun message => ⟨conversation.kind, message, true⟩

/-- What a handler does with an answer. -/
def receive {Call : Type} (state : State Call) : Phase → Reply → Option Phase
  | .searching userId keyword, .elasticsearch (some hits) =>
      if Hits config state.searchable userId keyword hits then
        some (.ready { source := some "elasticsearch", messages := hits.map documentEntry })
      else none
  | .searching userId keyword, .elasticsearch none => some (.fallback userId keyword)
  | .fallback _ _, .noConnection =>
      some (.ready { success := false, message := "db error", source := some "mysql" })
  | .fallback userId keyword, .mysql result joined =>
      some (.foundPrivate userId keyword
        (if result then found config state.tables userId joined keyword 50 .privateChat else []))
  | .foundPrivate userId keyword messages, .mysql result joined =>
      some (.ready {
        source := some "mysql"
        messages := messages ++ if result then found config state.tables userId joined keyword 50 .group else [] })
  | .reading conversation before, .noConnection => some (afterHistory config conversation before [])
  | .reading conversation before, .mysql result _ =>
      some (afterHistory config conversation before
        (if result then getHistory state.tables conversation 50 before else []))
  | .merging conversation before messages, .archive answered =>
      some (.ready {
        messages := messages ++ if answered then queryArchive state.archive conversation before messages else [] })
  | _, _ => none

/-- A query that is answered has filled the cache of the query server. -/
def queried (archive : ArchiveQuery.Server) : Phase → Reply → ArchiveQuery.Server
  | .merging conversation before messages, .archive true =>
      { archive with cache := (ArchiveQuery.queryHistory archive.worker archive.cache conversation
          (archBefore before messages) (50 - messages.length)).2 }
  | _, _ => archive

/-! ## The writes -/

variable {Call : Type}

/-- A statement on a row of a message table. -/
def write (statement : ArchiveWorker.Event) (state : State Call) : State Call :=
  { state with
    archive := (ArchiveQuery.handle config.calendar state.archive (.worker statement)).getD state.archive }

/-- `WHERE msg_id=… AND from_user=… AND timestamp>… AND recalled=0`. -/
def recallable (msgId : String) (fromUserId twoMinAgo : Int) (row : Row) : Bool :=
  decide (row.msgId = msgId) && decide (row.fromUser = fromUserId) && decide (twoMinAgo < row.timestamp) &&
    !row.recalled

/-- One of the two updates of `recallMessage`: whether it reports a row, and
what it leaves. -/
def markRecalled (kind : Kind) (msgId : String) (fromUserId twoMinAgo : Int) (answer : CommitAnswer)
    (state : State Call) : Bool × State Call :=
  match (state.tables kind).find? (recallable msgId fromUserId twoMinAgo) with
  | none => (false, state)
  | some row =>
      let marked := write config (.update kind row.id row.content true) state
      match answer with
      | .committed => (true, { marked with recalled := (kind, msgId) :: marked.recalled })
      | .lost => (false, marked)
      | .refused => (false, state)

def recallMessage (msgId : String) (fromUserId now : Int) (connected : Bool) (answers : Kind → CommitAnswer)
    (state : State Call) : Bool × State Call :=
  if !connected then (false, state)
  else
    let twoMinAgo := now - 120000
    match markRecalled config .privateChat msgId fromUserId twoMinAgo (answers .privateChat) state with
    | (true, state) => (true, state)
    | (false, state) => markRecalled config .group msgId fromUserId twoMinAgo (answers .group) state

def tableOf (msgKind : Int) : Option Kind :=
  if msgKind = 0 then some .privateChat else if msgKind = 1 then some .group else none

/-- `executed` answers the UPDATE and the INSERT into `message_edits`. -/
def editMessage (msgId : String) (editorId : Int) (newBody : String) (msgKind now : Int) (answers : Answers)
    (state : State Call) : Bool × State Call :=
  match tableOf msgKind with
  | none => (false, state)
  | some kind =>
      if !answers.connected then (false, state)
      else if !answers.active then (false, state)
      else
        let windowStart := now - Transactions.editWindowMs
        match if answers.selected then (state.tables kind).find? (fun row => row.msgId = msgId) else none with
        | none => (false, state)
        | some row =>
            if row.fromUser ≠ editorId then (false, state)
            else if row.recalled then (false, state)
            else if row.timestamp < windowStart then (false, state)
            else if !answers.executed 0 then (false, state)
            else if !answers.executed 1 then (false, state)
            else
              let edited := write config (.update kind row.id newBody false) state
              let current : Text → Bool := fun text => text ≠ ⟨kind, msgId, newBody⟩
              match answers.commit with
              | .committed => (true, { edited with
                  superseded := (⟨kind, msgId, row.content⟩ :: edited.superseded).filter current })
              | .lost => (false, { edited with superseded := edited.superseded.filter current })
              | .refused => (false, state)

end

/-! ## The machine -/

inductive Event (Call : Type) where
  | save (kind : Kind) (row : Row)
  | recallMessage (msgId : String) (fromUserId now : Int) (connected : Bool) (answers : Kind → CommitAnswer)
  | editMessage (msgId : String) (editorId : Int) (newBody : String) (msgKind now : Int) (answers : Answers)
  | sync (operation : EsSyncWorker.Operation)
  | refresh
  | archive (request : ArchiveQuery.Request)
  | request (call : Call) (userId : Int) (request : MessageQueries.Request)
  | reply (call : Call) (reply : Reply)
  | send (call : Call)

variable (config : Config) {Call : Type} [DecidableEq Call]

def advance (state : State Call) : Event Call → Option (State Call)
  | .save kind row =>
      if row.recalled then none
      else (ArchiveQuery.handle config.calendar state.archive (.worker (.insert kind row))).map fun archive =>
        { state with archive }
  | .recallMessage msgId fromUserId now connected answers =>
      some (recallMessage config msgId fromUserId now connected answers state).2
  | .editMessage msgId editorId newBody msgKind now answers =>
      some (editMessage config msgId editorId newBody msgKind now answers state).2
  | .sync operation =>
      (state.index.step config.batch state.tables operation).map fun index => { state with index }
  | .refresh => some { state with searchable := state.index.accepted }
  -- the messages are written by the server only
  | .archive (.worker event) =>
      if event.OfWorker then
        (ArchiveQuery.handle config.calendar state.archive (.worker event)).map fun archive => { state with archive }
      else none
  | .archive request =>
      (ArchiveQuery.handle config.calendar state.archive request).map fun archive => { state with archive }
  | .request call userId request =>
      match state.calls call with
      | some _ => none
      | none =>
          let phase := match request with
            | .search keyword => handleSearchMessages config userId keyword
            | .history peerId groupId before => handleGetMessageHistory userId peerId groupId before
          some { state with calls := Function.update state.calls call (some phase) }
  | .reply call reply =>
      (state.calls call).bind fun phase =>
        (receive config state phase reply).map fun next =>
          { state with
            archive := queried state.archive phase reply
            calls := Function.update state.calls call (some next) }
  | .send call =>
      match state.calls call with
      | some (.ready response) => some { state with
          calls := Function.update state.calls call none
          response := some response }
      | _ => none

def machine : Machine (State Call) (Event Call) where
  step state event := advance config { state with response := none } event

end MuduoIm.Server.Responses
