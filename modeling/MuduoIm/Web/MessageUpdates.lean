import MuduoIm.Data.FirstMatch
import MuduoIm.Data.Json
import MuduoIm.Web.MessageOrder

namespace MuduoIm.Web.MessageUpdates

open MuduoIm.Data MuduoIm.Data.FirstMatch
open MuduoIm.Web.MessageCache (Key isSnow)

/-! # Frames about the messages on the page

Messages of others are inserted into the arrays of the cache when they arrive.
The frames that follow look for a message by its id in every array, and change
the first that they find there.
-/

/-- The members of a message besides its id and its timestamp. -/
structure Body where
  fromId : ℤ
  toId : ℤ
  content : String := ""
  replyTo : Option String := none
  fileUrl : Option String := none
  filename : Option String := none
  fileSize : Option ℤ := none
  mention : Bool := false
  mentions : Option (List String) := none
  editedAt : Option ℤ := none
  recalled : Bool := false
  reactions : Option Json := none
  deliveredAt : Option ℤ := none
  deliveredCount : Option ℤ := none
  read : Bool := false

abbrev Message := MessageOrder.Message Body

structure Client where
  userId : ℤ
  messageCache : Table Key (List Message) := ∅

def Client.messages (client : Client) (key : Key) : List Message := (client.messageCache.lookup key).getD []

/-- The array is made before anything else. -/
def Client.insert (client : Client) (key : Key) (msg : Message) : Client :=
  { client with
    messageCache := client.messageCache.insert key
      (MessageOrder.insertMessageSorted (client.messages key) msg).1 }

def Client.touch (client : Client) (key : Key) : Client :=
  { client with messageCache := client.messageCache.insert key (client.messages key) }

def hasId (msgId : String) (message : Message) : Bool := decide (message.msgId = some msgId)

def onBody (change : Body → Body) (message : Message) : Message := { message with rest := change message.rest }

/-- The loop over all arrays, which leaves each at the first match. -/
def Client.update (client : Client) (msgId : String) (change : Body → Body) : Client :=
  { client with
    messageCache := client.messageCache.mapValues (updateFirst (hasId msgId) (onBody change)) }

def recalledText : String := "[消息已撤回]"

def fileText : String := "文件"

/-- The frames that concern messages, with the fields that the page reads.  An
absent `groupId` is 0. -/
inductive Frame where
  | msg (msgId : String) (fromId toId : ℤ) (content : String) (replyTo : Option String) (timestamp : ℤ)
  | groupMsg (msgId : String) (fromId toId : ℤ) (content : String) (replyTo : Option String) (timestamp : ℤ)
      (mention : Bool) (mentions : Option (List String))
  | fileMsg (msgId : String) (fromId toId groupId : ℤ) (filename url : String) (fileSize timestamp : ℤ)
  | ack (clientMsgId msgId : String)
  | delivered (msgId : String) (deliveredAt deliveredCount : ℤ)
  | reactionUpdate (msgId : String) (reactions : Json)
  | edit (msgId newBody : String) (editedAt : ℤ)
  | recall (msgId : String)
  | readAck (fromId : ℤ) (lastMsgId : String)

def rename (tmpId realId : String) (message : Message) : Message :=
  { message with
    msgId := if message.msgId = some tmpId then some realId else message.msgId
    rest := { message.rest with
      replyTo := if message.rest.replyTo = some tmpId then some realId else message.rest.replyTo } }

def markRead (userId : ℤ) (message : Message) : Message :=
  if message.rest.fromId = userId then onBody (fun body => { body with read := true }) message else message

/-- The loop of `read_ack`, with whether it has found the id. -/
def markUntil (userId : ℤ) (lastMsgId : String) : List Message → List Message × Bool
  | [] => ([], false)
  | message :: rest =>
      if hasId lastMsgId message then (markRead userId message :: rest, true)
      else
        let (marked, found) := markUntil userId lastMsgId rest
        (markRead userId message :: marked, found)

def handleReadAck (userId : ℤ) (lastMsgId : String) (messages : List Message) : List Message :=
  let (marked, found) := markUntil userId lastMsgId messages
  if found then marked else marked.map (markRead userId)

/-- `handleWsMessage` for these frames; `now` is the clock of the page. -/
def Client.handle (client : Client) (now : ℤ) : Frame → Client
  | .msg msgId fromId toId content replyTo timestamp =>
      client.insert (.friend fromId)
        { msgId := some msgId, timestamp := some (Number.ofInt timestamp), rest := { fromId, toId, content, replyTo } }
  | .groupMsg msgId fromId toId content replyTo timestamp mention mentions =>
      if fromId = client.userId then client.touch (.group toId)
      else
        client.insert (.group toId)
          { msgId := some msgId, timestamp := some (Number.ofInt timestamp)
            rest := { fromId, toId, content, replyTo, mention, mentions } }
  | .fileMsg msgId fromId toId groupId filename url fileSize timestamp =>
      let key := if groupId = 0 then Key.friend fromId else Key.group groupId
      if fromId = client.userId then client.touch key
      else
        client.insert key
          { msgId := some msgId, timestamp := some (Number.ofInt timestamp)
            rest := { fromId, toId, content := if filename = "" then fileText else filename, fileUrl := some url,
                      filename := some filename, fileSize := some fileSize } }
  | .ack clientMsgId msgId =>
      if clientMsgId ≠ "" ∧ msgId ≠ "" ∧ clientMsgId ≠ msgId then
        { client with messageCache := client.messageCache.mapValues (List.map (rename clientMsgId msgId)) }
      else client
  | .delivered msgId deliveredAt deliveredCount =>
      client.update msgId fun body =>
        { body with
          deliveredAt := some deliveredAt
          deliveredCount := some (if deliveredCount = 0 then 1 else deliveredCount) }
  | .reactionUpdate msgId reactions => client.update msgId fun body => { body with reactions := some reactions }
  | .edit msgId newBody editedAt =>
      client.update msgId fun body =>
        { body with content := newBody, editedAt := some (if editedAt = 0 then now else editedAt) }
  | .recall msgId =>
      client.update msgId fun body => { body with recalled := true, content := recalledText, fileUrl := none }
  | .readAck fromId lastMsgId =>
      if Key.friend fromId ∈ client.messageCache then
        { client with
          messageCache := client.messageCache.insert (.friend fromId)
            (handleReadAck client.userId lastMsgId (client.messages (.friend fromId))) }
      else client

/-- What `sendMessage` and `uploadFile` enter. -/
def Client.send (client : Client) (chat : Key) (msgId : String) (timestamp : ℤ) (body : Body) : Client :=
  client.insert chat { msgId := some msgId, timestamp := some (Number.ofInt timestamp), rest := body }

/-! ## What is shown of a message -/

/-- The members that frames about somebody else's message change. -/
structure Shown where
  content : String
  fileUrl : Option String := none
  editedAt : Option ℤ := none
  recalled : Bool := false
  reactions : Option Json := none

def Body.shown (body : Body) : Shown where
  content := body.content
  fileUrl := body.fileUrl
  editedAt := body.editedAt
  recalled := body.recalled
  reactions := body.reactions

def Client.view (client : Client) (key : Key) (msgId : String) : Option Shown :=
  ((client.messages key).find? (hasId msgId)).map (fun message => message.rest.shown)

/-- The message that a frame brings to a page of this user, with its array. -/
def Frame.brings (userId : ℤ) : Frame → Option (Key × String × Shown)
  | .msg msgId fromId _ content _ _ => some (.friend fromId, msgId, { content })
  | .groupMsg msgId fromId toId content _ _ _ _ =>
      if fromId = userId then none else some (.group toId, msgId, { content })
  | .fileMsg msgId fromId _ groupId filename url _ _ =>
      if fromId = userId then none
      else some (if groupId = 0 then .friend fromId else .group groupId, msgId,
        { content := if filename = "" then fileText else filename, fileUrl := some url })
  | _ => none

/-- What a frame changes on the message that it names. -/
def Frame.changes (now : ℤ) : Frame → Option (String × (Shown → Shown))
  | .reactionUpdate msgId reactions => some (msgId, fun shown => { shown with reactions := some reactions })
  | .edit msgId newBody editedAt => some (msgId, fun shown =>
      { shown with content := newBody, editedAt := some (if editedAt = 0 then now else editedAt) })
  | .recall msgId => some (msgId, fun shown =>
      { shown with recalled := true, content := recalledText, fileUrl := none })
  | _ => none

/-- The abstract page: what is shown under a key and an id, as a register of its
own that a frame sets once and changes afterwards. -/
def Frame.shownStep (userId now : ℤ) (key : Key) (msgId : String) (shown : Option Shown) (frame : Frame) :
    Option Shown :=
  match frame.brings userId, frame.changes now with
  | some (target, id, initial), _ => if target = key ∧ id = msgId then shown.or (some initial) else shown
  | none, some (id, change) => if id = msgId then shown.map change else shown
  | none, none => shown

end MuduoIm.Web.MessageUpdates
