import Mathlib.Data.List.DropRight
import MuduoIm.Data.Table
import MuduoIm.Transition.Machine

namespace MuduoIm.Web.MessageCache

open MuduoIm.Data MuduoIm.Transition

/-! # The message cache of the web client

The page keeps one array of messages for each conversation.  Messages that are
sent or received are inserted in the order of `cmpByMsgId`; an ack replaces ids
in place, and a page of older messages is put in front of its array.
-/

/-- The keys `friend_…` and `group_…` of `messageCache`. -/
inductive Key where
  | friend (id : ℤ)
  | group (id : ℤ)
deriving DecidableEq, Repr

/-- An absent `timestamp` is 0, and an absent `msgId` is empty: both are falsy.
`inGroup` is no member of the object; it records where the message was sent. -/
structure Message where
  msgId : String
  fromId : ℤ
  toId : ℤ
  content : String := ""
  replyTo : Option String := none
  timestamp : ℤ := 0
  inGroup : Bool
deriving DecidableEq, Repr

/-- `/^\d+$/` -/
def isSnow (msgId : String) : Bool := msgId ≠ "" && msgId.toList.all Char.isDigit

def cmpByMsgId (a b : Message) : ℤ :=
  if isSnow a.msgId && isSnow b.msgId then
    if a.msgId.length ≠ b.msgId.length then a.msgId.length - b.msgId.length
    else if a.msgId < b.msgId then -1
    else if b.msgId < a.msgId then 1
    else 0
  else if isSnow a.msgId then -1
  else if isSnow b.msgId then 1
  else a.timestamp - b.timestamp

/-- The new array and the place of the message in it. -/
def insertMessageSorted (arr : List Message) (msg : Message) : List Message × ℕ :=
  if arr.getLast?.all (fun last => cmpByMsgId last msg ≤ 0) then (arr ++ [msg], arr.length)
  else
    let kept := arr.rdropWhile (fun other => 0 < cmpByMsgId other msg)
    (kept ++ msg :: arr.rtakeWhile (fun other => 0 < cmpByMsgId other msg), kept.length)

/-- `loading` is the conversation whose older messages have been asked for,
with the `before` of the request. -/
structure Client where
  userId : ℤ
  messageCache : Table Key (List Message) := ∅
  historyFullyLoaded : List Key := []
  loading : Option (Key × ℤ) := none

def Client.messages (client : Client) (key : Key) : List Message :=
  (client.messageCache.lookup key).getD []

def Client.insert (client : Client) (key : Key) (msg : Message) : Client :=
  { client with
    messageCache := client.messageCache.insert key (insertMessageSorted (client.messages key) msg).1 }

/-- The message that `sendMessage` enters for the conversation on the screen. -/
def localMsg (userId : ℤ) (chat : Key) (msgId content : String) (replyTo : Option String)
    (now : ℤ) : Message :=
  match chat with
  | .friend id => { msgId, fromId := userId, toId := id, content, replyTo, timestamp := now, inGroup := false }
  | .group id => { msgId, fromId := userId, toId := id, content, replyTo, timestamp := now, inGroup := true }

/-- A `msg` or `group_msg` frame. -/
structure Frame where
  msgId : String
  fromId : ℤ
  toId : ℤ
  content : String := ""
  replyTo : Option String := none
  timestamp : ℤ := 0
deriving DecidableEq

def Frame.message (data : Frame) (inGroup : Bool) : Message where
  msgId := data.msgId
  fromId := data.fromId
  toId := data.toId
  content := data.content
  replyTo := data.replyTo
  timestamp := data.timestamp
  inGroup := inGroup

def Client.handleMsg (client : Client) (data : Frame) : Client :=
  client.insert (.friend data.fromId) (data.message false)

/-- The array is made before own messages are skipped. -/
def Client.handleGroupMsg (client : Client) (data : Frame) : Client :=
  let key := Key.group data.toId
  if data.fromId = client.userId then
    { client with messageCache := client.messageCache.insert key (client.messages key) }
  else client.insert key (data.message true)

/-- What an ack does to one message. -/
def Message.rename (tmpId realId : String) (msg : Message) : Message :=
  { msg with
    msgId := if msg.msgId = tmpId then realId else msg.msgId
    replyTo := if msg.replyTo = some tmpId then some realId else msg.replyTo }

def Client.handleAck (client : Client) (clientMsgId msgId : String) : Client :=
  if clientMsgId ≠ "" ∧ msgId ≠ "" ∧ clientMsgId ≠ msgId then
    { client with
      messageCache := client.messageCache.mapValues (List.map (Message.rename clientMsgId msgId)) }
  else client

/-- `onChatScroll` up to its request. -/
def Client.onChatScroll (client : Client) (chat : Key) : Client :=
  if client.loading.isSome ∨ chat ∈ client.historyFullyLoaded then client
  else
    match client.messages chat with
    | [] => client
    | oldest :: _ =>
        if oldest.timestamp = 0 then client
        else { client with loading := some (chat, oldest.timestamp) }

/-- The answer to the request: the array has been changed in place meanwhile. -/
def Client.prepend (client : Client) (key : Key) (parsed : List Message) : Client :=
  if parsed = [] then
    { client with loading := none, historyFullyLoaded := key :: client.historyFullyLoaded }
  else
    { client with
      loading := none
      messageCache := client.messageCache.insert key (parsed ++ client.messages key)
      historyFullyLoaded :=
        if parsed.length < 20 then key :: client.historyFullyLoaded else client.historyFullyLoaded }

/-- `chat` is the conversation on the screen when the user acts. -/
inductive Event where
  | send (chat : Key) (msgId content : String) (replyTo : Option String) (now : ℤ)
  | msg (data : Frame)
  | groupMsg (data : Frame)
  | ack (clientMsgId msgId : String)
  | scroll (chat : Key)
  | page (parsed : List Message)
  | pageFails

def step (client : Client) : Event → Option Client
  | .send chat msgId content replyTo now =>
      if content = "" then none
      else some (client.insert chat (localMsg client.userId chat msgId content replyTo now))
  | .msg data => some (client.handleMsg data)
  | .groupMsg data => some (client.handleGroupMsg data)
  | .ack clientMsgId msgId => some (client.handleAck clientMsgId msgId)
  | .scroll chat => some (client.onChatScroll chat)
  | .page parsed => client.loading.map (fun request => client.prepend request.1 parsed)
  | .pageFails => client.loading.map (fun _ => { client with loading := none })

def machine : Machine Client Event := ⟨step⟩

end MuduoIm.Web.MessageCache
