import MuduoIm.Server.OutboxService.Payload

namespace MuduoIm.PushRouter

open MuduoIm.Data

/-! # From a message to its push commands -/

structure PushOut where
  key : String
  value : Json
deriving Repr

/-- A value of `im.messages`; `none` is a text that is no JSON. -/
abbrev Record := Option Json

/-- `route`; `none` when a field has another type than the one it is read with,
which throws. -/
def route : Record → Option (List PushOut)
  | none => some []
  | some json => do
      let type ← json.valueString "type" ""
      let msgId ← json.valueString "msgId" ""
      let timestamp ← json.valueInt "timestamp" 0
      let content ← json.valueString "content" ""
      if type = "private" then
        let target ← json.valueInt "to" 0
        if target = 0 then return []
        let sender ← json.valueInt "from" 0
        let wsFrame := .object [("msgId", .string msgId), ("timestamp", .integer timestamp),
          ("content", .string content), ("type", .string "msg"),
          ("from", .string (toString sender)), ("to", .string (toString target))]
        let recipients := [target]
        return recipients.map fun uid => {
          key := toString uid
          value := .object [("type", .string "push"), ("targetUid", .string (toString uid)),
            ("payload", wsFrame)] }
      -- group messages do not take this path
      else return []

/-- What a record is to add to `im.push.commands`. -/
def pushCommands (record : Record) : List PushOut := (route record).getD []

open MuduoIm.Server MuduoIm.Server.OutboxService

/-- A value of `int64_t`. -/
def Word (value : Int) : Prop := -2 ^ 63 ≤ value ∧ value < 2 ^ 63

/-- What `handlePrivateMessage` puts into the outbox becomes one command for the
receiver, and the frame in it carries the message. -/
theorem route_kafkaPayload {message : PrivateMessage} (receiver : message.toUser ≠ 0)
    (toUser : Word message.toUser) (fromUser : Word message.fromUser)
    (timestamp : Word message.timestamp) :
    route (some (kafkaPayload message)) = some [{
      key := toString message.toUser
      value := .object [("type", .string "push"), ("targetUid", .string (toString message.toUser)),
        ("payload", .object [("msgId", .string message.msgId), ("timestamp", .integer message.timestamp),
          ("content", .string message.content), ("type", .string "msg"),
          ("from", .string (toString message.fromUser)), ("to", .string (toString message.toUser))])] }] := by
  have readTo : (kafkaPayload message).valueInt "to" 0 = some message.toUser :=
    Json.valueInt_integer rfl toUser.1 toUser.2
  have readFrom : (kafkaPayload message).valueInt "from" 0 = some message.fromUser :=
    Json.valueInt_integer rfl fromUser.1 fromUser.2
  have readTimestamp : (kafkaPayload message).valueInt "timestamp" 0 = some message.timestamp :=
    Json.valueInt_integer rfl timestamp.1 timestamp.2
  have readType : (kafkaPayload message).valueString "type" "" = some "private" := rfl
  have readMsgId : (kafkaPayload message).valueString "msgId" "" = some message.msgId := rfl
  have readContent : (kafkaPayload message).valueString "content" "" = some message.content := rfl
  simp [route, readTo, readFrom, readTimestamp, readType, readMsgId, readContent, receiver]

end MuduoIm.PushRouter
