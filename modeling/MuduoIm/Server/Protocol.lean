import MuduoIm.Data.Json
import MuduoIm.Server.MessageStore

namespace MuduoIm.Server

open MuduoIm.Data

/-! # The frames about messages that a server pushes

A frame is kept apart from its JSON object; what is sent is the dump of the
object.
-/

inductive ConvType where
  | privateChat
  | group
deriving DecidableEq, Repr

def ConvType.text : ConvType → String
  | .privateChat => "private"
  | .group => "group"

inductive Frame where
  | msg (message : PrivateMessage) (replyTo : String)
  | groupMsg (message : GroupMessage) (replyTo : String) (mentions : List Int) (mention : Bool)
  | fileMsg (fromUser toUser : Int) (url filename : String) (fileSize : Int) (msgId : String)
      (timestamp : Int)
  | edit (msgId newBody : String) (editedAt fromUser : Int) (convType : ConvType) (convId : Int)
  | reactionUpdate (msgId : String) (reactions : Json) (convType : ConvType) (convId : Int)

namespace Frame

/-- The message that the frame is about. -/
def msgId : Frame → String
  | .msg message _ => message.msgId
  | .groupMsg message _ _ _ => message.msgId
  | .fileMsg _ _ _ _ _ msgId _ => msgId
  | .edit msgId _ _ _ _ _ => msgId
  | .reactionUpdate msgId _ _ _ => msgId

/-- `replyTo` is set only if there is one. -/
def replyMember (replyTo : String) : List (String × Json) :=
  if replyTo = "" then [] else [("replyTo", .string replyTo)]

/-- The object that is dumped, with its keys in order. -/
def json : Frame → Json
  | .msg message replyTo => .object (
      [("content", .string message.content), ("from", .string (toString message.fromUser)),
        ("msgId", .string message.msgId)] ++ replyMember replyTo ++
      [("timestamp", .integer message.timestamp), ("to", .string (toString message.toUser)),
        ("type", .string "msg")])
  | .groupMsg message replyTo mentions mention => .object (
      [("content", .string message.content), ("from", .string (toString message.fromUser))] ++
      (if mention then [("mention", .boolean true)] else []) ++
      (if mentions = [] then []
        else [("mentions", .array (mentions.map (fun uid => .string (toString uid))))]) ++
      [("msgId", .string message.msgId)] ++ replyMember replyTo ++
      [("timestamp", .integer message.timestamp), ("to", .string (toString message.groupId)),
        ("type", .string "group_msg")])
  | .fileMsg fromUser toUser url filename fileSize msgId timestamp => .object [
      ("fileSize", .integer fileSize), ("filename", .string filename),
      ("from", .string (toString fromUser)), ("msgId", .string msgId),
      ("timestamp", .integer timestamp), ("to", .string (toString toUser)),
      ("type", .string "file_msg"), ("url", .string url)]
  | .edit msgId newBody editedAt fromUser convType convId => .object [
      ("convId", .string (toString convId)), ("convType", .string convType.text), ("editedAt", .integer editedAt),
      ("from", .string (toString fromUser)), ("msgId", .string msgId), ("newBody", .string newBody),
      ("type", .string "edit")]
  | .reactionUpdate msgId reactions convType convId => .object [
      ("convId", .string (toString convId)), ("convType", .string convType.text), ("msgId", .string msgId),
      ("reactions", reactions), ("type", .string "reaction_update")]

/-- The receiver is named in the frame of a private message. -/
theorem msg_to (message : PrivateMessage) (replyTo : String) :
    (Frame.msg message replyTo).json.valueString "to" "" = some (toString message.toUser) := by
  rw [json, replyMember]
  split
  · rfl
  · rfl

end Frame

end MuduoIm.Server
