import MuduoIm.Data.Json
import MuduoIm.Server.MessageStore

namespace MuduoIm.Server.OutboxService

open MuduoIm.Data

/-! # What a private message puts into the outbox -/

def convKey (fromUser toUser : Int) : String :=
  toString (min fromUser toUser) ++ ":" ++ toString (max fromUser toUser)

/-- The object whose dump `handlePrivateMessage` puts into the outbox. -/
def kafkaPayload (message : PrivateMessage) : Json :=
  .object [("type", .string "private"), ("msgId", .string message.msgId),
    ("convId", .string (convKey message.fromUser message.toUser)),
    ("from", .integer message.fromUser), ("to", .integer message.toUser),
    ("content", .string message.content), ("timestamp", .integer message.timestamp)]

end MuduoIm.Server.OutboxService
