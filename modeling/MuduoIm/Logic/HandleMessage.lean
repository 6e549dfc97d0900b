import MuduoIm.Data.Json
import MuduoIm.Logic.GatewayRegistry
import MuduoIm.Server.MessageStore

namespace MuduoIm.Logic.HandleMessage

open MuduoIm.Data MuduoIm.Server

/-! # HandleMessage of a logic instance

A frame of type msg is stored under a message id that is issued for this call,
and it is then pushed to the gateway of its receiver.
-/

inductive StatusCode where
  | ok
  | invalid
  | internal
deriving DecidableEq, Repr

structure MessageResponse where
  code : StatusCode
  msg : String
  serverMsgId : Int := 0
  inlineReply : String := ""
deriving DecidableEq, Repr

/-- What one call meets: the id that Snowflake issues, the clock, whether MySQL
takes the row, and the writes to the gateways. -/
structure Surroundings where
  serverMsgId : Int
  now : Int := 0
  reachable : Bool := true
  write : Nat → Bool := fun _ => true

/-- The handler has no response when it throws. -/
structure Outcome where
  response : Option MessageResponse
  tables : MessageTables
  push : Option Push := none

/-- `to` as a string or as an integer; `none` when a read throws. -/
def targetOf : Json → Option Int
  | .string text => stoll text
  | json => json.asInt

section

variable (codec : JsonCodec) (registry : GatewayRegistry) (tables : MessageTables)
variable (uid : Int) (surroundings : Surroundings)

def ack (clientMsgId : String) (message : PrivateMessage) : Json :=
  .object [("clientMsgId", .string clientMsgId), ("serverMsgId", .string message.msgId),
    ("timestamp", .integer message.timestamp), ("type", .string "ack")]

def forward (message : PrivateMessage) : Json :=
  .object [("content", .string message.content), ("from", .string (toString message.fromUser)),
    ("msgId", .string message.msgId), ("timestamp", .integer message.timestamp),
    ("to", .string (toString message.toUser)), ("type", .string "msg")]

/-- The save and what follows it.  A `clientMsgId` that is no string is read
only after the row has been inserted. -/
def store (frame : Json) (message : PrivateMessage) : Outcome :=
  match tables.savePrivateMessage surroundings.reachable message with
  | (false, tables) => {
      response := some { code := .internal, msg := "savePrivateMessage failed" }
      tables }
  | (true, tables) =>
      match frame.valueString "clientMsgId" "" with
      | none => { response := none, tables }
      | some clientMsgId => {
          response := some {
            code := .ok, msg := "saved", serverMsgId := surroundings.serverMsgId
            inlineReply := codec.dump (ack clientMsgId message) }
          tables
          push := (registry.pushToUser surroundings.write message.toUser (codec.dump (forward message))).2 }

/-- The message of a frame of type msg; `none` when a read throws. -/
def messageOf (receiver content : Json) : Option PrivateMessage :=
  match targetOf receiver, content.asString with
  | some toUser, some content => some {
      msgId := toString surroundings.serverMsgId, fromUser := uid, toUser, content
      timestamp := surroundings.now }
  | _, _ => none

def handleFrame (frame : Json) : Outcome :=
  match frame.valueString "type" "" with
  | none => { response := none, tables }
  | some type =>
      if type = "msg" then
        match frame.member "to", frame.member "content" with
        | some receiver, some content =>
            match messageOf uid surroundings receiver content with
            | none => { response := none, tables }
            | some message => store codec registry tables surroundings frame message
        | _, _ => { response := some { code := .invalid, msg := "missing to/content" }, tables }
      else {
        response := some { code := .ok, msg := "type=" ++ type ++ " not handled in W1.D5" }
        tables }

def handleMessage (payload : String) : Outcome :=
  match codec.parse payload with
  | .error what => {
      response := some { code := .invalid, msg := "payload parse: " ++ what }
      tables }
  | .ok frame => handleFrame codec registry tables uid surroundings frame

/-- The message that a call tries to store. -/
def messageIn (payload : String) : Option PrivateMessage :=
  match codec.parse payload with
  | .error _ => none
  | .ok frame =>
      if frame.valueString "type" "" = some "msg" then
        match frame.member "to", frame.member "content" with
        | some receiver, some content => messageOf uid surroundings receiver content
        | _, _ => none
      else none

end

variable {codec : JsonCodec} {registry : GatewayRegistry} {tables : MessageTables}
variable {uid : Int} {surroundings : Surroundings} {payload : String} {message : PrivateMessage}

theorem store_tables (frame : Json) : (store codec registry tables surroundings frame message).tables =
    (tables.savePrivateMessage surroundings.reachable message).2 := by
  rw [store]
  split
  · rename_i saved
    rw [saved]
  · rename_i saved
    rw [saved]
    split
    · rfl
    · rfl

theorem store_push {frame : Json}
    (refused : (tables.savePrivateMessage surroundings.reachable message).1 = false) :
    (store codec registry tables surroundings frame message).push = none := by
  rw [store]
  split
  · rfl
  · rename_i saved
    rw [saved] at refused
    cases refused

/-- What a call does to the table, and that it pushes nothing else. -/
theorem handleMessage_spec :
    match messageIn codec uid surroundings payload with
    | none =>
        (handleMessage codec registry tables uid surroundings payload).tables = tables ∧
          (handleMessage codec registry tables uid surroundings payload).push = none
    | some message =>
        (handleMessage codec registry tables uid surroundings payload).tables =
            (tables.savePrivateMessage surroundings.reachable message).2 ∧
          ((tables.savePrivateMessage surroundings.reachable message).1 = false →
            (handleMessage codec registry tables uid surroundings payload).push = none) := by
  rw [messageIn, handleMessage]
  cases codec.parse payload with
  | error what => exact ⟨rfl, rfl⟩
  | ok frame =>
      simp only [handleFrame]
      cases frame.valueString "type" "" with
      | none => exact ⟨rfl, rfl⟩
      | some type =>
          by_cases msg : type = "msg"
          · simp only [msg, if_true]
            cases frame.member "to" with
            | none => exact ⟨rfl, rfl⟩
            | some receiver =>
                cases frame.member "content" with
                | none => exact ⟨rfl, rfl⟩
                | some content =>
                    dsimp only
                    cases messageOf uid surroundings receiver content with
                    | none => exact ⟨rfl, rfl⟩
                    | some message => exact ⟨store_tables frame, store_push⟩
          · have other : some type ≠ some "msg" := fun same => msg (Option.some.inj same)
            dsimp only
            rw [if_neg msg, if_neg other]
            exact ⟨rfl, rfl⟩

end MuduoIm.Logic.HandleMessage
