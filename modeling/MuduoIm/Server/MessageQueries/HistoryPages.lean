import MuduoIm.Data.Paging
import MuduoIm.Server.MessageQueries

namespace MuduoIm.Server.MessageQueries

open MuduoIm.Data MuduoIm.Data.Text MuduoIm.Server

/-! # Paging through a history

A client asks for the history with `before` = 0 and goes on with the smallest
timestamp of the last page.  The table does not change meanwhile.
-/

inductive Conversation where
  | privateChat (userId peerId : Int)
  | group (groupId : Int)
deriving DecidableEq, Repr

def history (mysql : MySQL) (database : Database) (limit : Nat) (before : Int) : Conversation → Json
  | .privateChat userId peerId => getPrivateHistory mysql database userId peerId limit before
  | .group groupId => getGroupHistory mysql database groupId limit before

/-- The messages of an answer. -/
def elements : Json → List Json
  | .array elements => elements
  | _ => []

def timestampOf (message : Json) : Int :=
  match message.member "timestamp" with
  | some (.integer timestamp) => timestamp
  | _ => 0

namespace Row

def privateJson (row : Row PrivateMessage) : Json := .object [
  ("content", .string (cString row.columns.content)), ("from", .integer row.columns.fromUser),
  ("msgId", .string row.columns.msgId), ("timestamp", .integer row.columns.timestamp),
  ("to", .integer row.columns.toUser)]

def groupJson (row : Row GroupMessage) : Json := .object [
  ("content", .string (cString row.columns.content)), ("from", .integer row.columns.fromUser),
  ("msgId", .string row.columns.msgId), ("timestamp", .integer row.columns.timestamp)]

@[simp] theorem timestampOf_privateJson (row : Row PrivateMessage) :
    timestampOf row.privateJson = row.columns.timestamp := rfl

@[simp] theorem timestampOf_groupJson (row : Row GroupMessage) :
    timestampOf row.groupJson = row.columns.timestamp := rfl

end Row

/-- Every message of the conversation that is not recalled. -/
def messages (database : Database) : Conversation → List Json
  | .privateChat userId peerId =>
      (database.privateMessages.filter (fun row => !row.recalled &&
        (decide (row.columns.fromUser = userId ∧ row.columns.toUser = peerId) ||
          decide (row.columns.fromUser = peerId ∧ row.columns.toUser = userId)))).map Row.privateJson
  | .group groupId =>
      (database.groupMessages.filter (fun row => !row.recalled &&
        decide (row.columns.groupId = groupId))).map Row.groupJson

variable {database : Database} {conversation : Conversation} {limit : Nat} {before : Int}
variable {like : String → String → Bool}

/-- Every answer is a page of the messages before the cursor. -/
theorem history_isPage :
    IsPage timestampOf limit ((messages database conversation).filter (earlier timestampOf before))
      (elements (history { like } database limit before conversation)) := by
  cases conversation with
  | privateChat userId peerId =>
      have selected : (messages database (.privateChat userId peerId)).filter (earlier timestampOf before) =
          (database.privateMessages.filter (Row.privateListed userId peerId before)).map Row.privateJson := by
        rw [messages, List.filter_map, List.filter_filter]
        congr 2
        funext row
        simp only [Function.comp_apply, earlier, Row.timestampOf_privateJson, Row.privateListed, Row.listed]
        ac_rfl
      rw [selected]
      exact isPage_page.map
  | group groupId =>
      have selected : (messages database (.group groupId)).filter (earlier timestampOf before) =
          (database.groupMessages.filter (Row.groupListed groupId before)).map Row.groupJson := by
        rw [messages, List.filter_map, List.filter_filter]
        congr 2
        funext row
        simp only [Function.comp_apply, earlier, Row.timestampOf_groupJson, Row.groupListed, Row.listed]
        ac_rfl
      rw [selected]
      exact isPage_page.map

/-- Paging returns every message exactly once if and only if no page ends
between messages with equal timestamps. -/
theorem history_complete_iff (like : String → String → Bool) (database : Database)
    (conversation : Conversation) {limit : Nat} (nonzero : 0 < limit) :
    ReadsAll timestampOf (fun before => elements (history { like } database limit before conversation))
        (messages database conversation) ↔
      (∀ message ∈ messages database conversation, 0 < timestampOf message) ∧
        PagesSeparate timestampOf limit (messages database conversation) :=
  readsAll_iff nonzero fun _ => history_isPage

/-- Two messages of users 1 and 2 in one millisecond fit on a page of the
handler's size. -/
private def twoMessages : Database where
  privateMessages := [
    { columns := { msgId := "m1", fromUser := 1, toUser := 2, content := "hi", timestamp := 100 } },
    { columns := { msgId := "m2", fromUser := 2, toUser := 1, content := "hello", timestamp := 100 } }]
  privateIds := by decide

theorem two_messages_complete :
    ReadsAll timestampOf (fun before => elements (history { like := fun _ _ => false } twoMessages 50 before
      (.privateChat 1 2))) (messages twoMessages (.privateChat 1 2)) := by
  apply (history_complete_iff _ _ _ (by decide)).mpr
  constructor
  · decide
  · intro message member count
    have all : (messages twoMessages (.privateChat 1 2)).countP
        (fun other => timestampOf message ≤ timestampOf other) ≤ 2 := List.countP_le_length
    omega

/-- Messages of user 1 to user 2, all in one millisecond. -/
private def burst : Database where
  privateMessages := (List.range 51).map fun index => { columns := {
    msgId := String.ofList (List.replicate index 'm'), fromUser := 1, toUser := 2
    content := "hi", timestamp := 100 } }
  privateIds := by
    rw [List.map_map]
    refine List.nodup_range.map fun first second same => ?_
    simpa using congrArg String.length same

theorem burst_message_lost :
    ¬ ReadsAll timestampOf (fun before => elements (history { like := fun _ _ => false } burst 50 before
      (.privateChat 1 2))) (messages burst (.privateChat 1 2)) := by
  rw [readsAll_iff (by decide : 0 < 50) fun _ => history_isPage]
  intro complete
  have length : (messages burst (.privateChat 1 2)).length = 51 := by
    rw [messages, List.length_map, List.filter_eq_self.mpr]
    · rfl
    · intro row listed
      obtain ⟨_, _, rfl⟩ := List.mem_map.mp listed
      rfl
  have together : ∀ message ∈ messages burst (.privateChat 1 2), timestampOf message = 100 := by
    intro message member
    obtain ⟨row, listed, rfl⟩ := List.mem_map.mp member
    obtain ⟨_, _, rfl⟩ := List.mem_map.mp (List.mem_of_mem_filter listed)
    rfl
  obtain ⟨message, member⟩ := List.exists_mem_of_length_pos (by omega : 0 < (messages burst (.privateChat 1 2)).length)
  apply complete.2 message member 1
  rw [together message member]
  constructor
  · rw [List.countP_eq_zero.mpr]
    · decide
    · intro other listed
      rw [together other listed]
      decide
  · rw [List.countP_eq_length.mpr, length]
    · decide
    · intro other listed
      rw [together other listed]
      decide

end MuduoIm.Server.MessageQueries
