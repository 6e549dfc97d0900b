import Mathlib.Tactic.Push
import MuduoIm.Data.RedisList

namespace MuduoIm.Server

open MuduoIm.Data

/-! # Message tables and the Redis message queue

The two MySQL message tables with the columns that their INSERT statements
write, the texts of the Redis list `msg_queue`, and the functions that move a
message between them.  Whether a downstream call succeeds is an argument.
-/

/-- A row of `private_messages`. -/
structure PrivateMessage where
  msgId : String
  fromUser : Int
  toUser : Int
  content : String
  timestamp : Int
deriving DecidableEq, Repr

/-- A row of `group_messages`; an absent `mentions` is NULL. -/
structure GroupMessage where
  msgId : String
  groupId : Int
  fromUser : Int
  content : String
  timestamp : Int
  mentions : Option String
deriving DecidableEq, Repr

structure MessageTables where
  privateMessages : List PrivateMessage := []
  groupMessages : List GroupMessage := []
deriving DecidableEq, Repr

/-- `INSERT INTO private_messages`: `msg_id` is UNIQUE, so a second row with
the same id is refused.  `reachable` is false when no connection is acquired or
the statement cannot be prepared or executed. -/
def MessageTables.savePrivateMessage (tables : MessageTables) (reachable : Bool)
    (message : PrivateMessage) : Bool × MessageTables :=
  if reachable ∧ ∀ row ∈ tables.privateMessages, row.msgId ≠ message.msgId then
    (true, { tables with privateMessages := tables.privateMessages ++ [message] })
  else (false, tables)

def MessageTables.saveGroupMessage (tables : MessageTables) (reachable : Bool)
    (message : GroupMessage) : Bool × MessageTables :=
  if reachable ∧ ∀ row ∈ tables.groupMessages, row.msgId ≠ message.msgId then
    (true, { tables with groupMessages := tables.groupMessages ++ [message] })
  else (false, tables)

/-- The JSON objects that the handlers put on the queue, by their `_type`. -/
inductive QueueItem where
  | privateMessage (message : PrivateMessage)
  | groupMessage (message : GroupMessage)
deriving DecidableEq, Repr

namespace QueueItem

def msgId : QueueItem → String
  | .privateMessage message => message.msgId
  | .groupMessage message => message.msgId

def fromUser : QueueItem → Int
  | .privateMessage message => message.fromUser
  | .groupMessage message => message.fromUser

/-- The row of the item is in the table of its kind. -/
def StoredIn (tables : MessageTables) : QueueItem → Prop
  | .privateMessage message => message ∈ tables.privateMessages
  | .groupMessage message => message ∈ tables.groupMessages

instance (tables : MessageTables) (item : QueueItem) : Decidable (item.StoredIn tables) := by
  cases item <;> unfold StoredIn <;> infer_instance

end QueueItem

/-- A text of `msg_queue`.  A text that is not JSON, has another `_type` or an
ill-typed field is `unreadable`: the readers below count it as one failure. -/
inductive QueueText where
  | item (item : QueueItem)
  | unreadable
deriving DecidableEq, Repr

/-- The save that both readers of a queue text choose by its `_type`. -/
def MessageTables.saveText (tables : MessageTables) (reachable : Bool) :
    QueueText → Bool × MessageTables
  | .item (.privateMessage message) => tables.savePrivateMessage reachable message
  | .item (.groupMessage message) => tables.saveGroupMessage reachable message
  | .unreadable => (false, tables)

/-- Redis `msg_queue` and the message tables. -/
structure MessageStore where
  queue : List QueueText := []
  tables : MessageTables := {}
deriving DecidableEq, Repr

/-- Writes the message straight to MySQL; the result of the save is dropped. -/
def MessageStore.directSaveMessage (store : MessageStore) (reachable : Bool)
    (text : QueueText) : MessageStore :=
  { store with tables := (store.tables.saveText reachable text).2 }

/-- What `queueMessage` meets on its way: the answer of `redisBreaker_.allow`,
whether a valid connection is acquired, whether LPUSH is executed, and whether
MySQL can be reached if it falls back to it. -/
structure QueueOutcome where
  breakerAllows : Bool := true
  connected : Bool := true
  pushed : Bool := true
  mysqlReachable : Bool := true
deriving DecidableEq, Repr

/-- The result of LPUSH is not looked at, so a failed push ends like a
successful one. -/
def MessageStore.queueMessage (store : MessageStore) (redisPool : Bool) (outcome : QueueOutcome)
    (text : QueueText) : MessageStore :=
  if !redisPool || !outcome.breakerAllows then
    store.directSaveMessage outcome.mysqlReachable text
  else if outcome.connected then
    if outcome.pushed then { store with queue := RedisList.lpush store.queue text } else store
  else store.directSaveMessage outcome.mysqlReachable text

/-! ## Saves -/

theorem MessageTables.saveText_keeps {tables : MessageTables} {reachable : Bool}
    {text : QueueText} {item : QueueItem} (stored : item.StoredIn tables) :
    item.StoredIn (tables.saveText reachable text).2 := by
  simp only [MessageTables.saveText]
  split
  · simp only [MessageTables.savePrivateMessage]
    split
    · cases item with
      | privateMessage row => exact List.mem_append_left _ stored
      | groupMessage row => exact stored
    · exact stored
  · simp only [MessageTables.saveGroupMessage]
    split
    · cases item with
      | privateMessage row => exact stored
      | groupMessage row => exact List.mem_append_left _ stored
    · exact stored
  · exact stored

/-- A save adds at most the row it was asked for. -/
theorem MessageTables.saveText_adds {tables : MessageTables} {reachable : Bool}
    {text : QueueText} {item : QueueItem}
    (stored : item.StoredIn (tables.saveText reachable text).2) :
    item.StoredIn tables ∨ text = .item item := by
  simp only [MessageTables.saveText] at stored
  split at stored
  · simp only [MessageTables.savePrivateMessage] at stored
    split at stored
    · cases item with
      | privateMessage row =>
          rcases List.mem_append.mp stored with earlier | added
          · exact .inl earlier
          · rw [List.mem_singleton.mp added]
            exact .inr rfl
      | groupMessage row => exact .inl stored
    · exact .inl stored
  · simp only [MessageTables.saveGroupMessage] at stored
    split at stored
    · cases item with
      | privateMessage row => exact .inl stored
      | groupMessage row =>
          rcases List.mem_append.mp stored with earlier | added
          · exact .inl earlier
          · rw [List.mem_singleton.mp added]
            exact .inr rfl
    · exact .inl stored
  · exact .inl stored

/-- With MySQL reachable, the item is stored after its save, by this save or,
when the id is taken, by the row that has it. -/
theorem MessageTables.saveText_stores {tables : MessageTables} {item : QueueItem}
    (unique : ∀ other : QueueItem, other.StoredIn tables → other.msgId = item.msgId → other = item) :
    item.StoredIn (tables.saveText true (.item item)).2 := by
  cases item with
  | privateMessage message =>
      simp only [saveText, savePrivateMessage, true_and]
      split
      · exact List.mem_append_right _ (List.mem_singleton_self _)
      · rename_i taken
        push Not at taken
        obtain ⟨row, member, same⟩ := taken
        have equal := unique (.privateMessage row) member same
        cases equal
        exact member
  | groupMessage message =>
      simp only [saveText, saveGroupMessage, true_and]
      split
      · exact List.mem_append_right _ (List.mem_singleton_self _)
      · rename_i taken
        push Not at taken
        obtain ⟨row, member, same⟩ := taken
        have equal := unique (.groupMessage row) member same
        cases equal
        exact member

end MuduoIm.Server
