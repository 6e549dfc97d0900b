import MuduoIm.Server.MessageQueue.Flush

namespace MuduoIm.Server.MessageQueue

open MuduoIm.Data

/-! # One flush whose saves may fail

The batch is removed from Redis before its first save, and a save that fails is
only counted.  Nothing else touches the queue here, so a flush is a function of
the store and of what its calls answer.
-/

/-- What may stop a save before its row is written. -/
inductive SaveFault where
  | notAcquired
  | invalidConnection
  | notPrepared
  | notExecuted
  | thrown
deriving DecidableEq, Repr

/-- What a flush meets; `fault` is by the position of the message in the
batch. -/
structure FlushOutcome where
  redisPool : Bool := true
  breakerAllows : Bool := true
  connected : Bool := true
  fault : Nat → Option SaveFault := fun _ => none

/-- The tables after the saves, and the two counters. -/
structure BatchResult where
  tables : MessageTables
  successCount : Nat := 0
  failCount : Nat := 0
deriving DecidableEq, Repr

def saveBatch (fault : Nat → Option SaveFault) (tables : MessageTables) :
    Nat → List QueueText → BatchResult
  | _, [] => { tables }
  | position, text :: rest =>
      let saved := tables.saveText (fault position).isNone text
      let later := saveBatch fault saved.2 (position + 1) rest
      if saved.1 then { later with successCount := later.successCount + 1 }
      else { later with failCount := later.failCount + 1 }

/-- What a flush leaves behind, and the texts that it read. -/
structure FlushResult where
  store : MessageStore
  read : List QueueText := []
  mysqlBreaker : List BreakerCall := []
deriving DecidableEq, Repr

def flushMessageQueue (outcome : FlushOutcome) (store : MessageStore) : FlushResult :=
  if !outcome.redisPool then { store }
  else if !outcome.breakerAllows then { store }
  else if !outcome.connected then { store }
  else
    let messages := RedisList.lrange store.queue 0 99
    if messages = [] then { store }
    else
      let batch := saveBatch outcome.fault store.tables 0 messages
      { store := {
          queue := RedisList.ltrim store.queue messages.length (-1)
          tables := batch.tables }
        read := messages
        mysqlBreaker := breakerCalls batch.successCount batch.failCount }

end MuduoIm.Server.MessageQueue

namespace MuduoIm.Server

/-- The two items are rows of one table with one `msg_id`. -/
def QueueItem.SameRow : QueueItem → QueueItem → Prop
  | .privateMessage first, .privateMessage second => first.msgId = second.msgId
  | .groupMessage first, .groupMessage second => first.msgId = second.msgId
  | _, _ => False

/-- The table of the item has a row with its `msg_id`. -/
def QueueItem.RecordedIn (tables : MessageTables) : QueueItem → Prop
  | .privateMessage message => ∃ row ∈ tables.privateMessages, row.msgId = message.msgId
  | .groupMessage message => ∃ row ∈ tables.groupMessages, row.msgId = message.msgId

variable {tables : MessageTables} {reachable : Bool} {text : QueueText} {item : QueueItem}

instance (first second : QueueItem) : Decidable (first.SameRow second) :=
  match first, second with
  | .privateMessage first, .privateMessage second => inferInstanceAs (Decidable (first.msgId = second.msgId))
  | .groupMessage first, .groupMessage second => inferInstanceAs (Decidable (first.msgId = second.msgId))
  | .privateMessage _, .groupMessage _ => inferInstanceAs (Decidable False)
  | .groupMessage _, .privateMessage _ => inferInstanceAs (Decidable False)

instance (tables : MessageTables) (item : QueueItem) : Decidable (item.RecordedIn tables) :=
  match item with
  | .privateMessage message => inferInstanceAs (Decidable (∃ row ∈ tables.privateMessages, row.msgId = message.msgId))
  | .groupMessage message => inferInstanceAs (Decidable (∃ row ∈ tables.groupMessages, row.msgId = message.msgId))

/-- INSERT into a table whose key is UNIQUE. -/
theorem exists_key_insert {Row : Type} {rows : List Row} {row : Row} {key : Row → String}
    {id : String} :
    (∃ other ∈ (if reachable = true ∧ ∀ other ∈ rows, key other ≠ key row then rows ++ [row]
      else rows), key other = id) ↔
      (∃ other ∈ rows, key other = id) ∨ reachable = true ∧ key row = id := by
  split
  · rename_i inserted
    simp [inserted.1]
  · rename_i refused
    constructor
    · exact Or.inl
    · intro recorded
      rcases recorded with earlier | ⟨answered, same⟩
      · exact earlier
      · push Not at refused
        obtain ⟨other, member, taken⟩ := refused answered
        exact ⟨other, member, taken.trans same⟩

theorem MessageTables.savePrivateMessage_recorded (message : PrivateMessage) :
    item.RecordedIn (tables.savePrivateMessage reachable message).2 ↔
      item.RecordedIn tables ∨
        reachable = true ∧ (QueueItem.privateMessage message).SameRow item := by
  cases item with
  | groupMessage other =>
      simp only [savePrivateMessage, QueueItem.SameRow, and_false, or_false]
      split <;> exact Iff.rfl
  | privateMessage other =>
      simp only [savePrivateMessage, apply_ite Prod.snd, apply_ite MessageTables.privateMessages,
        QueueItem.SameRow, QueueItem.RecordedIn]
      exact exists_key_insert

theorem MessageTables.saveGroupMessage_recorded (message : GroupMessage) :
    item.RecordedIn (tables.saveGroupMessage reachable message).2 ↔
      item.RecordedIn tables ∨
        reachable = true ∧ (QueueItem.groupMessage message).SameRow item := by
  cases item with
  | privateMessage other =>
      simp only [saveGroupMessage, QueueItem.SameRow, and_false, or_false]
      split <;> exact Iff.rfl
  | groupMessage other =>
      simp only [saveGroupMessage, apply_ite Prod.snd, apply_ite MessageTables.groupMessages,
        QueueItem.SameRow, QueueItem.RecordedIn]
      exact exists_key_insert

/-- A save records the row that it was asked for, and no other. -/
theorem MessageTables.saveText_recorded :
    item.RecordedIn (tables.saveText reachable text).2 ↔
      item.RecordedIn tables ∨
        reachable = true ∧ ∃ written, text = .item written ∧ written.SameRow item := by
  cases text with
  | unreadable => simp [saveText]
  | item written =>
      simp only [QueueText.item.injEq, ↓existsAndEq, true_and]
      cases written with
      | privateMessage message => exact savePrivateMessage_recorded message
      | groupMessage message => exact saveGroupMessage_recorded message

end MuduoIm.Server

namespace MuduoIm.Server.MessageQueue

open MuduoIm.Data

variable {fault : Nat → Option SaveFault} {tables : MessageTables} {position : Nat}
variable {messages : List QueueText} {item : QueueItem}

/-- One of the messages, the first of which is at `position` of its batch, is
the row of the item, and its save meets no fault. -/
def SavesRow (fault : Nat → Option SaveFault) (position : Nat) (messages : List QueueText)
    (item : QueueItem) : Prop :=
  ∃ index written, messages[index]? = some (.item written) ∧
    fault (position + index) = none ∧ written.SameRow item

theorem savesRow_cons {text : QueueText} :
    SavesRow fault position (text :: messages) item ↔
      (fault position = none ∧ ∃ written, text = .item written ∧ written.SameRow item) ∨
        SavesRow fault (position + 1) messages item := by
  constructor
  · intro saves
    obtain ⟨index, written, found, unfailed, same⟩ := saves
    cases index with
    | zero =>
        simp only [List.getElem?_cons_zero, Option.some.injEq] at found
        exact .inl ⟨unfailed, written, found, same⟩
    | succ index =>
        have shifted : position + 1 + index = position + (index + 1) := by omega
        exact .inr ⟨index, written, found, shifted ▸ unfailed, same⟩
  · intro saves
    rcases saves with ⟨unfailed, written, rfl, same⟩ | ⟨index, written, found, unfailed, same⟩
    · exact ⟨0, written, rfl, unfailed, same⟩
    · have shifted : position + (index + 1) = position + 1 + index := by omega
      exact ⟨index + 1, written, found, shifted ▸ unfailed, same⟩

theorem saveBatch_tables {text : QueueText} : (saveBatch fault tables position (text :: messages)).tables =
    (saveBatch fault (tables.saveText (fault position).isNone text).2 (position + 1) messages).tables := by
  simp only [saveBatch]
  split <;> rfl

/-- A batch records the rows of its messages whose saves meet no fault. -/
theorem saveBatch_recorded :
    item.RecordedIn (saveBatch fault tables position messages).tables ↔
      item.RecordedIn tables ∨ SavesRow fault position messages item := by
  induction messages generalizing tables position with
  | nil => simp [saveBatch, SavesRow]
  | cons text rest ih =>
      rw [saveBatch_tables, ih, MessageTables.saveText_recorded, savesRow_cons, or_assoc,
        Option.isNone_iff_eq_none]

/-- The flush gets as far as reading the queue. -/
def FlushOutcome.Proceeds (outcome : FlushOutcome) : Prop :=
  outcome.redisPool = true ∧ outcome.breakerAllows = true ∧ outcome.connected = true

variable {outcome : FlushOutcome} (store : MessageStore)

theorem flushMessageQueue_stopped (stopped : ¬ outcome.Proceeds) :
    (flushMessageQueue outcome store).read = [] := by
  obtain ⟨redisPool, breakerAllows, connected, fault⟩ := outcome
  cases redisPool <;> cases breakerAllows <;> cases connected <;>
    simp [FlushOutcome.Proceeds, flushMessageQueue] at stopped ⊢

theorem flushMessageQueue_proceeds (proceeds : outcome.Proceeds) :
    (flushMessageQueue outcome store).read = store.queue.take 100 ∧
      (flushMessageQueue outcome store).store = {
        queue := store.queue.drop 100
        tables := (saveBatch outcome.fault store.tables 0 (store.queue.take 100)).tables } := by
  obtain ⟨redisPool, breakerAllows, connected⟩ := proceeds
  have range : RedisList.lrange store.queue 0 99 = store.queue.take 100 :=
    RedisList.lrange_prefix store.queue 99
  simp only [flushMessageQueue, redisPool, breakerAllows, connected, Bool.not_true,
    Bool.false_eq_true, if_false, range, RedisList.ltrim_suffix]
  split
  · rename_i empty
    have queueEmpty : store.queue = [] := by simpa using empty
    cases store with
    | mk queue tables =>
        cases queueEmpty
        exact ⟨rfl, rfl⟩
  · have trimmed : store.queue.drop (store.queue.take 100).length = store.queue.drop 100 := by
      by_cases short : store.queue.length ≤ 100
      · rw [List.take_of_length_le short, List.drop_length, List.drop_eq_nil_of_le short]
      · rw [List.length_take, Nat.min_eq_left (by omega)]
    exact ⟨rfl, by rw [trimmed]⟩

/-- A flush keeps every message that it read exactly if each of the first
hundred texts has its row already, has a copy further down the queue, or is
the row of a message of the batch whose save meets no fault. -/
theorem flush_loses_nothing_iff (outcome : FlushOutcome) (store : MessageStore) :
    (∀ item, .item item ∈ (flushMessageQueue outcome store).read →
      item.RecordedIn (flushMessageQueue outcome store).store.tables ∨
        .item item ∈ (flushMessageQueue outcome store).store.queue) ↔
    (outcome.Proceeds → ∀ item, .item item ∈ store.queue.take 100 →
      item.RecordedIn store.tables ∨ .item item ∈ store.queue.drop 100 ∨
        SavesRow outcome.fault 0 (store.queue.take 100) item) := by
  by_cases proceeds : outcome.Proceeds
  · obtain ⟨read, after⟩ := flushMessageQueue_proceeds store proceeds
    simp only [read, after, proceeds, forall_const, saveBatch_recorded]
    refine forall₂_congr (fun item _ => ?_)
    rw [or_assoc, or_comm (a := SavesRow _ _ _ _)]
  · have read := flushMessageQueue_stopped store proceeds
    simp [read, proceeds]

/-- MySQL has no connection to give: the only message of the queue is read,
trimmed and dropped. -/
theorem unreachable_mysql_drops_batch :
    ∃ (outcome : FlushOutcome) (store : MessageStore) (item : QueueItem),
      .item item ∈ (flushMessageQueue outcome store).read ∧
        ¬ item.RecordedIn (flushMessageQueue outcome store).store.tables ∧
        .item item ∉ (flushMessageQueue outcome store).store.queue := by
  refine ⟨{ fault := fun _ => some .notAcquired },
    { queue := [.item (.privateMessage ⟨"101", 1, 2, "hello", 1000⟩)] },
    .privateMessage ⟨"101", 1, 2, "hello", 1000⟩, ?_⟩
  decide

end MuduoIm.Server.MessageQueue
