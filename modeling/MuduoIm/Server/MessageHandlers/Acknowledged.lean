import MuduoIm.Server.MessageHandlers

namespace MuduoIm.Server

/-! # Acknowledged messages are stored -/

/-- The item is in `msg_queue` or in its message table. -/
def MessageStore.Has (store : MessageStore) (item : QueueItem) : Prop :=
  .item item ∈ store.queue ∨ item.StoredIn store.tables

theorem MessageTables.storedIn_saveText_iff {tables : MessageTables} {reachable : Bool}
    {item other : QueueItem} (fresh : ∀ row : QueueItem, row.StoredIn tables → row.msgId ≠ item.msgId) :
    other.StoredIn (tables.saveText reachable (.item item)).2 ↔
      other.StoredIn tables ∨ (reachable = true ∧ other = item) := by
  constructor
  · intro stored
    rcases MessageTables.saveText_adds stored with earlier | added
    · exact .inl earlier
    · cases reachable with
      | false =>
          have unchanged : (tables.saveText false (.item item)).2 = tables := by
            cases item <;> simp [saveText, savePrivateMessage, saveGroupMessage]
          rw [unchanged] at stored
          exact .inl stored
      | true => exact .inr ⟨rfl, by cases added; rfl⟩
  · intro given
    rcases given with earlier | ⟨rfl, rfl⟩
    · exact MessageTables.saveText_keeps earlier
    · exact MessageTables.saveText_stores (fun row stored same => absurd same (fresh row stored))

/-- Where `queueMessage` leaves the message, if anywhere: in Redis when it
gets as far as LPUSH, else in MySQL. -/
def QueueOutcome.stores (outcome : QueueOutcome) : Bool :=
  if outcome.breakerAllows && outcome.connected then outcome.pushed else outcome.mysqlReachable

theorem MessageStore.has_queueMessage_iff {store : MessageStore} {outcome : QueueOutcome}
    {item other : QueueItem} (fresh : ∀ row, store.Has row → row.msgId ≠ item.msgId) :
    (store.queueMessage true outcome (.item item)).Has other ↔
      store.Has other ∨ (outcome.stores = true ∧ other = item) := by
  have saved : other.StoredIn (store.tables.saveText outcome.mysqlReachable (.item item)).2 ↔ _ :=
    MessageTables.storedIn_saveText_iff (fun row stored => fresh row (.inr stored))
  have direct : (store.directSaveMessage outcome.mysqlReachable (.item item)).Has other ↔
      store.Has other ∨ (outcome.mysqlReachable = true ∧ other = item) := by
    simp only [Has, directSaveMessage, saved, or_assoc]
  obtain ⟨breakerAllows, connected, pushed, mysqlReachable⟩ := outcome
  cases breakerAllows <;> cases connected <;>
    simp only [queueMessage, QueueOutcome.stores, Bool.not_true, Bool.not_false, Bool.or_true,
      Bool.or_false, Bool.and_true, Bool.and_false, if_true, if_false, Bool.false_eq_true, direct]
  cases pushed with
  | false => simp
  | true =>
      simp only [if_true, Has, Data.RedisList.lpush, List.mem_cons, QueueText.item.injEq, true_and]
      tauto

namespace MessageHandlers

open MuduoIm.Data MuduoIm.Transition

/-! ## What the persistence of one message comes to -/

def OutboxOutcome.commits (outcome : OutboxOutcome) : Bool :=
  outcome.acquired && outcome.active && outcome.savedRow && outcome.outboxRow && outcome.committed

/-- Some stage of the chain took the message: the outbox transaction committed,
or the Redis queue or the direct save behind it succeeded. -/
def PersistOutcome.stores (config : Config) (outcome : PersistOutcome) (item : QueueItem) : Bool :=
  (match item with
    | .privateMessage _ => config.outboxService && outcome.outbox.commits
    | .groupMessage _ => false) ||
  if config.redisPool then outcome.queue.stores else outcome.saved

variable {config : Config} {outcome : PersistOutcome} {store : MessageStore}

theorem outboxTransaction_fst {message : PrivateMessage} {outbox : OutboxOutcome}
    (fresh : ∀ row, store.Has row → row.msgId ≠ message.msgId) :
    (outboxTransaction outbox store message).1 = outbox.commits := by
  have unused : ∀ row ∈ store.tables.privateMessages, row.msgId ≠ message.msgId :=
    fun row member => fresh (.privateMessage row) (.inr member)
  have saved : (store.tables.savePrivateMessage outbox.savedRow message).1 = outbox.savedRow := by
    cases outbox.savedRow with
    | false => rfl
    | true =>
        unfold MessageTables.savePrivateMessage
        rw [if_pos ⟨rfl, unused⟩]
  simp only [outboxTransaction, OutboxOutcome.commits, saved]
  by_cases started : (outbox.acquired && outbox.active) = true
  · rw [if_pos started, started, Bool.true_and]
    split
    · rename_i complete
      exact complete.symm
    · rename_i incomplete
      exact (Bool.eq_false_iff.mpr incomplete).symm
  · rw [if_neg started, Bool.eq_false_iff.mpr started, Bool.false_and, Bool.false_and,
      Bool.false_and]

theorem outboxTransaction_committed {message : PrivateMessage} {outbox : OutboxOutcome}
    (committed : (outboxTransaction outbox store message).1 = true) :
    (outboxTransaction outbox store message).2 =
      { store with tables := (store.tables.saveText true (.item (.privateMessage message))).2 } := by
  simp only [outboxTransaction] at committed ⊢
  split at committed
  · rename_i started
    rw [if_pos started]
    cases saved : outbox.savedRow with
    | false => simp [MessageTables.savePrivateMessage, saved] at committed
    | true =>
        simp only [saved] at committed ⊢
        split at committed
        · rename_i complete
          rw [if_pos complete]
          rfl
        · contradiction
  · contradiction

theorem outboxTransaction_aborted {message : PrivateMessage} {outbox : OutboxOutcome}
    (aborted : (outboxTransaction outbox store message).1 = false) :
    (outboxTransaction outbox store message).2 = store := by
  unfold outboxTransaction at aborted ⊢
  split at aborted
  · rename_i started
    rw [if_pos started]
    simp only at aborted ⊢
    split at aborted
    · contradiction
    · rename_i incomplete
      rw [if_neg incomplete]
  · rename_i skipped
    rw [if_neg skipped]

/-- The fallback of both handlers, once the outbox is out of the way. -/
theorem has_fallback_iff {item other : QueueItem}
    (fresh : ∀ row, store.Has row → row.msgId ≠ item.msgId) :
    (if config.redisPool then store.queueMessage true outcome.queue (.item item)
      else { store with tables := (store.tables.saveText outcome.saved (.item item)).2 }).Has other ↔
      store.Has other ∨
        ((if config.redisPool then outcome.queue.stores else outcome.saved) = true ∧ other = item) := by
  by_cases pool : config.redisPool = true
  · simp only [pool, if_true]
    exact MessageStore.has_queueMessage_iff fresh
  · simp only [pool, if_false, MessageStore.Has, Bool.false_eq_true]
    rw [MessageTables.storedIn_saveText_iff (fun row stored => fresh row (.inr stored)), or_assoc]

theorem has_persist_iff {item other : QueueItem}
    (fresh : ∀ row, store.Has row → row.msgId ≠ item.msgId) :
    (persist config outcome store item).Has other ↔
      store.Has other ∨ (outcome.stores config item = true ∧ other = item) := by
  cases item with
  | groupMessage message =>
      simp only [persist, persistGroup, PersistOutcome.stores, Bool.false_or]
      exact has_fallback_iff fresh
  | privateMessage message =>
      simp only [persist, persistPrivate, PersistOutcome.stores]
      have result : (outboxTransaction outcome.outbox store message).1 = _ := outboxTransaction_fst fresh
      by_cases service : config.outboxService = true
      · simp only [service, if_true, Bool.true_and]
        cases commits : outcome.outbox.commits with
        | true =>
            rw [commits] at result
            simp only [result, if_true, Bool.true_or, true_and, outboxTransaction_committed result,
              MessageStore.Has]
            rw [MessageTables.storedIn_saveText_iff (fun row stored => fresh row (.inr stored)),
              ← or_assoc, eq_self_iff_true, true_and]
        | false =>
            rw [commits] at result
            simp only [result, Bool.false_or, Bool.false_eq_true, if_false,
              outboxTransaction_aborted result]
            exact has_fallback_iff fresh
      · simp only [service, Bool.false_and, Bool.false_or, Bool.false_eq_true, if_false]
        exact has_fallback_iff fresh

/-! ## The ack -/

/-- The server holds a message with this id that this user sent. -/
def Holds (store : MessageStore) (msgId : String) (user : Int) : Prop :=
  ∃ item, store.Has item ∧ item.msgId = msgId ∧ item.fromUser = user

/-- When the last step sent an ack, the message it names is stored. -/
def AckStored (state : State) : Prop :=
  ∀ user msgId clientMsgId, state.sent = some (user, .ack msgId clientMsgId) →
    Holds state.store msgId user

/-- The frame passes the checks of its handler and its dedup key is already
known, so that it is answered as a repeat. -/
def Repeats (state : State) (handler : Handler) (frame : Json) (msgId : String) : Prop :=
  ∃ arguments, checkArguments handler.invalidTarget frame = .ok arguments ∧
    arguments.dedupKey msgId ∈ state.recentMsgIds

/-- A frame is no repeat, and an ack is sent for a message that some stage of
the chain took. -/
def AckBacked (config : Config) (state : State) : Event → Prop
  | .frame handler _ frame arrival => ¬ Repeats state handler frame arrival.msgId
  | .ack msgId => ∀ task outcome,
      state.persisted.find? (fun entry => entry.1.msgId = msgId) = some (task, outcome) →
        outcome.stores config (task.item []) = true
  | .persist .. => True

/-! ## Stored messages through a run -/

structure Tracked (config : Config) (state : State) : Prop where
  hasIssued : ∀ item, state.store.Has item → item.msgId ∈ state.issued
  submittedIssued : ∀ task ∈ state.submitted, task.msgId ∈ state.issued
  persistedIssued : ∀ entry ∈ state.persisted, entry.1.msgId ∈ state.issued
  submittedFresh : ∀ task ∈ state.submitted, ∀ item, state.store.Has item →
    item.msgId ≠ task.msgId
  apart : ∀ task ∈ state.submitted, ∀ entry ∈ state.persisted, entry.1.msgId ≠ task.msgId
  fate : ∀ entry ∈ state.persisted,
    Holds state.store entry.1.msgId entry.1.fromUser ↔
      entry.2.stores config (entry.1.item []) = true

theorem tracked_init : Tracked config {} where
  hasIssued := by
    intro item given
    rcases given with queued | stored
    · simp at queued
    · cases item <;> simp [QueueItem.StoredIn] at stored
  submittedIssued := by simp
  persistedIssued := by simp
  submittedFresh := by simp
  apart := by simp
  fate := by simp

@[simp] theorem Task.msgId_item (task : Task) (memberIds : List Int) :
    (task.item memberIds).msgId = task.msgId := by
  cases task <;> rfl

@[simp] theorem Task.fromUser_item (task : Task) (memberIds : List Int) :
    (task.item memberIds).fromUser = task.fromUser := by
  cases task <;> rfl

/-- Whether a message gets stored does not depend on the group members. -/
theorem stores_item (task : Task) (memberIds : List Int) :
    outcome.stores config (task.item memberIds) = outcome.stores config (task.item []) := by
  cases task <;> rfl

variable {state next : State} {handler : Handler} {user : Int} {body : Json} {arrival : Arrival}
variable {msgId : String} {memberIds : List Int}

theorem isDuplicate_fst (recentMsgIds : List String) (key : String) :
    (isDuplicate recentMsgIds key).1 = decide (key ∈ recentMsgIds) := by
  by_cases known : key ∈ recentMsgIds
  · simp [isDuplicate, known]
  · simp only [isDuplicate, known, if_false, decide_false]
    split <;> rfl

/-- A frame hands over at most a task with the id issued for it, and is
acked on the spot only when it repeats. -/
theorem handleFrame_spec {invalidTarget blocked : String} {toTask : MessageArguments → Task}
    {moderation : Bool} {recentMsgIds : List String}
    (names : ∀ arguments, (toTask arguments).msgId = arrival.msgId) :
    let path := handleFrame invalidTarget blocked toTask moderation recentMsgIds body arrival
    (∀ task ∈ path.task, task.msgId = arrival.msgId) ∧
      ∀ ackId clientMsgId, path.reply = some (.ack ackId clientMsgId) ↔
        ackId = arrival.msgId ∧ ∃ arguments,
          checkArguments invalidTarget body = .ok arguments ∧
          arguments.dedupKey arrival.msgId ∈ recentMsgIds ∧ arguments.clientMsgId = clientMsgId := by
  simp only [handleFrame]
  cases checked : checkArguments invalidTarget body with
  | error reason => cases reason <;> simp
  | ok arguments =>
      have first := isDuplicate_fst recentMsgIds (arguments.dedupKey arrival.msgId)
      simp only
      split
      · rename_i recent answer
        have known : arguments.dedupKey arrival.msgId ∈ recentMsgIds := by
          simpa [answer] using first
        simp [known, eq_comm]
      · rename_i recent answer
        have unknown : arguments.dedupKey arrival.msgId ∉ recentMsgIds := by
          simpa [answer] using first
        split
        · simp [unknown]
        · split <;> simp [unknown, names]

theorem handle_spec (handler : Handler) (moderation : Bool) (recentMsgIds : List String) (body : Json)
    (user : Int) (arrival : Arrival) :
    let path := handler.handle moderation recentMsgIds body user arrival
    (∀ task ∈ path.task, task.msgId = arrival.msgId) ∧
      ∀ ackId clientMsgId, path.reply = some (.ack ackId clientMsgId) ↔
        ackId = arrival.msgId ∧ ∃ arguments,
          checkArguments handler.invalidTarget body = .ok arguments ∧
          arguments.dedupKey arrival.msgId ∈ recentMsgIds ∧
          arguments.clientMsgId = clientMsgId := by
  cases handler with
  | privateMessage => exact handleFrame_spec (fun _ => rfl)
  | groupMessage => exact handleFrame_spec (fun _ => rfl)

theorem Tracked.frame (tracked : Tracked config state)
    (stepped : step config state (.frame handler user body arrival) = some next) :
    Tracked config next := by
  simp only [step] at stepped
  split at stepped
  · contradiction
  rename_i fresh
  cases stepped
  have named := (handle_spec handler config.moderation state.recentMsgIds body user arrival).1
  refine ⟨?_, ?_, ?_, ?_, ?_, tracked.fate⟩
  · exact fun item has => List.mem_cons_of_mem _ (tracked.hasIssued item has)
  · intro task member
    rcases List.mem_append.mp member with earlier | added
    · exact List.mem_cons_of_mem _ (tracked.submittedIssued task earlier)
    · rw [named task (Option.mem_toList.mp added)]
      exact List.mem_cons_self
  · exact fun entry member => List.mem_cons_of_mem _ (tracked.persistedIssued entry member)
  · intro task member item has
    rcases List.mem_append.mp member with earlier | added
    · exact tracked.submittedFresh task earlier item has
    · rw [named task (Option.mem_toList.mp added)]
      exact fun same => fresh (same ▸ tracked.hasIssued item has)
  · intro task member entry persisted
    rcases List.mem_append.mp member with earlier | added
    · exact tracked.apart task earlier entry persisted
    · rw [named task (Option.mem_toList.mp added)]
      exact fun same => fresh (same ▸ tracked.persistedIssued entry persisted)

theorem persist_eq_some (stepped : step config state (.persist msgId outcome memberIds) = some next) :
    ∃ task ∈ state.submitted, task.msgId = msgId ∧ next = { state with
      store := persist config outcome state.store (task.item memberIds)
      submitted := state.submitted.filter (fun task => task.msgId ≠ msgId)
      persisted := state.persisted ++ [(task, outcome)]
      sent := none } := by
  simp only [step] at stepped
  cases found : state.submitted.find? (fun task => task.msgId = msgId) with
  | none => simp [found] at stepped
  | some task =>
      simp only [found, Option.some.injEq] at stepped
      exact ⟨task, List.mem_of_find?_eq_some found,
        by simpa using List.find?_some found, stepped.symm⟩

theorem ack_eq_some (stepped : step config state (.ack msgId) = some next) :
    ∃ task outcome,
      state.persisted.find? (fun entry => entry.1.msgId = msgId) = some (task, outcome) ∧
      next = { state with
        persisted := state.persisted.filter (fun entry => entry.1.msgId ≠ msgId)
        sent := some (task.fromUser, .ack task.msgId task.clientMsgId) } := by
  simp only [step] at stepped
  cases found : state.persisted.find? (fun entry => entry.1.msgId = msgId) with
  | none => simp [found] at stepped
  | some entry =>
      simp only [found, Option.some.injEq] at stepped
      exact ⟨entry.1, entry.2, rfl, stepped.symm⟩

theorem Tracked.persist (tracked : Tracked config state)
    (stepped : step config state (.persist msgId outcome memberIds) = some next) :
    Tracked config next := by
  obtain ⟨task, member, named, rfl⟩ := persist_eq_some stepped
  have has_iff (other : QueueItem) :
      (MessageHandlers.persist config outcome state.store (task.item memberIds)).Has other ↔ _ :=
    has_persist_iff (fun row has => by rw [Task.msgId_item]; exact tracked.submittedFresh task member row has)
  have kept (task' : Task) (remains : task' ∈ state.submitted.filter (fun task => task.msgId ≠ msgId)) :
      task' ∈ state.submitted ∧ task'.msgId ≠ task.msgId := by
    have both := List.mem_filter.mp remains
    exact ⟨both.1, by rw [named]; simpa using both.2⟩
  refine ⟨?_, ?_, ?_, ?_, ?_, ?_⟩
  · intro item has
    rcases (has_iff item).mp has with earlier | ⟨_, rfl⟩
    · exact tracked.hasIssued item earlier
    · rw [Task.msgId_item]
      exact tracked.submittedIssued task member
  · exact fun task' remains => tracked.submittedIssued task' (kept task' remains).1
  · intro entry persisted
    rcases List.mem_append.mp persisted with earlier | added
    · exact tracked.persistedIssued entry earlier
    · rw [List.mem_singleton.mp added]
      exact tracked.submittedIssued task member
  · intro task' remains item has
    rcases (has_iff item).mp has with earlier | ⟨_, rfl⟩
    · exact tracked.submittedFresh task' (kept task' remains).1 item earlier
    · rw [Task.msgId_item]
      exact (kept task' remains).2.symm
  · intro task' remains entry persisted
    rcases List.mem_append.mp persisted with earlier | added
    · exact tracked.apart task' (kept task' remains).1 entry earlier
    · rw [List.mem_singleton.mp added]
      exact (kept task' remains).2.symm
  · intro entry persisted
    rcases List.mem_append.mp persisted with earlier | added
    · rw [← tracked.fate entry earlier]
      refine exists_congr (fun item => and_congr_left (fun names => ?_))
      rw [has_iff item, or_iff_left]
      intro given
      obtain ⟨_, rfl⟩ := given
      rw [Task.msgId_item] at names
      exact tracked.apart task member entry earlier names.1.symm
    · rw [List.mem_singleton.mp added, ← stores_item task memberIds]
      constructor
      · intro given
        obtain ⟨item, has, sameId, _⟩ := given
        rcases (has_iff item).mp has with earlier | ⟨stores, _⟩
        · exact absurd sameId (tracked.submittedFresh task member item earlier)
        · exact stores
      · intro stores
        exact ⟨task.item memberIds, (has_iff _).mpr (.inr ⟨stores, rfl⟩),
          Task.msgId_item task memberIds, Task.fromUser_item task memberIds⟩

theorem Tracked.ack (tracked : Tracked config state)
    (stepped : step config state (.ack msgId) = some next) : Tracked config next := by
  obtain ⟨task, outcome, _, rfl⟩ := ack_eq_some stepped
  have kept (entry : Task × PersistOutcome)
      (remains : entry ∈ state.persisted.filter (fun entry => entry.1.msgId ≠ msgId)) :
      entry ∈ state.persisted := (List.mem_filter.mp remains).1
  exact { tracked with
    persistedIssued := fun entry remains => tracked.persistedIssued entry (kept entry remains)
    apart := fun task member entry remains => tracked.apart task member entry (kept entry remains)
    fate := fun entry remains => tracked.fate entry (kept entry remains) }

theorem Tracked.step {event : Event} (tracked : Tracked config state)
    (stepped : (machine config).step state event = some next) : Tracked config next := by
  cases event with
  | frame handler user body arrival => exact tracked.frame stepped
  | persist msgId outcome memberIds => exact tracked.persist stepped
  | ack msgId => exact tracked.ack stepped

theorem ackStored_frame_iff (tracked : Tracked config state)
    (stepped : step config state (.frame handler user body arrival) = some next) :
    AckStored next ↔ ¬ Repeats state handler body arrival.msgId := by
  simp only [MessageHandlers.step] at stepped
  split at stepped
  · contradiction
  rename_i fresh
  cases stepped
  have acked := (handle_spec handler config.moderation state.recentMsgIds body user arrival).2
  constructor
  · intro stored given
    obtain ⟨arguments, checked, known⟩ := given
    have reply := (acked arrival.msgId arguments.clientMsgId).mpr
      ⟨rfl, arguments, checked, known, rfl⟩
    obtain ⟨item, has, named, _⟩ := stored user arrival.msgId arguments.clientMsgId
      (by simp only [reply, Option.map_some])
    exact fresh (named ▸ tracked.hasIssued item has)
  · intro first sender msgId clientMsgId sent
    obtain ⟨reply, answered, same⟩ := Option.map_eq_some_iff.mp sent
    cases same
    obtain ⟨_, arguments, checked, known, _⟩ := (acked msgId clientMsgId).mp answered
    exact absurd ⟨arguments, checked, known⟩ first

theorem ackStored_ack_iff (tracked : Tracked config state)
    (stepped : step config state (.ack msgId) = some next) :
    AckStored next ↔ AckBacked config state (.ack msgId) := by
  obtain ⟨task, outcome, found, rfl⟩ := ack_eq_some stepped
  have fate := tracked.fate (task, outcome) (List.mem_of_find?_eq_some found)
  simp only [AckBacked, found, Option.some.injEq, Prod.mk.injEq]
  constructor
  · intro stored task' outcome' given
    obtain ⟨rfl, rfl⟩ := given
    exact fate.mp (stored _ _ _ rfl)
  · intro backed sender msgId clientMsgId sent
    cases sent
    exact fate.mpr (backed task outcome ⟨rfl, rfl⟩)

/-- Throughout a run of the two handlers every ack names a stored message of
its receiver, exactly if no frame of the run is answered as a repeat and every
ack is for a message that some stage of the chain took.  No flush of the queue runs in
between: what it does with a message that the queue took is `MessageQueue`. -/
theorem ack_stored_iff_backed (config : Config) (events : List Event) :
    (machine config).Always AckStored {} events ↔
      (machine config).Meets (AckBacked config) {} events := by
  refine Machine.always_iff_meets (Tracked config) ?_ tracked_init
    (fun _ _ _ tracked stepped => tracked.step stepped) ?_
  · intro user msgId clientMsgId sent
    cases sent
  intro state event next tracked _ stepped
  cases event with
  | frame handler user body arrival => exact ackStored_frame_iff tracked stepped
  | ack msgId => exact ackStored_ack_iff tracked stepped
  | persist msgId outcome memberIds =>
      obtain ⟨task, _, _, rfl⟩ := persist_eq_some stepped
      exact iff_of_true nofun trivial

/-! ## A retry -/

private def greeting : Json :=
  .object [("to", .string "2"), ("content", .string "hello"), ("msgId", .string "c1")]

/-- The sender repeats a frame that was stored and acked as 101; the ack of the
repeat names 102. -/
private def retryAfterAck : List Event :=
  [.frame .privateMessage 1 greeting { msgId := "101" }, .persist "101" {} [], .ack "101",
    .frame .privateMessage 1 greeting { msgId := "102" }]

theorem retry_acks_unstored_id :
    ∃ state, (machine {}).run {} retryAfterAck = some state ∧
      state.sent = some (1, .ack "102" "c1") ∧ ¬ AckStored state := by
  refine ⟨_, rfl, rfl, fun stored => ?_⟩
  obtain ⟨item, queued | row, named, _⟩ := stored 1 "102" "c1" rfl
  · obtain ⟨same⟩ : QueueText.item item = .item (.privateMessage ⟨"101", 1, 2, "hello", 0⟩) :=
      List.mem_singleton.mp queued
    exact absurd named (by decide)
  · cases item <;> exact absurd row List.not_mem_nil

end MessageHandlers

end MuduoIm.Server
