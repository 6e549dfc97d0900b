import MuduoIm.Server.MessageQueue.Conservation

namespace MuduoIm.Server.Recall

open MuduoIm.Transition MuduoIm.Server

/-! # Recalling a message

`handleRecall` hands a task to the worker pool.  The task runs one flush of the
message queue and then marks the row of the message.  The machine interleaves
any number of these tasks with the pushes and flushes of `MessageQueue`; a
flush that a task runs bears the name of the task.
-/

/-- The column `recalled` of both tables: the ids of the rows where it is 1.
It is 0 in a new row. -/
structure RecalledRows where
  privateMessages : List String := []
  groupMessages : List String := []
deriving DecidableEq, Repr

def RecalledRows.Has (recalled : RecalledRows) : QueueItem → Prop
  | .privateMessage message => message.msgId ∈ recalled.privateMessages
  | .groupMessage message => message.msgId ∈ recalled.groupMessages

instance (recalled : RecalledRows) (item : QueueItem) : Decidable (recalled.Has item) :=
  match item with
  | .privateMessage message => inferInstanceAs (Decidable (message.msgId ∈ recalled.privateMessages))
  | .groupMessage message => inferInstanceAs (Decidable (message.msgId ∈ recalled.groupMessages))

end MuduoIm.Server.Recall

namespace MuduoIm.Server.QueueItem

def timestamp : QueueItem → Int
  | .privateMessage message => message.timestamp
  | .groupMessage message => message.timestamp

end MuduoIm.Server.QueueItem

namespace MuduoIm.Server.Recall

open MuduoIm.Transition MuduoIm.Server

/-- The WHERE clause of both updates; the frame has the id of the row. -/
def Selects (msgId : String) (fromUserId twoMinAgo : Int) (recalled : List String)
    (row : QueueItem) : Prop :=
  row.msgId = msgId ∧ row.fromUser = fromUserId ∧ row.timestamp > twoMinAgo ∧
    row.msgId ∉ recalled

instance (msgId : String) (fromUserId twoMinAgo : Int) (recalled : List String) (row : QueueItem) :
    Decidable (Selects msgId fromUserId twoMinAgo recalled row) := by
  unfold Selects; infer_instance

/-- `UPDATE … SET recalled=1`: the ids of the affected rows. -/
def affectedRows (rows : List QueueItem) (msgId : String) (fromUserId twoMinAgo : Int)
    (recalled : List String) : List String :=
  (rows.filter (fun row => Selects msgId fromUserId twoMinAgo recalled row)).map QueueItem.msgId

def recallMessage (tables : MessageTables) (recalled : RecalledRows) (msgId : String)
    (fromUserId now : Int) : Bool × RecalledRows :=
  let twoMinAgo := now - 120000
  let affected := affectedRows (tables.privateMessages.map .privateMessage) msgId fromUserId
    twoMinAgo recalled.privateMessages
  if affected.length ≤ 0 then
    let affected := affectedRows (tables.groupMessages.map .groupMessage) msgId fromUserId
      twoMinAgo recalled.groupMessages
    (affected.length > 0, { recalled with groupMessages := affected ++ recalled.groupMessages })
  else (true, { recalled with privateMessages := affected ++ recalled.privateMessages })

/-- What the task captures; `acknowledged` is history: what had been
acknowledged when the sender asked. -/
structure RecallRequest where
  msgId : String
  fromUserId : Int
  acknowledged : List QueueItem
deriving DecidableEq, Repr

inductive RecallPhase where
  | none
  | submitted (request : RecallRequest)
  | flushing (request : RecallRequest)
  | flushed (request : RecallRequest)
deriving DecidableEq, Repr

def RecallPhase.request : RecallPhase → Option RecallRequest
  | .none => Option.none
  | .submitted request => some request
  | .flushing request => some request
  | .flushed request => some request

/-- `settled` is history: the messages whose recall was due when
`recallMessage` ran for them, with what it returned. -/
structure State (Call : Type) where
  base : MessageQueue.State Call := {}
  recalled : RecalledRows := {}
  acknowledged : List QueueItem := []
  recalls : Call → RecallPhase := fun _ => .none
  settled : List (QueueItem × Bool) := []

inductive Event (Call : Type) where
  | queue (event : MessageQueue.Event Call)
  | ack (item : QueueItem)
  | handleRecall (call : Call) (msgId : String) (fromUserId : Int)
  | recallMessage (call : Call) (now : Int)
deriving DecidableEq, Repr

/-- The recall that was asked for must take effect on the item: it was
acknowledged to the sender before, it is his, it is recent, and no recall has
marked it. -/
def Due (request : RecallRequest) (now : Int) (recalled : RecalledRows) (item : QueueItem) : Prop :=
  item ∈ request.acknowledged ∧ item.msgId = request.msgId ∧ item.fromUser = request.fromUserId ∧
    now < item.timestamp + 120000 ∧ ¬ recalled.Has item

instance (request : RecallRequest) (now : Int) (recalled : RecalledRows) (item : QueueItem) :
    Decidable (Due request now recalled item) := by
  unfold Due; infer_instance

variable {Call : Type} [DecidableEq Call]

def step (state : State Call) : Event Call → Option (State Call)
  | .queue event =>
      (MessageQueue.step state.base event).bind fun base =>
        match event with
        | .lrange call =>
            match state.recalls call with
            | .none => some { state with base }
            -- an empty queue ends the flush here
            | .submitted request => some { state with
                base
                recalls := Function.update state.recalls call
                  (if base.flushes call = .idle then .flushed request else .flushing request) }
            | _ => none
        | .finish call =>
            match state.recalls call with
            | .flushing request => some { state with
                base
                recalls := Function.update state.recalls call (.flushed request) }
            | _ => some { state with base }
        | _ => some { state with base }
  | .ack item =>
      if item ∈ state.base.pushed then
        some { state with acknowledged := item :: state.acknowledged }
      else none
  | .handleRecall call msgId fromUserId =>
      -- a frame without `msgId` is answered with an error
      if msgId = "" then some state
      else if state.recalls call = .none ∧ state.base.flushes call = .idle then
        some { state with
          recalls := Function.update state.recalls call
            (.submitted ⟨msgId, fromUserId, state.acknowledged⟩) }
      else none
  | .recallMessage call now =>
      match state.recalls call with
      | .flushed request =>
          let updated := recallMessage state.base.store.tables state.recalled request.msgId
            request.fromUserId now
          some { state with
            recalled := updated.2
            recalls := Function.update state.recalls call .none
            settled := state.settled ++
              (request.acknowledged.filter (fun item => Due request now state.recalled item)).map
                (fun item => (item, updated.1)) }
      | _ => none

def machine (Call : Type) [DecidableEq Call] : Machine (State Call) (Event Call) := ⟨step⟩

/-! ## What each step does -/

variable {state next : State Call} {call : Call} {now : Int}

theorem queue_eq_some {event : MessageQueue.Event Call}
    (stepped : step state (.queue event) = some next) :
    ∃ base recalls, MessageQueue.step state.base event = some base ∧
      next = { state with base, recalls } ∧
      ∀ other, (recalls other).request = (state.recalls other).request := by
  simp only [step, Option.bind_eq_some_iff] at stepped
  obtain ⟨base, flushed, stepped⟩ := stepped
  refine ⟨base, next.recalls, flushed, ?_⟩
  have moved {moving : Call} {phase : RecallPhase}
      (same : phase.request = (state.recalls moving).request) (other : Call) :
      (Function.update state.recalls moving phase other).request =
        (state.recalls other).request := by
    by_cases here : other = moving
    · rw [here, Function.update_self, same]
    · rw [Function.update_of_ne here]
  cases event with
  | lrange call =>
      simp only at stepped
      split at stepped
      · cases stepped
        exact ⟨rfl, fun _ => rfl⟩
      · rename_i request current
        cases stepped
        refine ⟨rfl, moved ?_⟩
        rw [current]
        split <;> rfl
      · contradiction
  | finish call =>
      simp only at stepped
      split at stepped
      · rename_i request current
        cases stepped
        exact ⟨rfl, moved (by rw [current]; rfl)⟩
      · cases stepped
        exact ⟨rfl, fun _ => rfl⟩
  | queueMessage item =>
      cases stepped
      exact ⟨rfl, fun _ => rfl⟩
  | ltrim call =>
      cases stepped
      exact ⟨rfl, fun _ => rfl⟩
  | save call =>
      cases stepped
      exact ⟨rfl, fun _ => rfl⟩

theorem ack_eq_some {item : QueueItem} (stepped : step state (.ack item) = some next) :
    item ∈ state.base.pushed ∧
      next = { state with acknowledged := item :: state.acknowledged } := by
  simp only [step] at stepped
  split at stepped
  · rename_i pushed
    cases stepped
    exact ⟨pushed, rfl⟩
  · contradiction

theorem handleRecall_eq_some {msgId : String} {fromUserId : Int}
    (stepped : step state (.handleRecall call msgId fromUserId) = some next) :
    next = state ∨
      next = { state with
        recalls := Function.update state.recalls call
          (.submitted ⟨msgId, fromUserId, state.acknowledged⟩) } := by
  simp only [step] at stepped
  split at stepped
  · cases stepped
    exact .inl rfl
  · split at stepped
    · cases stepped
      exact .inr rfl
    · contradiction

theorem recallMessage_eq_some (stepped : step state (.recallMessage call now) = some next) :
    ∃ request, state.recalls call = .flushed request ∧
      next = { state with
        recalled := (recallMessage state.base.store.tables state.recalled request.msgId
          request.fromUserId now).2
        recalls := Function.update state.recalls call .none
        settled := state.settled ++
          (request.acknowledged.filter (fun item => Due request now state.recalled item)).map
            (fun item => (item, (recallMessage state.base.store.tables state.recalled
              request.msgId request.fromUserId now).1)) } := by
  simp only [step] at stepped
  cases current : state.recalls call with
  | flushed request =>
      simp only [current] at stepped
      cases stepped
      exact ⟨request, rfl, rfl⟩
  | none => simp [current] at stepped
  | submitted request => simp [current] at stepped
  | flushing request => simp [current] at stepped

end MuduoIm.Server.Recall
