import MuduoIm.Data.Json
import MuduoIm.Server.MessageStore
import MuduoIm.Transition.Machine

namespace MuduoIm.Server.MessageHandlers

open MuduoIm.Data MuduoIm.Transition

/-! # The private and group message handlers, up to the ack

A frame is checked on the IO thread, which may hand a task to the worker pool.
A worker then persists the message and sends the ack.  The delivery to the
receivers, which comes after the ack, is not part of this model.
-/

/-! ## Dedup set -/

/-- `isDuplicate`: the answer and the new `recentMsgIds_`, which is emptied
when it outgrows its bound. -/
def isDuplicate (recentMsgIds : List String) (msgId : String) : Bool × List String :=
  if msgId ∈ recentMsgIds then (true, recentMsgIds)
  else if (msgId :: recentMsgIds).length > 100000 then (false, [])
  else (false, msgId :: recentMsgIds)

/-! ## Fast path on the IO thread -/

/-- The answer of `checkText`. -/
inductive Moderation where
  | pass
  | review (reason : String)
  | block (reason : String)
deriving DecidableEq, Repr

inductive Reply where
  | error (message : String)
  | ack (msgId clientMsgId : String)
deriving DecidableEq, Repr

inductive FrameError where
  | illTyped
  | refused (message : String)
deriving DecidableEq, Repr

structure MessageArguments where
  target : Int
  content : String
  clientMsgId : String
deriving DecidableEq, Repr

def MessageArguments.dedupKey (arguments : MessageArguments) (msgId : String) : String :=
  if arguments.clientMsgId = "" then msgId else arguments.clientMsgId

def orThrow {α : Type} : Option α → Except FrameError α
  | some value => .ok value
  | none => .error .illTyped

/-- The checks that both handlers make on a frame; `invalidTarget` is the text
of the error about `to`. -/
def checkArguments (invalidTarget : String) (frame : Json) :
    Except FrameError MessageArguments := do
  let target ← orThrow (frame.valueString "to" "")
  let content ← orThrow (frame.valueString "content" "")
  let _ ← orThrow (frame.valueString "replyTo" "")
  if target = "" ∨ content = "" then
    .error (.refused "missing 'to' or 'content'")
  else if content.utf8ByteSize > 10000 then
    .error (.refused "message too long (max 10000 chars)")
  -- a `to` that is no number counts as 0
  else if (stoll target).getD 0 ≤ 0 then
    .error (.refused invalidTarget)
  else do
    let clientMsgId ← orThrow (frame.valueString "msgId" "")
    .ok { target := (stoll target).getD 0, content, clientMsgId }

/-- What a task captures.  The group task resolves its `mentions` against the
members of the group only when it runs. -/
inductive Task where
  | privateMessage (clientMsgId : String) (message : PrivateMessage)
  | groupMessage (clientMsgId : String) (message : GroupMessage) (mentions : List Json)
deriving Repr

namespace Task

def msgId : Task → String
  | .privateMessage _ message => message.msgId
  | .groupMessage _ message _ => message.msgId

def fromUser : Task → Int
  | .privateMessage _ message => message.fromUser
  | .groupMessage _ message _ => message.fromUser

def clientMsgId : Task → String
  | .privateMessage clientMsgId _ => clientMsgId
  | .groupMessage clientMsgId _ _ => clientMsgId

end Task

/-- What the environment contributes to one frame: the id that
`generateServerMsgId` issues, the verdict of `checkText`, the clock, and
whether `submitAffinity` takes the task. -/
structure Arrival where
  msgId : String
  verdict : Moderation := .pass
  now : Int := 0
  submitted : Bool := true
deriving DecidableEq, Repr

structure FastPath where
  recentMsgIds : List String
  reply : Option Reply
  task : Option Task

/-- The fast path that the two handlers share. -/
def handleFrame (invalidTarget blocked : String) (toTask : MessageArguments → Task)
    (moderation : Bool) (recentMsgIds : List String) (frame : Json) (arrival : Arrival) :
    FastPath :=
  match checkArguments invalidTarget frame with
  | .error .illTyped => ⟨recentMsgIds, none, none⟩
  | .error (.refused message) => ⟨recentMsgIds, some (.error message), none⟩
  | .ok arguments =>
      match isDuplicate recentMsgIds (arguments.dedupKey arrival.msgId) with
      -- the ack of a repeat names the id that was just issued for the repeat
      | (true, recent) => ⟨recent, some (.ack arrival.msgId arguments.clientMsgId), none⟩
      | (false, recent) =>
          match if moderation then arrival.verdict else .pass with
          | .block reason => ⟨recent, some (.error (blocked ++ reason)), none⟩
          | _ =>
              if arrival.submitted then ⟨recent, none, some (toTask arguments)⟩
              else ⟨recent, some (.error "server busy, retry later"), none⟩

inductive Handler where
  | privateMessage
  | groupMessage
deriving DecidableEq, Repr

def Handler.invalidTarget : Handler → String
  | .privateMessage => "invalid 'to'"
  | .groupMessage => "invalid group id"

def handlePrivateMessage (moderation : Bool) (recentMsgIds : List String) (frame : Json)
    (fromUserId : Int) (arrival : Arrival) : FastPath :=
  handleFrame (Handler.invalidTarget .privateMessage) "message blocked: "
    (fun arguments => .privateMessage arguments.clientMsgId {
      msgId := arrival.msgId, fromUser := fromUserId, toUser := arguments.target,
      content := arguments.content, timestamp := arrival.now })
    moderation recentMsgIds frame arrival

def handleGroupMessage (moderation : Bool) (recentMsgIds : List String) (frame : Json)
    (fromUserId : Int) (arrival : Arrival) : FastPath :=
  handleFrame (Handler.invalidTarget .groupMessage) "group message blocked: "
    (fun arguments => .groupMessage arguments.clientMsgId {
      msgId := arrival.msgId, groupId := arguments.target, fromUser := fromUserId,
      content := arguments.content, timestamp := arrival.now, mentions := none }
      (frame.arrayMember "mentions"))
    moderation recentMsgIds frame arrival

def Handler.handle : Handler → Bool → List String → Json → Int → Arrival → FastPath
  | .privateMessage => handlePrivateMessage
  | .groupMessage => handleGroupMessage

variable {invalidTarget blocked : String} {toTask : MessageArguments → Task} {moderation : Bool}
variable {recentMsgIds : List String} {frame : Json} {arrival : Arrival} {task : Task}

theorem bind_eq_ok {ε α β : Type} {first : Except ε α} {rest : α → Except ε β} {result : β} :
    (first >>= rest) = .ok result ↔ ∃ value, first = .ok value ∧ rest value = .ok result := by
  cases first with
  | error reason => simp [bind, Except.bind]
  | ok value => simp [bind, Except.bind]

theorem orThrow_eq_ok {α : Type} {read : Option α} {value : α} : orThrow read = .ok value ↔ read = some value := by
  cases read <;> simp [orThrow]

/-- Arguments that pass the checks are those of the frame. -/
theorem checkArguments_ok {arguments : MessageArguments}
    (checked : checkArguments invalidTarget frame = .ok arguments) :
    ∃ target, frame.valueString "to" "" = some target ∧ stoll target = some arguments.target ∧
      0 < arguments.target ∧ frame.valueString "content" "" = some arguments.content ∧ arguments.content ≠ "" := by
  obtain ⟨target, addressed, checked⟩ := bind_eq_ok.mp checked
  obtain ⟨content, given, checked⟩ := bind_eq_ok.mp checked
  obtain ⟨replyTo, _, checked⟩ := bind_eq_ok.mp checked
  split at checked
  · cases checked
  · rename_i present
    split at checked
    · cases checked
    · split at checked
      · cases checked
      · rename_i positive
        obtain ⟨clientMsgId, _, checked⟩ := bind_eq_ok.mp checked
        cases checked
        cases read : stoll target with
        | none => exact absurd (by simp [read]) positive
        | some value =>
            simp only [read, Option.getD_some] at positive ⊢
            exact ⟨target, orThrow_eq_ok.mp addressed, read, by omega, orThrow_eq_ok.mp given, (not_or.mp present).2⟩

/-- A target that passes the checks is a positive `int64_t`. -/
theorem checkArguments_target {arguments : MessageArguments}
    (checked : checkArguments invalidTarget frame = .ok arguments) :
    0 < arguments.target ∧ arguments.target < 2 ^ 63 := by
  obtain ⟨target, _, read, positive, _⟩ := checkArguments_ok checked
  exact ⟨positive, (stoll_range read).2⟩

theorem handleFrame_task
    (handed : (handleFrame invalidTarget blocked toTask moderation recentMsgIds frame arrival).task = some task) :
    ∃ arguments, checkArguments invalidTarget frame = .ok arguments ∧ task = toTask arguments := by
  simp only [handleFrame] at handed
  cases checked : checkArguments invalidTarget frame with
  | error reason => cases reason <;> simp [checked] at handed
  | ok arguments =>
      refine ⟨arguments, rfl, ?_⟩
      simp only [checked] at handed
      split at handed
      · cases handed
      · split at handed
        · cases handed
        · split at handed
          · exact (Option.some.inj handed).symm
          · cases handed

/-! ## Slow path on a worker -/

/-- Which optional components the server was built with. -/
structure Config where
  outboxService : Bool := false
  redisPool : Bool := true
  moderation : Bool := true
deriving DecidableEq, Repr

/-- The answers to the statements of the outbox transaction. -/
structure OutboxOutcome where
  acquired : Bool := true
  active : Bool := true
  savedRow : Bool := true
  outboxRow : Bool := true
  committed : Bool := true
deriving DecidableEq, Repr

/-- What a task meets while it persists its message. `saved` is for the save
without a Redis pool. -/
structure PersistOutcome where
  outbox : OutboxOutcome := {}
  queue : QueueOutcome := {}
  saved : Bool := true
deriving DecidableEq, Repr

/-- Group members who are mentioned: ids as strings or integers, without the
sender and without strangers. -/
def mentionIds (memberIds : List Int) (fromUser : Int) (mentions : List Json) : List Int :=
  mentions.filterMap fun mention =>
    let uid := match mention with
      | .string text => (stoll text).getD 0
      | .integer value => value.bmod (2 ^ 64)
      | _ => 0
    if uid ≤ 0 ∨ uid = fromUser ∨ uid ∉ memberIds then none else some uid

/-- The dump of a nonempty array of ids; NULL otherwise. -/
def mentionsColumn (mentions : List Int) : Option String :=
  if mentions = [] then none
  else some ("[" ++ String.intercalate "," (mentions.map toString) ++ "]")

/-- The transaction of the outbox branch, and whether it was committed.  A
transaction that does not reach its COMMIT leaves the tables as they were. -/
def outboxTransaction (outcome : OutboxOutcome) (store : MessageStore)
    (message : PrivateMessage) : Bool × MessageStore :=
  if outcome.acquired && outcome.active then
    let (savedRow, tables) := store.tables.savePrivateMessage outcome.savedRow message
    if savedRow && outcome.outboxRow && outcome.committed then (true, { store with tables })
    else (false, store)
  else (false, store)

def persistPrivate (config : Config) (outcome : PersistOutcome) (store : MessageStore)
    (message : PrivateMessage) : MessageStore :=
  let (persisted, store) :=
    if config.outboxService then outboxTransaction outcome.outbox store message else (false, store)
  if persisted then store
  else if config.redisPool then store.queueMessage true outcome.queue (.item (.privateMessage message))
  else { store with tables := (store.tables.savePrivateMessage outcome.saved message).2 }

def persistGroup (config : Config) (outcome : PersistOutcome) (store : MessageStore)
    (message : GroupMessage) : MessageStore :=
  if config.redisPool then store.queueMessage true outcome.queue (.item (.groupMessage message))
  else { store with tables := (store.tables.saveGroupMessage outcome.saved message).2 }

/-- The item that a task persists; `memberIds` is the answer of
`getMemberIds`. -/
def Task.item (memberIds : List Int) : Task → QueueItem
  | .privateMessage _ message => .privateMessage message
  | .groupMessage _ message mentions => .groupMessage { message with
      mentions := mentionsColumn (mentionIds memberIds message.fromUser mentions) }

def persist (config : Config) (outcome : PersistOutcome) (store : MessageStore) :
    QueueItem → MessageStore
  | .privateMessage message => persistPrivate config outcome store message
  | .groupMessage message => persistGroup config outcome store message

/-! ## The server as a machine -/

/-- `issued` is history: the ids that `generateServerMsgId` has returned.
`sent` is the frame that the last step sent to a sender, if any. -/
structure State where
  recentMsgIds : List String := []
  store : MessageStore := {}
  submitted : List Task := []
  persisted : List (Task × PersistOutcome) := []
  issued : List String := []
  sent : Option (Int × Reply) := none

/-- Workers take tasks in any order; between the persistence of a message and
its ack, other tasks and frames may run. -/
inductive Event where
  | frame (handler : Handler) (user : Int) (frame : Json) (arrival : Arrival)
  | persist (msgId : String) (outcome : PersistOutcome) (memberIds : List Int)
  | ack (msgId : String)

def step (config : Config) (state : State) : Event → Option State
  | .frame handler user frame arrival =>
      if arrival.msgId ∈ state.issued then none
      else
        let path := handler.handle config.moderation state.recentMsgIds frame user arrival
        some { state with
          recentMsgIds := path.recentMsgIds
          submitted := state.submitted ++ path.task.toList
          issued := arrival.msgId :: state.issued
          sent := path.reply.map (fun reply => (user, reply)) }
  | .persist msgId outcome memberIds =>
      match state.submitted.find? (fun task => task.msgId = msgId) with
      | none => none
      | some task => some { state with
          store := persist config outcome state.store (task.item memberIds)
          submitted := state.submitted.filter (fun task => task.msgId ≠ msgId)
          persisted := state.persisted ++ [(task, outcome)]
          sent := none }
  | .ack msgId =>
      match state.persisted.find? (fun entry => entry.1.msgId = msgId) with
      | none => none
      | some (task, _) => some { state with
          persisted := state.persisted.filter (fun entry => entry.1.msgId ≠ msgId)
          sent := some (task.fromUser, .ack task.msgId task.clientMsgId) }

def machine (config : Config) : Machine State Event := ⟨step config⟩

end MuduoIm.Server.MessageHandlers
