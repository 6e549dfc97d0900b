import MuduoIm.Server.MessageHandlers

namespace MuduoIm.Server.MessageHandlers

open MuduoIm.Data MuduoIm.Transition

/-! # Duplicate suppression over a sequence of frames

`isDuplicate` records the key of a frame before the frame is moderated or
handed to the worker pool, and one set serves all users and both kinds of
message.  The machine takes frames one after the other and keeps a log of what
each came to.
-/

/-- The frame is answered as a repeat: acked on the spot, with no task. -/
def FastPath.isRepeat (path : FastPath) : Bool :=
  match path.reply with
  | some (.ack ..) => path.task.isNone
  | _ => false

/-- One frame: `arguments` is there when it is valid, `msgId` is the id issued
for it. -/
structure FrameRecord where
  user : Int
  arguments : Option MessageArguments
  msgId : String
  path : FastPath

namespace FrameRecord

def clientMsgId (record : FrameRecord) : Option String :=
  record.arguments.map MessageArguments.clientMsgId

/-- What `isDuplicate` was asked about. -/
def dedupKey (record : FrameRecord) : Option String :=
  record.arguments.map (fun arguments => arguments.dedupKey record.msgId)

/-- The task of the frame was handed to the worker pool. -/
def accepted (record : FrameRecord) : Bool := record.path.task.isSome

/-- The frame left `recentMsgIds_` with ids in it. -/
def leavesIds (record : FrameRecord) : Bool := record.path.recentMsgIds ≠ []

end FrameRecord

namespace Dedup

/-- The log holds the newest frame first. -/
structure State where
  recentMsgIds : List String := []
  log : List FrameRecord := []

inductive Event where
  | frame (handler : Handler) (user : Int) (frame : Json) (arrival : Arrival)

def record (moderation : Bool) (recentMsgIds : List String) (handler : Handler) (user : Int)
    (frame : Json) (arrival : Arrival) : FrameRecord where
  user := user
  arguments := (checkArguments handler.invalidTarget frame).toOption
  msgId := arrival.msgId
  path := handler.handle moderation recentMsgIds frame user arrival

def step (moderation : Bool) (state : State) : Event → Option State
  | .frame handler user frame arrival =>
      let taken := record moderation state.recentMsgIds handler user frame arrival
      some { recentMsgIds := taken.path.recentMsgIds, log := taken :: state.log }

def machine (moderation : Bool) : Machine State Event := ⟨step moderation⟩

/-- The user's frame with this client id was handed to the worker pool. -/
def AcceptedIn (log : List FrameRecord) (user : Int) (clientMsgId : String) : Prop :=
  ∃ earlier ∈ log, earlier.accepted = true ∧ earlier.user = user ∧
    earlier.clientMsgId = some clientMsgId

/-- The frame is answered as a repeat only if the frame that it repeats was
accepted, and is so answered if at most 50000 frames lie between. -/
def ExactFrame (frame : FrameRecord) (earlier : List FrameRecord) : Prop :=
  ∀ clientMsgId, frame.clientMsgId = some clientMsgId → clientMsgId ≠ "" →
    (frame.path.isRepeat = true → AcceptedIn earlier frame.user clientMsgId) ∧
      (AcceptedIn (earlier.take 50001) frame.user clientMsgId → frame.path.isRepeat = true)

def ExactLog : List FrameRecord → Prop
  | [] => True
  | frame :: earlier => ExactFrame frame earlier ∧ ExactLog earlier

def Exact (state : State) : Prop := ExactLog state.log

/-- Some frame has used the key since a frame last left the set empty. -/
def KeyUsed (log : List FrameRecord) (key : String) : Prop :=
  ∃ earlier ∈ log.takeWhile FrameRecord.leavesIds, earlier.dedupKey = some key

/-- The key of a frame with a client id is in use only if the user's own frame
was accepted under it, and stays in use for the 50000 frames after that. -/
def KeyIsOwn (state : State) : Event → Prop
  | .frame handler user frame _ =>
      ∀ arguments, checkArguments handler.invalidTarget frame = .ok arguments →
        arguments.clientMsgId ≠ "" →
        (KeyUsed state.log arguments.clientMsgId →
            AcceptedIn state.log user arguments.clientMsgId) ∧
          (AcceptedIn (state.log.take 50001) user arguments.clientMsgId →
            KeyUsed state.log arguments.clientMsgId)

/-! ## What the fast path does with the set -/

variable {moderation : Bool} {recentMsgIds : List String} {body : Json} {arrival : Arrival}
variable {handler : Handler} {user : Int} {arguments : MessageArguments} {key : String}

/-- Unless the set was emptied, it holds the key that was asked about and what
it held before. -/
theorem mem_isDuplicate_snd {asked : String} (kept : (isDuplicate recentMsgIds asked).2 ≠ []) :
    key ∈ (isDuplicate recentMsgIds asked).2 ↔ asked = key ∨ key ∈ recentMsgIds := by
  by_cases known : asked ∈ recentMsgIds
  · simp only [isDuplicate, known, if_true]
    constructor
    · exact Or.inr
    · intro given
      rcases given with rfl | earlier
      · exact known
      · exact earlier
  · simp only [isDuplicate, known, if_false] at kept ⊢
    by_cases outgrown : (asked :: recentMsgIds).length > 100000
    · rw [if_pos outgrown] at kept
      contradiction
    · rw [if_neg outgrown]
      simp only [List.mem_cons, eq_comm]

theorem toOption_eq_some {invalidTarget : String} :
    (checkArguments invalidTarget body).toOption = some arguments ↔
      checkArguments invalidTarget body = .ok arguments := by
  cases checkArguments invalidTarget body with
  | error reason => simp [Except.toOption]
  | ok found => simp [Except.toOption]

theorem handleFrame_invalid {invalidTarget blocked : String} {toTask : MessageArguments → Task}
    (invalid : (checkArguments invalidTarget body).toOption = none) :
    (handleFrame invalidTarget blocked toTask moderation recentMsgIds body arrival).recentMsgIds =
      recentMsgIds := by
  simp only [handleFrame]
  cases checked : checkArguments invalidTarget body with
  | error reason => cases reason <;> rfl
  | ok arguments => simp [checked, Except.toOption] at invalid

theorem handleFrame_valid {invalidTarget blocked : String} {toTask : MessageArguments → Task}
    (valid : (checkArguments invalidTarget body).toOption = some arguments) :
    let path := handleFrame invalidTarget blocked toTask moderation recentMsgIds body arrival
    path.recentMsgIds = (isDuplicate recentMsgIds (arguments.dedupKey arrival.msgId)).2 ∧
      (path.isRepeat = true ↔ arguments.dedupKey arrival.msgId ∈ recentMsgIds) := by
  simp only [handleFrame, toOption_eq_some.mp valid]
  by_cases known : arguments.dedupKey arrival.msgId ∈ recentMsgIds
  · simp [isDuplicate, known, FastPath.isRepeat]
  · have fresh : (isDuplicate recentMsgIds (arguments.dedupKey arrival.msgId)).1 = false := by
      simp only [isDuplicate, known, if_false]
      split <;> rfl
    rw [show isDuplicate recentMsgIds (arguments.dedupKey arrival.msgId) =
      (false, (isDuplicate recentMsgIds (arguments.dedupKey arrival.msgId)).2) from
        Prod.ext fresh rfl]
    simp only [known, iff_false]
    split
    · exact ⟨rfl, by simp [FastPath.isRepeat]⟩
    · split <;> exact ⟨rfl, by simp [FastPath.isRepeat]⟩

theorem record_invalid
    (invalid : (record moderation recentMsgIds handler user body arrival).arguments = none) :
    (record moderation recentMsgIds handler user body arrival).path.recentMsgIds = recentMsgIds := by
  cases handler with
  | privateMessage => exact handleFrame_invalid invalid
  | groupMessage => exact handleFrame_invalid invalid

theorem record_valid
    (valid : (record moderation recentMsgIds handler user body arrival).arguments = some arguments) :
    (record moderation recentMsgIds handler user body arrival).path.recentMsgIds =
        (isDuplicate recentMsgIds (arguments.dedupKey arrival.msgId)).2 ∧
      ((record moderation recentMsgIds handler user body arrival).path.isRepeat = true ↔
        arguments.dedupKey arrival.msgId ∈ recentMsgIds) := by
  cases handler with
  | privateMessage => exact handleFrame_valid valid
  | groupMessage => exact handleFrame_valid valid

/-! ## The set and the log -/

/-- The set holds the keys of the frames since it was last left empty. -/
def KeysLogged (state : State) : Prop :=
  ∀ key, key ∈ state.recentMsgIds ↔ KeyUsed state.log key

theorem keysLogged_init : KeysLogged {} := by
  intro key
  simp [KeyUsed]

theorem keyUsed_cons {frame : FrameRecord} {log : List FrameRecord} :
    KeyUsed (frame :: log) key ↔
      frame.leavesIds = true ∧ (frame.dedupKey = some key ∨ KeyUsed log key) := by
  cases leaves : frame.leavesIds <;> simp [KeyUsed, leaves]

variable {state next : State} {event : Event}

theorem KeysLogged.step (logged : KeysLogged state)
    (stepped : (machine moderation).step state event = some next) : KeysLogged next := by
  obtain ⟨handler, user, body, arrival⟩ := event
  cases stepped
  intro key
  let frame := record moderation state.recentMsgIds handler user body arrival
  change key ∈ frame.path.recentMsgIds ↔ KeyUsed (frame :: state.log) key
  rw [keyUsed_cons]
  by_cases emptied : frame.path.recentMsgIds = []
  · simp [FrameRecord.leavesIds, emptied]
  have leaves : frame.leavesIds = true := by simp [FrameRecord.leavesIds, emptied]
  simp only [leaves, true_and]
  cases valid : frame.arguments with
  | none =>
      have unused : frame.dedupKey ≠ some key := by simp [FrameRecord.dedupKey, valid]
      rw [show frame.path.recentMsgIds = state.recentMsgIds from record_invalid valid, logged key]
      simp [unused]
  | some arguments =>
      have asked := (record_valid valid).1
      have named : frame.dedupKey = some (arguments.dedupKey arrival.msgId) := by
        simp only [FrameRecord.dedupKey, valid, Option.map_some]
        rfl
      rw [show frame.path.recentMsgIds = _ from asked] at emptied ⊢
      rw [mem_isDuplicate_snd emptied, logged key, named, Option.some.injEq]

theorem exact_iff_keyIsOwn (logged : KeysLogged state) (exact : Exact state)
    (stepped : (machine moderation).step state event = some next) :
    Exact next ↔ KeyIsOwn state event := by
  obtain ⟨handler, user, body, arrival⟩ := event
  cases stepped
  let frame := record moderation state.recentMsgIds handler user body arrival
  have earlier : ExactLog state.log := exact
  change ExactFrame frame state.log ∧ ExactLog state.log ↔ _
  simp only [earlier, and_true, KeyIsOwn]
  -- for a frame with a client id, "is a repeat" reads "its id is in use"
  have repeats (arguments : MessageArguments) (valid : frame.arguments = some arguments)
      (named : arguments.clientMsgId ≠ "") :
      frame.path.isRepeat = true ↔ KeyUsed state.log arguments.clientMsgId := by
    have answer : frame.path.isRepeat = true ↔ _ := (record_valid valid).2
    rw [answer, logged, MessageArguments.dedupKey, if_neg named]
  constructor
  · intro kept arguments checked named
    have valid : frame.arguments = some arguments := toOption_eq_some.mpr checked
    have exactly := kept arguments.clientMsgId (by simp [FrameRecord.clientMsgId, valid]) named
    rw [repeats arguments valid named] at exactly
    exact exactly
  · intro own clientMsgId given named
    obtain ⟨arguments, valid, rfl⟩ := Option.map_eq_some_iff.mp given
    have checked : checkArguments handler.invalidTarget body = .ok arguments :=
      toOption_eq_some.mp valid
    rw [repeats arguments valid named]
    exact own arguments checked named

/-- Suppression is exact throughout a sequence of frames exactly if each frame
with a client id finds the id in use only when its user's frame was accepted
under it, and always when that was at most 50000 frames ago. -/
theorem dedup_exact_iff (moderation : Bool) (events : List Event) :
    (machine moderation).Always Exact {} events ↔
      (machine moderation).Meets KeyIsOwn {} events :=
  Machine.always_iff_meets KeysLogged trivial keysLogged_init
    (fun _ _ _ logged stepped => logged.step stepped)
    (fun _ _ _ logged exact stepped => exact_iff_keyIsOwn logged exact stepped)

/-! ## A foreign client id -/

private def greets (target : String) : Json :=
  .object [("to", .string target), ("content", .string "hello"), ("msgId", .string "c1")]

/-- Two users choose the same client id. -/
private def sameClientId : List Event :=
  [.frame .privateMessage 1 (greets "2") { msgId := "101" },
    .frame .privateMessage 3 (greets "4") { msgId := "102" }]

theorem foreign_client_id_suppresses :
    ∃ state, (machine true).run {} sameClientId = some state ∧ ¬ Exact state ∧
      ∃ frame earlier, state.log = frame :: earlier ∧ frame.path.isRepeat = true ∧
        ¬ AcceptedIn earlier 3 "c1" := by
  have unaccepted (earlier : FrameRecord) (user : earlier.user = 1) :
      ¬ AcceptedIn [earlier] 3 "c1" := by
    intro accepted
    obtain ⟨found, member, _, sender, _⟩ := accepted
    rw [List.mem_singleton.mp member, user] at sender
    exact absurd sender (by decide)
  refine ⟨_, rfl, fun exact => ?_, _, _, rfl, rfl, unaccepted _ rfl⟩
  have suppressed := (exact.1 "c1" rfl (by decide)).1 rfl
  exact unaccepted _ rfl suppressed

end Dedup

end MuduoIm.Server.MessageHandlers
