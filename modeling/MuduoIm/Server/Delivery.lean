import MuduoIm.Server.MessageHandlers.File
import MuduoIm.Server.OnlineManager

namespace MuduoIm.Server.Delivery

open MuduoIm.Data MuduoIm.Server MuduoIm.Server.MessageHandlers

/-! # Delivery of private and file messages

What a worker does after the ack, on any number of instances with an online
table each.
-/

/-- A frame that an instance sends to a session of a user. -/
structure Sent (Instance Session : Type) where
  server : Instance
  user : Int
  session : Session
  frame : Frame

/-- The Redis counters, by receiver and sender. -/
abbrev Unread := Table (Int × Int) Nat

def getUnread (unread : Unread) (userId peerId : Int) : Nat := (unread.lookup (userId, peerId)).getD 0

def incrementUnread (unread : Unread) (userId peerId : Int) : Unread :=
  unread.insert (userId, peerId) (getUnread unread userId peerId + 1)

/-- The user whom the callback of the subscription finds in a payload. -/
def targetOf (payload : Json) : Option Int := do
  let named ← payload.valueString "to" ""
  let target ← if named = "" then payload.valueString "targetUid" "" else some named
  if target = "" then none else stoll target

structure Outcome (Instance Session : Type) where
  sent : List (Sent Instance Session)
  unread : Unread

section

variable {Instance Session : Type} (managers : Instance → OnlineManager Session) (isOpen : Session → Bool)

def broadcastToUser (server : Instance) (userId : Int) (frame : Frame) : List (Sent Instance Session) :=
  ((managers server).getSessions isOpen userId).map (fun session => ⟨server, userId, session, frame⟩)

def sendToOtherDevices (server : Instance) (userId : Int) (excludeDevice : String) (frame : Frame) :
    List (Sent Instance Session) :=
  ((managers server).getOtherSessions isOpen userId excludeDevice).map
    (fun session => ⟨server, userId, session, frame⟩)

/-- The deliver callback of an instance; the payload is the dump of a frame. -/
def deliverCallback (server : Instance) (frame : Frame) : List (Sent Instance Session) :=
  match targetOf frame.json with
  | none => []
  | some target => broadcastToUser managers isOpen server target frame

/-- `publishToUser` gives the instances that the payload is published to. -/
def deliverPrivate (publishToUser : Instance → Int → List Instance) (outboxOnlyMode persisted : Bool)
    (server : Instance) (message : PrivateMessage) (replyTo senderDevice : String) (unread : Unread) :
    Outcome Instance Session :=
  let frame := Frame.msg message replyTo
  let inline := !outboxOnlyMode || !persisted
  let delivered := if inline then broadcastToUser managers isOpen server message.toUser frame else []
  let synced := sendToOtherDevices managers isOpen server message.fromUser senderDevice frame
  let reached := if inline && delivered.isEmpty then publishToUser server message.toUser else []
  { sent := delivered ++ synced ++
      reached.flatMap (fun other => deliverCallback managers isOpen other frame)
    unread := if inline && delivered.isEmpty && reached.isEmpty then
        incrementUnread unread message.toUser message.fromUser
      else unread }

def deliverFile (server : Instance) (task : FileTask) (now : Int) (unread : Unread) :
    Outcome Instance Session where
  sent := broadcastToUser managers isOpen server task.toUserId (task.frame now)
  unread := unread

/-- The instance has an entry for a device of the user. -/
def Holds (server : Instance) (userId : Int) : Prop :=
  ∃ dev session, (managers server).sessions.find userId dev = some session

/-- The instance has an entry with an open session. -/
def HoldsOpen (server : Instance) (userId : Int) : Prop :=
  ∃ dev session, (managers server).sessions.find userId dev = some session ∧ isOpen session = true

/-- A router that publishes to exactly the other instances that hold a device
of the user. -/
structure Router where
  publishToUser : Instance → Int → List Instance
  holders : ∀ server userId other,
    other ∈ publishToUser server userId ↔ other ≠ server ∧ Holds managers other userId

end

/-! ## Messages that a handler accepts -/

inductive Kind where
  | privateMessage
  | fileMessage
deriving DecidableEq, Repr

structure Request where
  kind : Kind
  moderation : Bool := true
  recentMsgIds : List String := []
  frame : Json
  fromUserId : Int
  senderDevice : String := OnlineManager.kDefaultDevice
  arrival : Arrival

inductive Accepted where
  | privateMessage (message : PrivateMessage) (replyTo senderDevice : String)
  | fileMessage (task : FileTask)

/-- The message that the fast path hands to a worker. -/
def Request.accept (request : Request) : Option Accepted :=
  match request.kind with
  | .privateMessage =>
      match (handlePrivateMessage request.moderation request.recentMsgIds request.frame
        request.fromUserId request.arrival).task with
      | some (.privateMessage _ message) => some (.privateMessage message
          ((request.frame.valueString "replyTo" "").getD "") request.senderDevice)
      | _ => none
  | .fileMessage =>
      ((handleFileMessage request.frame request.fromUserId request.arrival).2).map .fileMessage

namespace Accepted

def fromUser : Accepted → Int
  | .privateMessage message _ _ => message.fromUser
  | .fileMessage task => task.fromUserId

def toUser : Accepted → Int
  | .privateMessage message _ _ => message.toUser
  | .fileMessage task => task.toUserId

def frame (now : Int) : Accepted → Frame
  | .privateMessage message replyTo _ => .msg message replyTo
  | .fileMessage task => task.frame now

end Accepted

section

variable {Instance Session : Type} (managers : Instance → OnlineManager Session) (isOpen : Session → Bool)
variable (router : Router managers) (server : Instance) (persisted : Bool) (now : Int) (unread : Unread)

/-- The delivery with `outboxOnlyMode_` off. -/
def deliver : Accepted → Outcome Instance Session
  | .privateMessage message replyTo senderDevice =>
      deliverPrivate managers isOpen router.publishToUser false persisted server message replyTo
        senderDevice unread
  | .fileMessage task => deliverFile managers isOpen server task now unread

/-- Every open device of the receiver is sent the frame, and if there is none on
any instance the message counts as unread. -/
structure ReachesOrCounts (message : Accepted) : Prop where
  reaches : ∀ other dev session, (managers other).sessions.find message.toUser dev = some session →
    isOpen session = true → ⟨other, message.toUser, session, message.frame now⟩ ∈
      (deliver managers isOpen router server persisted now unread message).sent
  counts : (∀ other, ¬ HoldsOpen managers isOpen other message.toUser) →
    getUnread (deliver managers isOpen router server persisted now unread message).unread
      message.toUser message.fromUser = getUnread unread message.toUser message.fromUser + 1
  spares : (∃ other, HoldsOpen managers isOpen other message.toUser) →
    getUnread (deliver managers isOpen router server persisted now unread message).unread
      message.toUser message.fromUser = getUnread unread message.toUser message.fromUser

/-- A private message needs all open devices of the receiver on one side of the
instance that handles it, and no entry of a closed session where he is offline.
A file message needs them all on that instance, and at least one. -/
def OnOneSide : Accepted → Prop
  | .privateMessage message _ _ =>
      (HoldsOpen managers isOpen server message.toUser →
        ∀ other, other ≠ server → ¬ HoldsOpen managers isOpen other message.toUser) ∧
      ((∀ other, ¬ HoldsOpen managers isOpen other message.toUser) →
        ∀ other, other ≠ server → ¬ Holds managers other message.toUser)
  | .fileMessage task =>
      HoldsOpen managers isOpen server task.toUserId ∧
        ∀ other, other ≠ server → ¬ HoldsOpen managers isOpen other task.toUserId

end

variable {Instance Session : Type} {managers : Instance → OnlineManager Session} {isOpen : Session → Bool}
variable {router : Router managers} {server other : Instance} {persisted : Bool} {now userId : Int}
variable {unread : Unread} {frame : Frame} {sent : Sent Instance Session}

theorem getUnread_incrementUnread {peerId : Int} :
    getUnread (incrementUnread unread userId peerId) userId peerId = getUnread unread userId peerId + 1 := by
  rw [getUnread, incrementUnread, Table.lookup_insert_ite, if_pos rfl, Option.getD_some]

theorem mem_broadcastToUser : sent ∈ broadcastToUser managers isOpen server userId frame ↔
    sent.server = server ∧ sent.user = userId ∧ sent.frame = frame ∧ isOpen sent.session = true ∧
      ∃ dev, (managers server).sessions.find userId dev = some sent.session := by
  rw [broadcastToUser, List.mem_map]
  constructor
  · intro listed
    obtain ⟨session, member, rfl⟩ := listed
    obtain ⟨found, opened⟩ := OnlineManager.mem_getSessions.mp member
    exact ⟨rfl, rfl, rfl, opened, found⟩
  · intro described
    obtain ⟨rfl, rfl, rfl, opened, found⟩ := described
    exact ⟨sent.session, OnlineManager.mem_getSessions.mpr ⟨found, opened⟩, rfl⟩

theorem isEmpty_broadcastToUser :
    (broadcastToUser managers isOpen server userId frame).isEmpty = true ↔
      ¬ HoldsOpen managers isOpen server userId := by
  rw [List.isEmpty_iff, broadcastToUser, List.map_eq_nil_iff, HoldsOpen,
    ← OnlineManager.getSessions_ne_nil, not_not]

/-- The callback of an instance broadcasts the frame of a private message to
its receiver. -/
theorem deliverCallback_msg {message : PrivateMessage} (positive : 0 < message.toUser)
    (bounded : message.toUser < 2 ^ 63) (replyTo : String) :
    deliverCallback managers isOpen other (.msg message replyTo) =
      broadcastToUser managers isOpen other message.toUser (.msg message replyTo) := by
  have read := stoll_toString (Int.le_of_lt positive) bounded
  have named := ne_empty_of_stoll read
  have target : targetOf (Frame.msg message replyTo).json = some message.toUser := by
    rw [targetOf, Frame.msg_to]
    simp only [Option.bind_eq_bind, Option.bind_some, if_neg named, read]
  rw [deliverCallback, target]

theorem accept_range {request : Request} {message : PrivateMessage} {replyTo senderDevice : String}
    (accepted : request.accept = some (.privateMessage message replyTo senderDevice)) :
    0 < message.toUser ∧ message.toUser < 2 ^ 63 := by
  simp only [Request.accept] at accepted
  split at accepted
  · split at accepted
    · rename_i clientMsgId row handed
      obtain ⟨arguments, checked, same⟩ := handleFrame_task handed
      cases accepted
      cases same
      exact checkArguments_target checked
    · cases accepted
  · rw [Option.map_eq_some_iff] at accepted
    obtain ⟨task, _, same⟩ := accepted
    cases same

theorem server_of_otherDevices {excludeDevice : String}
    (member : sent ∈ sendToOtherDevices managers isOpen server userId excludeDevice frame) :
    sent.server = server ∧ sent.user = userId ∧ sent.frame = frame := by
  obtain ⟨session, _, rfl⟩ := List.mem_map.mp member
  exact ⟨rfl, rfl, rfl⟩

section

variable {publishToUser : Instance → Int → List Instance} {message : PrivateMessage}
variable {replyTo senderDevice : String}

/-- With an open session on the instance itself, nothing is published. -/
theorem deliverPrivate_present (here : HoldsOpen managers isOpen server message.toUser) :
    deliverPrivate managers isOpen publishToUser false persisted server message replyTo senderDevice unread =
      ⟨broadcastToUser managers isOpen server message.toUser (.msg message replyTo) ++
        sendToOtherDevices managers isOpen server message.fromUser senderDevice (.msg message replyTo),
       unread⟩ := by
  have sends : (broadcastToUser managers isOpen server message.toUser (.msg message replyTo)).isEmpty = false := by
    rw [Bool.eq_false_iff]
    exact fun empty => isEmpty_broadcastToUser.mp empty here
  simp [deliverPrivate, sends]

/-- Without one, the frame is published, and the message counts as unread if it
is published to nobody. -/
theorem deliverPrivate_absent (away : ¬ HoldsOpen managers isOpen server message.toUser) :
    deliverPrivate managers isOpen publishToUser false persisted server message replyTo senderDevice unread =
      ⟨sendToOtherDevices managers isOpen server message.fromUser senderDevice (.msg message replyTo) ++
        (publishToUser server message.toUser).flatMap
          (fun other => deliverCallback managers isOpen other (.msg message replyTo)),
       if (publishToUser server message.toUser).isEmpty then
         incrementUnread unread message.toUser message.fromUser
       else unread⟩ := by
  have silent : broadcastToUser managers isOpen server message.toUser (.msg message replyTo) = [] :=
    List.isEmpty_iff.mp (isEmpty_broadcastToUser.mpr away)
  simp [deliverPrivate, silent]

/-- The router publishes to nobody if no other instance holds a device. -/
theorem isEmpty_publishToUser : (router.publishToUser server userId).isEmpty = true ↔
    ∀ other, other ≠ server → ¬ Holds managers other userId := by
  rw [List.isEmpty_iff, List.eq_nil_iff_forall_not_mem]
  constructor
  · intro nobody other remote holds
    exact nobody other ((router.holders server userId other).mpr ⟨remote, holds⟩)
  · intro alone other listed
    obtain ⟨remote, holds⟩ := (router.holders server userId other).mp listed
    exact alone other remote holds

theorem HoldsOpen.holds (opened : HoldsOpen managers isOpen server userId) : Holds managers server userId := by
  obtain ⟨dev, session, found, _⟩ := opened
  exact ⟨dev, session, found⟩

/-- The law for a private message, whose receiver is an id that can be read
back. -/
theorem private_iff (positive : 0 < message.toUser) (bounded : message.toUser < 2 ^ 63) :
    ReachesOrCounts managers isOpen router server persisted now unread
        (.privateMessage message replyTo senderDevice) ↔
      OnOneSide managers isOpen server (.privateMessage message replyTo senderDevice) := by
  by_cases here : HoldsOpen managers isOpen server message.toUser
  · have delivered := @deliverPrivate_present _ _ managers isOpen server persisted unread
      router.publishToUser message replyTo senderDevice here
    constructor
    · intro law
      refine ⟨?_, fun nobody => absurd here (nobody server)⟩
      intro _ other remote opened
      obtain ⟨dev, session, found, opened⟩ := opened
      have listed := law.reaches other dev session found opened
      rw [deliver, delivered] at listed
      rcases List.mem_append.mp listed with sent | synced
      · exact remote (mem_broadcastToUser.mp sent).1
      · exact remote (server_of_otherDevices synced).1
    · intro oneSide
      refine ⟨?_, fun nobody => absurd here (nobody server), ?_⟩
      · intro other dev session found opened
        have same : other = server := by
          by_contra remote
          exact oneSide.1 here other remote ⟨dev, session, found, opened⟩
        rw [deliver, delivered]
        apply List.mem_append_left
        exact mem_broadcastToUser.mpr ⟨same, rfl, rfl, opened, dev, same ▸ found⟩
      · intro _
        rw [deliver, delivered]
  · have delivered := @deliverPrivate_absent _ _ managers isOpen server persisted unread
      router.publishToUser message replyTo senderDevice here
    constructor
    · intro law
      refine ⟨fun present => absurd present here, ?_⟩
      intro nobody
      apply isEmpty_publishToUser.mp
      by_contra published
      have counted := law.counts nobody
      rw [deliver, delivered, if_neg published] at counted
      dsimp only [Accepted.toUser, Accepted.fromUser] at counted
      omega
    · intro oneSide
      refine ⟨?_, ?_, ?_⟩
      · intro other dev session found opened
        have remote : other ≠ server := by
          rintro rfl
          exact here ⟨dev, session, found, opened⟩
        rw [deliver, delivered]
        apply List.mem_append_right
        apply List.mem_flatMap.mpr
        refine ⟨other, (router.holders server message.toUser other).mpr ⟨remote, dev, session, found⟩, ?_⟩
        rw [deliverCallback_msg positive bounded]
        exact mem_broadcastToUser.mpr ⟨rfl, rfl, rfl, opened, dev, found⟩
      · intro nobody
        have unpublished : (router.publishToUser server message.toUser).isEmpty = true :=
          isEmpty_publishToUser.mpr (oneSide.2 nobody)
        rw [deliver, delivered, if_pos unpublished]
        exact getUnread_incrementUnread
      · intro somewhere
        obtain ⟨other, opened⟩ := somewhere
        have remote : other ≠ server := by
          rintro rfl
          exact here opened
        have published : ¬ (router.publishToUser server message.toUser).isEmpty = true := by
          intro nobody
          exact isEmpty_publishToUser.mp nobody other remote opened.holds
        rw [deliver, delivered, if_neg published]

end

/-- The law for a file message. -/
theorem file_iff {task : FileTask} :
    ReachesOrCounts managers isOpen router server persisted now unread (.fileMessage task) ↔
      OnOneSide managers isOpen server (.fileMessage task) := by
  constructor
  · intro law
    constructor
    · by_contra away
      by_cases somewhere : ∃ other, HoldsOpen managers isOpen other task.toUserId
      · obtain ⟨other, dev, session, found, opened⟩ := somewhere
        have same := (mem_broadcastToUser.mp (law.reaches other dev session found opened)).1
        exact away (same ▸ ⟨dev, session, found, opened⟩)
      · have counted := law.counts (not_exists.mp somewhere)
        simp only [deliver, deliverFile] at counted
        omega
    · intro other remote opened
      obtain ⟨dev, session, found, opened⟩ := opened
      exact remote (mem_broadcastToUser.mp (law.reaches other dev session found opened)).1
  · intro oneSide
    refine ⟨?_, fun nobody => absurd oneSide.1 (nobody server), fun _ => rfl⟩
    intro other dev session found opened
    have same : other = server := by
      by_contra remote
      exact oneSide.2 other remote ⟨dev, session, found, opened⟩
    exact mem_broadcastToUser.mpr ⟨same, rfl, rfl, opened, dev, same ▸ found⟩

/-- An accepted message reaches every open device of its receiver or counts as
unread exactly if the devices are where its handler looks for them. -/
theorem reaches_or_counts_iff (managers : Instance → OnlineManager Session) (isOpen : Session → Bool)
    (router : Router managers) (server : Instance) (persisted : Bool) (now : Int) (unread : Unread)
    {request : Request} {message : Accepted} (accepted : request.accept = some message) :
    ReachesOrCounts managers isOpen router server persisted now unread message ↔
      OnOneSide managers isOpen server message := by
  cases message with
  | privateMessage row replyTo senderDevice =>
      obtain ⟨positive, bounded⟩ := accept_range accepted
      exact private_iff positive bounded
  | fileMessage task => exact file_iff

/-! ## A user with no device, and one with a device on each of two instances -/

/-- A frame that either handler accepts for user 7. -/
def sample (kind : Kind) : Request where
  kind := kind
  frame := .object [("content", .string "hello"), ("to", .string "7"), ("url", .string "/uploads/1")]
  fromUserId := 3
  arrival := { msgId := "100" }

def sampleMessage : Kind → Accepted
  | .privateMessage => .privateMessage ⟨"100", 3, 7, "hello", 0⟩ "" "default"
  | .fileMessage => .fileMessage ⟨"100", 3, 7, "/uploads/1", "", 0, 0⟩

theorem accept_sample (kind : Kind) : (sample kind).accept = some (sampleMessage kind) := by
  cases kind with
  | privateMessage => rfl
  | fileMessage => rfl

def offline : Bool → OnlineManager Nat := fun _ => {}

theorem not_holds_offline {server : Bool} : ¬ Holds offline server userId := by
  rintro ⟨dev, session, found⟩
  cases found

def offlineRouter : Router offline where
  publishToUser := fun _ _ => []
  holders := by
    intro server userId other
    simp [not_holds_offline]

theorem offline_message_counts :
    getUnread (deliver offline (fun _ => true) offlineRouter false false 0 ∅
      (sampleMessage .privateMessage)).unread 7 3 = 1 := by
  have nobody : ∀ server, ¬ HoldsOpen offline (fun _ => true) server 7 := by
    intro server opened
    exact not_holds_offline opened.holds
  have law := (reaches_or_counts_iff offline (fun _ => true) offlineRouter false false 0 ∅
    (accept_sample .privateMessage)).mpr
      ⟨fun here => absurd here (nobody false), fun _ _ _ => not_holds_offline⟩
  exact law.counts nobody

def online : Bool → OnlineManager Nat := fun _ => (({} : OnlineManager Nat).addDevice 7 "web" 1).1

theorem holds_online_iff {server : Bool} : Holds online server userId ↔ userId = 7 := by
  simp only [Holds, online, OnlineManager.find_addDevice]
  constructor
  · rintro ⟨dev, session, found⟩
    by_contra other
    rw [if_neg (fun both => other both.1)] at found
    cases found
  · intro same
    exact ⟨"web", 1, by rw [if_pos ⟨same, rfl⟩]⟩

def onlineRouter : Router online where
  publishToUser := fun server userId => if userId = 7 then [!server] else []
  holders := by
    intro server userId other
    rw [holds_online_iff]
    split
    · rename_i same
      cases server <;> cases other <;> simp [same]
    · rename_i different
      simp [different]

/-- The device on the other instance is sent neither kind of message. -/
theorem second_device_not_reached :
    ¬ ∃ kind, ∀ (managers : Bool → OnlineManager Nat) (isOpen : Nat → Bool) (router : Router managers)
        (server persisted : Bool) (now : Int) (unread : Unread) (request : Request) (message : Accepted),
      request.kind = kind → request.accept = some message →
        ReachesOrCounts managers isOpen router server persisted now unread message := by
  rintro ⟨kind, always⟩
  have law := always online (fun _ => true) onlineRouter false false 0 ∅ (sample kind) (sampleMessage kind)
    (by cases kind <;> rfl) (accept_sample kind)
  have held (server : Bool) : HoldsOpen online (fun _ => true) server 7 :=
    ⟨"web", 1, by simp [online, OnlineManager.find_addDevice, OnlineManager.device], rfl⟩
  cases kind with
  | privateMessage =>
      have oneSide := (private_iff (by decide) (by decide)).mp law
      exact oneSide.1 (held false) true (by decide) (held true)
  | fileMessage =>
      have oneSide := file_iff.mp law
      exact oneSide.2 true (by decide) (held true)

end MuduoIm.Server.Delivery
