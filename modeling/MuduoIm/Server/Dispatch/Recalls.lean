import MuduoIm.Server.Dispatch
import MuduoIm.Server.FriendService

namespace MuduoIm.Server.Dispatch

open MuduoIm.Data MuduoIm.Server MuduoIm.Server.MessageHandlers MuduoIm.Server.MessageQueue
open MuduoIm.Server.Recall MuduoIm.Server.Delivery MuduoIm.Server.Conversations

/-! # Whom a recall reaches

The task that `handleRecall` submits tells the session that asked and the
friends of the sender.  The text of the message and its edits go to those who
take part in the conversation, which is another relation.
-/

/-- A session to which a frame is sent. -/
structure Recipient (Instance Session : Type) where
  server : Instance
  user : Int
  session : Session
deriving DecidableEq, Repr

def makeRecall (msgId : String) (fromUserId : Int) : Json := .object [
  ("from", .string (toString fromUserId)), ("msgId", .string msgId), ("type", .string "recall")]

/-- What the task leaves behind: the records, an error for the session, or the
frame and the sessions to which it is sent. -/
structure RecallEffect (Instance Session : Type) where
  records : Records
  reply : Option Reply := none
  frame : Json := .null
  recipients : List (Recipient Instance Session) := []

section

variable {Instance Session : Type} (managers : Instance → OnlineManager Session) (isOpen : Session → Bool)

def sessionsOf (server : Instance) (userId : Int) : List (Recipient Instance Session) :=
  ((managers server).getSessions isOpen userId).map (fun session => ⟨server, userId, session⟩)

/-- `reading` answers the SELECT of the friends. -/
def RecallTask.work (task : RecallTask Instance Session) (records : Records) (flush : FlushOutcome) (now : Int)
    (shown : FriendService.Shown) (reading : FriendService.Answers) (tables : Tables) :
    RecallEffect Instance Session :=
  let records := records.flushed flush
  let (recalled, rows) := recallMessage records.store.tables records.recalled task.msgId task.fromUserId now
  if !recalled then { records, reply := some (.error "recall failed (timeout or not your message)") }
  else
    let friends := FriendService.getFriends shown task.fromUserId reading tables
    { records := { records with recalled := rows }
      frame := makeRecall task.msgId task.fromUserId
      recipients := ⟨task.server, task.fromUserId, task.session⟩ ::
        friends.flatMap (fun friend => sessionsOf managers isOpen task.server friend.userId) }

/-- The session is open and in the online table of its server. -/
def OpenDevice (recipient : Recipient Instance Session) : Prop :=
  isOpen recipient.session = true ∧
    ∃ dev, (managers recipient.server).sessions.find recipient.user dev = some recipient.session

/-- The conversation of the message whose row the recall marks. -/
def recalledConversation (records : Records) (msgId : String) (fromUserId now : Int) : Option Conversation :=
  match records.store.tables.privateMessages.find? (fun row =>
      Selects msgId fromUserId (now - 120000) records.recalled.privateMessages (.privateMessage row)) with
  | some row => some (.direct row.fromUser row.toUser)
  | none => (records.store.tables.groupMessages.find? (fun row =>
      Selects msgId fromUserId (now - 120000) records.recalled.groupMessages (.groupMessage row))).map fun row =>
        .group row.groupId

/-- The frame goes to every open device of those who take part in the
conversation, and to no other. -/
def ReachesParticipants (members : List (Int × Int)) (conversation : Conversation)
    (recipients : List (Recipient Instance Session)) : Prop :=
  ∀ recipient, recipient ∈ recipients ↔
    conversation.TakesPart members recipient.user ∧ OpenDevice managers isOpen recipient

/-- The friends of the sender stand for the conversation: those of them who are
online here take part in it; who takes part and is online is a friend and online
here, or is the session that asked; and this one is an open device of somebody
who takes part. -/
structure FriendsStand (members : List (Int × Int)) (conversation : Conversation)
    (task : RecallTask Instance Session) (friends : List FriendService.Friend) : Prop where
  inside : ∀ friend ∈ friends, HoldsOpen managers isOpen task.server friend.userId →
    conversation.TakesPart members friend.userId
  complete : ∀ recipient, conversation.TakesPart members recipient.user → OpenDevice managers isOpen recipient →
    recipient = ⟨task.server, task.fromUserId, task.session⟩ ∨
      recipient.server = task.server ∧ ∃ friend ∈ friends, friend.userId = recipient.user
  asking : conversation.TakesPart members task.fromUserId ∧
    OpenDevice managers isOpen ⟨task.server, task.fromUserId, task.session⟩

end

variable {Instance Session : Type} {managers : Instance → OnlineManager Session} {isOpen : Session → Bool}
variable {task : RecallTask Instance Session} {records : Records} {flush : FlushOutcome} {now : Int}
variable {shown : FriendService.Shown} {reading : FriendService.Answers} {tables : Tables}
variable {friends : List FriendService.Friend} {recipient : Recipient Instance Session}

theorem mem_sessionsOf {server : Instance} {userId : Int} :
    recipient ∈ sessionsOf managers isOpen server userId ↔
      recipient.server = server ∧ recipient.user = userId ∧ OpenDevice managers isOpen recipient := by
  rw [sessionsOf, List.mem_map]
  constructor
  · intro listed
    obtain ⟨session, member, rfl⟩ := listed
    obtain ⟨found, opened⟩ := OnlineManager.mem_getSessions.mp member
    exact ⟨rfl, rfl, opened, found⟩
  · intro described
    obtain ⟨rfl, rfl, opened, found⟩ := described
    exact ⟨recipient.session, OnlineManager.mem_getSessions.mpr ⟨found, opened⟩, rfl⟩

/-! ## The marked row -/

theorem affectedRows_length {Message : Type} {messages : List Message} {item : Message → QueueItem}
    {msgId : String} {fromUserId twoMinAgo : Int} {recalled : List String} :
    0 < (affectedRows (messages.map item) msgId fromUserId twoMinAgo recalled).length ↔
      ∃ row, messages.find? (fun row => Selects msgId fromUserId twoMinAgo recalled (item row)) = some row := by
  rw [affectedRows, List.length_map, List.length_pos_iff_exists_mem, ← Option.isSome_iff_exists,
    List.find?_isSome]
  constructor
  · intro given
    obtain ⟨row, member⟩ := given
    obtain ⟨listed, selected⟩ := List.mem_filter.mp member
    obtain ⟨message, stored, rfl⟩ := List.mem_map.mp listed
    exact ⟨message, stored, selected⟩
  · intro given
    obtain ⟨message, stored, selected⟩ := given
    exact ⟨item message, List.mem_filter.mpr ⟨List.mem_map_of_mem stored, selected⟩⟩

/-- A recall succeeds exactly on a message of some conversation. -/
theorem recallMessage_iff {msgId : String} {fromUserId : Int} :
    (recallMessage records.store.tables records.recalled msgId fromUserId now).1 = true ↔
      ∃ conversation, recalledConversation records msgId fromUserId now = some conversation := by
  simp only [recallMessage, recalledConversation]
  cases found : records.store.tables.privateMessages.find? (fun row =>
      Selects msgId fromUserId (now - 120000) records.recalled.privateMessages (.privateMessage row)) with
  | some row =>
      have marked := affectedRows_length.mpr ⟨row, found⟩
      rw [if_neg (by omega)]
      exact ⟨fun _ => ⟨_, rfl⟩, fun _ => rfl⟩
  | none =>
      have unmarked : ¬0 < (affectedRows (records.store.tables.privateMessages.map QueueItem.privateMessage) msgId
          fromUserId (now - 120000) records.recalled.privateMessages).length := by
        rw [affectedRows_length, found]
        rintro ⟨row, absent⟩
        cases absent
      rw [if_pos (by omega), decide_eq_true_iff, gt_iff_lt, affectedRows_length]
      simp only [Option.map_eq_some_iff]
      exact ⟨fun ⟨row, same⟩ => ⟨_, row, same, rfl⟩, fun ⟨_, row, same, _⟩ => ⟨row, same⟩⟩

/-! ## The recipients -/

theorem recipients_iff {members : List (Int × Int)} {conversation : Conversation} :
    ReachesParticipants managers isOpen members conversation
        (⟨task.server, task.fromUserId, task.session⟩ ::
          friends.flatMap (fun friend => sessionsOf managers isOpen task.server friend.userId)) ↔
      FriendsStand managers isOpen members conversation task friends := by
  constructor
  · intro reaches
    refine ⟨?_, ?_, (reaches _).mp List.mem_cons_self⟩
    · intro friend listed opened
      obtain ⟨dev, session, found, live⟩ := opened
      have sent : (⟨task.server, friend.userId, session⟩ : Recipient Instance Session) ∈
          sessionsOf managers isOpen task.server friend.userId := mem_sessionsOf.mpr ⟨rfl, rfl, live, dev, found⟩
      exact ((reaches _).mp (List.mem_cons_of_mem _ (List.mem_flatMap.mpr ⟨friend, listed, sent⟩))).1
    · intro recipient takes opened
      rcases List.mem_cons.mp ((reaches recipient).mpr ⟨takes, opened⟩) with asking | member
      · exact .inl asking
      · obtain ⟨friend, listed, sent⟩ := List.mem_flatMap.mp member
        obtain ⟨server, user, _⟩ := mem_sessionsOf.mp sent
        exact .inr ⟨server, friend, listed, user.symm⟩
  · intro stand recipient
    constructor
    · intro member
      rcases List.mem_cons.mp member with rfl | member
      · exact stand.asking
      · obtain ⟨friend, listed, sent⟩ := List.mem_flatMap.mp member
        obtain ⟨server, user, opened⟩ := mem_sessionsOf.mp sent
        obtain ⟨live, dev, found⟩ := opened
        have takes := stand.inside friend listed
          ⟨dev, recipient.session, by rw [← server, ← user, found], live⟩
        exact ⟨user ▸ takes, live, dev, found⟩
    · intro both
      rcases stand.complete recipient both.1 both.2 with asking | ⟨server, friend, listed, user⟩
      · exact List.mem_cons.mpr (.inl asking)
      · exact List.mem_cons_of_mem _ (List.mem_flatMap.mpr
          ⟨friend, listed, mem_sessionsOf.mpr ⟨server, user.symm, both.2⟩⟩)

/-- A successful recall reaches those who take part in the conversation of the
message exactly if the friends of the sender stand for them. -/
theorem recall_reaches_participants_iff
    (recalled : (recallMessage (records.flushed flush).store.tables (records.flushed flush).recalled task.msgId
      task.fromUserId now).1 = true) :
    ∃ conversation,
      recalledConversation (records.flushed flush) task.msgId task.fromUserId now = some conversation ∧
        (ReachesParticipants managers isOpen records.members conversation
            (task.work managers isOpen records flush now shown reading tables).recipients ↔
          FriendsStand managers isOpen records.members conversation task
            (FriendService.getFriends shown task.fromUserId reading tables)) := by
  obtain ⟨conversation, found⟩ := recallMessage_iff.mp recalled
  refine ⟨conversation, found, ?_⟩
  simp only [RecallTask.work, recalled, Bool.not_true, Bool.false_eq_true, if_false]
  exact recipients_iff

/-! ## Three users online -/

def threeOnline : Unit → OnlineManager Nat := fun _ =>
  (((({} : OnlineManager Nat).addDevice 1 "phone" 10).1.addDevice 2 "phone" 20).1.addDevice 3 "phone" 30).1

/-- Two recent messages of the first user, to the second and to a group of the
first and the second. -/
def twoMessages : Records where
  store := { tables := {
    privateMessages := [⟨"m", 1, 2, "hi", 900⟩]
    groupMessages := [⟨"g", 5, 1, "hi", 900, none⟩] } }
  members := [(5, 1), (5, 2)]

def nameless : FriendService.Shown :=
  ⟨fun _ => 0, fun _ => none, fun _ => "", fun _ => none, fun _ => none⟩

def answered : FriendService.Answers := ⟨true, true, true, fun _ => true, .committed⟩

def friendsWith (friend : Int) : Tables where
  users := [⟨1, ""⟩, ⟨2, ""⟩, ⟨3, ""⟩]
  friends := [(1, friend), (friend, 1)]

def recallOf (msgId : String) : RecallTask Unit Nat := ⟨(), 10, msgId, 1⟩

def recipientsOf (msgId : String) (friend : Int) : List (Recipient Unit Nat) :=
  ((recallOf msgId).work threeOnline (fun _ => true) twoMessages {} 1000 nameless answered (friendsWith friend)).recipients

/-- The first user is a friend of the third only. -/
theorem recall_reaches_friend_only :
    recipientsOf "m" 3 = [⟨(), 1, 10⟩, ⟨(), 3, 30⟩] ∧ recipientsOf "g" 3 = [⟨(), 1, 10⟩, ⟨(), 3, 30⟩] ∧
      ¬ReachesParticipants threeOnline (fun _ => true) twoMessages.members (.direct 1 2) (recipientsOf "m" 3) ∧
      ¬ReachesParticipants threeOnline (fun _ => true) twoMessages.members (.group 5) (recipientsOf "g" 3) := by
  have direct : recipientsOf "m" 3 = [⟨(), 1, 10⟩, ⟨(), 3, 30⟩] := by decide
  have group : recipientsOf "g" 3 = [⟨(), 1, 10⟩, ⟨(), 3, 30⟩] := by decide
  refine ⟨direct, group, fun reaches => ?_, fun reaches => ?_⟩
  · have missed := (reaches ⟨(), 2, 20⟩).mpr ⟨.inr rfl, rfl, "phone", by decide⟩
    rw [direct] at missed
    revert missed
    decide
  · have member : ((5, 2) : Int × Int) ∈ twoMessages.members := by decide
    have missed := (reaches ⟨(), 2, 20⟩).mpr ⟨member, rfl, "phone", by decide⟩
    rw [group] at missed
    revert missed
    decide

theorem open_threeOnline {recipient : Recipient Unit Nat}
    (opened : OpenDevice threeOnline (fun _ => true) recipient) :
    recipient.user = 1 ∧ recipient.session = 10 ∨ recipient.user = 2 ∧ recipient.session = 20 ∨
      recipient.user = 3 ∧ recipient.session = 30 := by
  obtain ⟨_, dev, found⟩ := opened
  simp only [threeOnline, OnlineManager.find_addDevice] at found
  split at found
  · rename_i third
    exact .inr (.inr ⟨third.1, (Option.some.inj found).symm⟩)
  · split at found
    · rename_i second
      exact .inr (.inl ⟨second.1, (Option.some.inj found).symm⟩)
    · split at found
      · rename_i first
        exact .inl ⟨first.1, (Option.some.inj found).symm⟩
      · cases found

/-- The first user is a friend of the receiver. -/
theorem recall_reaches_receiver : ∃ conversation,
    recalledConversation (twoMessages.flushed {}) "m" 1 1000 = some conversation ∧
      ReachesParticipants threeOnline (fun _ => true) twoMessages.members conversation (recipientsOf "m" 2) := by
  obtain ⟨conversation, found, reaches⟩ := @recall_reaches_participants_iff Unit Nat threeOnline (fun _ => true)
    (recallOf "m") twoMessages {} 1000 nameless answered (friendsWith 2) (by decide)
  refine ⟨conversation, found, reaches.mpr ?_⟩
  cases found
  refine ⟨?_, ?_, .inl rfl, rfl, "phone", by decide⟩
  · intro friend listed _
    have friends : FriendService.getFriends nameless 1 answered (friendsWith 2) = [⟨2, "", "", ""⟩] := by decide
    cases List.mem_singleton.mp (friends ▸ listed)
    exact .inr rfl
  · intro recipient takes opened
    obtain ⟨server, user, session⟩ := recipient
    rcases open_threeOnline opened with ⟨rfl, rfl⟩ | ⟨rfl, rfl⟩ | ⟨rfl, rfl⟩
    · exact .inl rfl
    · exact .inr ⟨rfl, ⟨2, "", "", ""⟩, by decide, rfl⟩
    · rcases takes with absurdly | absurdly
      · cases absurdly
      · cases absurdly

end MuduoIm.Server.Dispatch
