import MuduoIm.Server.FriendService.Symmetric

namespace MuduoIm.Server.FriendService

open MuduoIm.Transition

/-! # When the reply to a friend request is true

One row stands for all requests from one user to another.  It is never removed
while both exist, and once it is answered it is not pending again, so later
requests are ignored by the INSERT.
-/

/-- A request from the one user to the other waits for its answer. -/
def Pending (fromUser toUser : Int) (tables : Tables) : Prop :=
  ∃ request ∈ tables.friendRequests,
    request.fromUser = fromUser ∧ request.toUser = toUser ∧ request.status = .pending

/-- A request from the one user to the other has been answered. -/
def Answered (fromUser toUser : Int) (tables : Tables) : Prop :=
  ∃ request ∈ tables.friendRequests,
    request.fromUser = fromUser ∧ request.toUser = toUser ∧ request.status ≠ .pending

/-- There is a request that waits, or there is none at all and the INSERT is
executed. -/
def Recorded (fromUser toUser : Int) (answers : Answers) (tables : Tables) : Prop :=
  Pending fromUser toUser tables ∨
    ¬Answered fromUser toUser tables ∧ answers.executed 0 = true

variable {tables after : Tables} {userId fromUser toUser requestId : Int} {answers reading : Answers} {shown : Shown}
variable {verifyPassword : String → String → Bool}

/-! ## The list of received requests -/

theorem mem_getRequests (connected : reading.connected = true) (selected : reading.selected = true)
    (exist : tables.HasUser fromUser) :
    (∃ received ∈ getRequests shown toUser reading tables, received.fromUserId = fromUser) ↔
      Pending fromUser toUser tables := by
  rw [getRequests, connected, selected]
  simp only [Bool.not_true, Bool.or_self, Bool.false_eq_true, if_false, List.mem_map, List.mem_mergeSort,
    List.mem_filter, Bool.and_eq_true, decide_eq_true_eq]
  constructor
  · intro given
    obtain ⟨_, ⟨request, ⟨member, ⟨receiver, status⟩, _⟩, rfl⟩, sender⟩ := given
    exact ⟨request, member, sender, receiver, status⟩
  · intro given
    obtain ⟨request, member, sender, receiver, status⟩ := given
    exact ⟨_, ⟨request, ⟨member, ⟨receiver, status⟩, sender.symm ▸ exist⟩, rfl⟩, sender⟩

/-! ## The INSERT -/

theorem users_insertIgnoreRequest : (tables.insertIgnoreRequest fromUser toUser).users = tables.users := by
  unfold Tables.insertIgnoreRequest
  split <;> rfl

/-- The reply is a success only where the INSERT has been sent. -/
theorem sendRequest_success (success : (sendRequest fromUser toUser answers tables).1.success = true) :
    (sendRequest fromUser toUser answers tables).2 =
      if answers.executed 0 then tables.insertIgnoreRequest fromUser toUser else tables := by
  unfold sendRequest at success ⊢
  split at success
  · cases success
  · rename_i distinct
    rw [if_neg distinct]
    split at success
    · cases success
    · rename_i connected
      rw [if_neg connected]
      split at success
      · cases success
      · rename_i strangers
        rw [if_neg strangers]

theorem pending_insertIgnoreRequest (sender : tables.HasUser fromUser) (receiver : tables.HasUser toUser) :
    Pending fromUser toUser (tables.insertIgnoreRequest fromUser toUser) ↔
      Pending fromUser toUser tables ∨ ¬Answered fromUser toUser tables := by
  unfold Tables.insertIgnoreRequest
  split
  · rename_i fresh
    refine ⟨fun _ => .inr ?_, fun _ => ⟨_, List.mem_cons_self, rfl, rfl, rfl⟩⟩
    intro given
    obtain ⟨request, member, sameSender, sameReceiver, _⟩ := given
    exact fresh.1 request member ⟨sameSender, sameReceiver⟩
  · rename_i ignored
    refine ⟨.inl, fun either => either.elim id fun unanswered => ?_⟩
    have kept : ¬∀ request ∈ tables.friendRequests, ¬(request.fromUser = fromUser ∧ request.toUser = toUser) :=
      fun fresh => ignored ⟨fresh, sender, receiver⟩
    push Not at kept
    obtain ⟨request, member, sameSender, sameReceiver⟩ := kept
    refine ⟨request, member, sameSender, sameReceiver, ?_⟩
    by_contra status
    exact unanswered ⟨request, member, sameSender, sameReceiver, status⟩

/-- A request that is reported as sent is in the list of its receiver exactly if
it waits already, or is the first one and the INSERT is executed. -/
theorem sendRequest_truthful (sender : tables.HasUser fromUser) (receiver : tables.HasUser toUser)
    (success : (sendRequest fromUser toUser answers tables).1.success = true)
    (connected : reading.connected = true) (selected : reading.selected = true) :
    (∃ received ∈ getRequests shown toUser reading (sendRequest fromUser toUser answers tables).2,
        received.fromUserId = fromUser) ↔ Recorded fromUser toUser answers tables := by
  have exist : (sendRequest fromUser toUser answers tables).2.HasUser fromUser := by
    rw [sendRequest_success success]
    split
    · simpa only [Tables.HasUser, users_insertIgnoreRequest] using sender
    · exact sender
  rw [mem_getRequests connected selected exist, sendRequest_success success, Recorded]
  split
  · rename_i executed
    rw [pending_insertIgnoreRequest sender receiver, executed]
    simp
  · rename_i skipped
    simp [skipped]

/-! ## Requests that are lost -/

def answering : Answers :=
  { connected := true, selected := true, active := true, executed := fun _ => true, commit := .committed }

def twoUsers : Tables := { users := [⟨1, "one"⟩, ⟨2, "two"⟩] }

/-- A request that has been rejected, and one that has been accepted before the
friendship was deleted. -/
def rejection : List Event :=
  [⟨.sendRequest 1 2, answering⟩, ⟨.handleRequest 2 1 false, answering⟩]

def friendshipDeleted : List Event :=
  [⟨.sendRequest 1 2, answering⟩, ⟨.handleRequest 2 1 true, answering⟩, ⟨.deleteFriend 2 1, answering⟩]

def plain : Shown where
  createdAt := fun _ => 0
  createdAtText := fun _ => none
  username := fun _ => "someone"
  nickname := fun _ => none
  avatar := fun _ => none

/-- After the history a request of the first user is reported as sent, but the
second user has none from the first. -/
def LostAfter (history : List Event) : Prop :=
  ∃ tables, (machine fun _ _ => true).run twoUsers history = some tables ∧
    tables.HasUser 1 ∧ tables.HasUser 2 ∧ (1, 2) ∉ tables.friends ∧
    (sendRequest 1 2 answering tables).1 = { success := true, message := "request sent" } ∧
    ¬∃ received ∈ getRequests plain 2 answering (sendRequest 1 2 answering tables).2, received.fromUserId = 1

theorem lost_after_answer : LostAfter rejection ∧ LostAfter friendshipDeleted := by
  constructor
  · exact ⟨_, rfl, by decide, by decide, by decide, by decide,
      (mem_getRequests rfl rfl (by decide)).not.mpr (by unfold Pending; decide)⟩
  · exact ⟨_, rfl, by decide, by decide, by decide, by decide,
      (mem_getRequests rfl rfl (by decide)).not.mpr (by unfold Pending; decide)⟩

theorem first_request_listed :
    ∃ received ∈ getRequests plain 2 answering (sendRequest 1 2 answering twoUsers).2, received.fromUserId = 1 := by
  refine (sendRequest_truthful (by decide) (by decide) (by decide) rfl rfl).mpr (.inr ⟨?_, rfl⟩)
  intro given
  obtain ⟨request, member, _⟩ := given
  cases member

/-! ## After an answer -/

/-- The requests from the one user to the other are answered, and none waits. -/
def Closed (fromUser toUser : Int) (tables : Tables) : Prop :=
  Answered fromUser toUser tables ∧ ¬Pending fromUser toUser tables

/-- As long as both users exist. -/
def ClosedWhileBoth (fromUser toUser : Int) (tables : Tables) : Prop :=
  tables.HasUser fromUser → tables.HasUser toUser → Closed fromUser toUser tables

theorem closed_congr (requests : after.friendRequests = tables.friendRequests) :
    Closed fromUser toUser after ↔ Closed fromUser toUser tables := by
  rw [Closed, Closed, Answered, Answered, Pending, Pending, requests]

theorem closed_insertIgnoreRequest {sender receiver : Int} (closed : Closed fromUser toUser tables) :
    Closed fromUser toUser (tables.insertIgnoreRequest sender receiver) := by
  obtain ⟨⟨answered, member, sameSender, sameReceiver, status⟩, nonePending⟩ := closed
  unfold Tables.insertIgnoreRequest
  split
  · rename_i fresh
    refine ⟨⟨answered, List.mem_cons_of_mem _ member, sameSender, sameReceiver, status⟩, ?_⟩
    intro given
    obtain ⟨request, listed, sender', receiver', waits⟩ := given
    rcases List.mem_cons.mp listed with rfl | old
    · exact fresh.1 answered member ⟨sameSender.trans sender'.symm, sameReceiver.trans receiver'.symm⟩
    · exact nonePending ⟨request, old, sender', receiver', waits⟩
  · exact ⟨⟨answered, member, sameSender, sameReceiver, status⟩, nonePending⟩

theorem closed_setRequestStatus {status : RequestStatus} (answer : status ≠ .pending)
    (closed : Closed fromUser toUser tables) :
    Closed fromUser toUser (tables.setRequestStatus requestId status) := by
  obtain ⟨⟨answered, member, sameSender, sameReceiver, was⟩, nonePending⟩ := closed
  constructor
  · refine ⟨_, List.mem_map_of_mem member, ?_⟩
    split
    · exact ⟨sameSender, sameReceiver, answer⟩
    · exact ⟨sameSender, sameReceiver, was⟩
  · intro given
    obtain ⟨request, listed, sender, receiver, waits⟩ := given
    obtain ⟨old, present, rfl⟩ := List.mem_map.mp listed
    split at waits
    · exact answer waits
    · rename_i other
      rw [if_neg other] at sender receiver
      exact nonePending ⟨old, present, sender, receiver, waits⟩

theorem closed_deleteRequestsOf (closed : Closed fromUser toUser tables)
    (others : fromUser ≠ userId ∧ toUser ≠ userId) :
    Closed fromUser toUser (tables.deleteRequestsOf userId) := by
  obtain ⟨⟨answered, member, sameSender, sameReceiver, status⟩, nonePending⟩ := closed
  refine ⟨⟨answered, List.mem_filter.mpr ⟨member, ?_⟩, sameSender, sameReceiver, status⟩, ?_⟩
  · rw [sameSender, sameReceiver]
    exact decide_eq_true others
  · intro given
    obtain ⟨request, listed, waits⟩ := given
    exact nonePending ⟨request, (List.mem_filter.mp listed).1, waits⟩

theorem addFriend_closed (closed : ClosedWhileBoth fromUser toUser tables) {friendId : Int} :
    ClosedWhileBoth fromUser toUser (addFriend userId friendId answers tables).2 := by
  unfold addFriend
  split
  · exact closed
  · split
    · exact closed
    · refine transaction_keeps closed ?_
      intro sender receiver
      simp only [List.foldl_cons, List.foldl_nil, Tables.hasUser_insertIgnoreFriend] at sender receiver ⊢
      exact (closed_congr (by simp)).mpr (closed sender receiver)

theorem deleteFriend_closed (closed : ClosedWhileBoth fromUser toUser tables) {friendId : Int} :
    ClosedWhileBoth fromUser toUser (deleteFriend userId friendId answers tables).2 := by
  unfold deleteFriend
  split
  · exact closed
  · exact transaction_keeps closed closed

theorem sendRequest_closed (closed : ClosedWhileBoth fromUser toUser tables) {sender receiver : Int} :
    ClosedWhileBoth fromUser toUser (sendRequest sender receiver answers tables).2 := by
  unfold sendRequest
  split
  · exact closed
  · split
    · exact closed
    · split
      · exact closed
      · change ClosedWhileBoth fromUser toUser (if answers.executed 0 then _ else tables)
        split
        · intro hasSender hasReceiver
          simp only [Tables.HasUser, users_insertIgnoreRequest] at hasSender hasReceiver
          exact closed_insertIgnoreRequest (closed hasSender hasReceiver)
        · exact closed

theorem handleRequest_closed (closed : ClosedWhileBoth fromUser toUser tables) {accept : Bool} :
    ClosedWhileBoth fromUser toUser (handleRequest userId requestId accept answers tables).2 := by
  have answeredBy {status : RequestStatus} (answer : status ≠ .pending) :
      ClosedWhileBoth fromUser toUser (tables.setRequestStatus requestId status) := fun sender receiver =>
    closed_setRequestStatus answer (closed sender receiver)
  unfold handleRequest
  split
  · exact closed
  · split
    · exact closed
    · split
      · refine transaction_keeps closed ?_
        intro sender receiver
        simp only [List.foldl_cons, List.foldl_nil, Tables.hasUser_insertIgnoreFriend] at sender receiver ⊢
        exact (closed_congr (by simp)).mpr (answeredBy (by decide) sender receiver)
      · split
        · exact answeredBy (by decide)
        · exact closed

theorem deleteAccount_closed {password : String} (closed : ClosedWhileBoth fromUser toUser tables) :
    ClosedWhileBoth fromUser toUser (deleteAccount verifyPassword userId password answers tables).2 := by
  unfold deleteAccount
  split
  · exact closed
  · split
    · exact closed
    · split
      · exact closed
      · refine transaction_keeps closed ?_
        intro sender receiver
        simp only [List.foldl_cons, List.foldl_nil, Tables.hasUser_deleteUser] at sender receiver
        have others : fromUser ≠ userId ∧ toUser ≠ userId := ⟨sender.2, receiver.2⟩
        have kept := closed_deleteRequestsOf (closed sender.1 receiver.1) others
        exact closed_deleteRequestsOf kept others

theorem handle_closed (event : Event) (closed : ClosedWhileBoth fromUser toUser tables) :
    ClosedWhileBoth fromUser toUser (handle verifyPassword event tables).2 := by
  obtain ⟨request, answers⟩ := event
  cases request with
  | addFriend userId friendId => exact addFriend_closed closed
  | deleteFriend userId friendId => exact deleteFriend_closed closed
  | sendRequest sender receiver => exact sendRequest_closed closed
  | handleRequest userId requestId accept => exact handleRequest_closed closed
  | deleteAccount userId password => exact deleteAccount_closed closed

/-- Once the request is answered, no later one is recorded while both users
exist, whatever is requested in between. -/
theorem never_recorded_after_answer (closed : Closed fromUser toUser tables) (events : List Event) :
    (machine verifyPassword).Always (fun later => later.HasUser fromUser → later.HasUser toUser →
      ∀ answers, ¬Recorded fromUser toUser answers later) tables events := by
  have always : (machine verifyPassword).Always (ClosedWhileBoth fromUser toUser) tables events := by
    refine Machine.always_of_step _ (fun _ _ => closed) (fun before event next held stepped => ?_)
    cases stepped
    exact handle_closed event held
  refine always.mono (fun later held sender receiver answers recorded => ?_)
  obtain ⟨answered, nonePending⟩ := held sender receiver
  exact recorded.elim nonePending fun first => first.1 answered

end MuduoIm.Server.FriendService
