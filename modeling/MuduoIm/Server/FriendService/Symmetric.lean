import Mathlib.Combinatorics.SimpleGraph.DeleteEdges
import Mathlib.Combinatorics.SimpleGraph.Operations
import MuduoIm.Server.FriendService

namespace MuduoIm.Server.FriendService

/-! # Friendship is a graph on the users

Two rows of `friends` stand for one friendship.  The requests write the two rows
by separate statements, some of which skip a row in silence; that they come and
go together is the work of the transactions and of the foreign keys.
-/

structure FriendsSound (tables : Tables) : Prop where
  symmetric : ∀ a b, (a, b) ∈ tables.friends ↔ (b, a) ∈ tables.friends
  irreflexive : ∀ a, (a, a) ∉ tables.friends
  existing : ∀ a b, (a, b) ∈ tables.friends → tables.HasUser a ∧ tables.HasUser b
  requests : ∀ request ∈ tables.friendRequests, request.fromUser ≠ request.toUser

variable {tables after : Tables} {userId friendId fromUser toUser requestId : Int} {answers : Answers}
variable {statements : List (Tables → Tables)} {success : Reply} {message : String}

/-! ## Transactions -/

/-- A transaction takes effect as a whole or not at all. -/
theorem transaction_tables :
    (transaction answers statements success message tables).2 = tables ∨
      (transaction answers statements success message tables).2 =
        statements.foldl (fun tables statement => statement tables) tables := by
  unfold transaction
  split
  · exact .inl rfl
  · split
    · cases answers.commit with
      | committed => exact .inr rfl
      | lost => exact .inr rfl
      | refused => exact .inl rfl
    · exact .inl rfl

/-- What both ends of a transaction satisfy holds of what it leaves. -/
theorem transaction_keeps {property : Tables → Prop} (before : property tables)
    (completed : property (statements.foldl (fun tables statement => statement tables) tables)) :
    property (transaction answers statements success message tables).2 := by
  rcases @transaction_tables tables answers statements success message with unchanged | changed
  · rwa [unchanged]
  · rwa [changed]

/-! ## The statements of the requests -/

theorem insert_both_sound (sound : FriendsSound tables) (distinct : userId ≠ friendId) :
    FriendsSound ((tables.insertIgnoreFriend userId friendId).insertIgnoreFriend friendId userId) where
  symmetric := fun a b => by
    have old := sound.symmetric a b
    simp only [Tables.mem_insertIgnoreFriend, Tables.hasUser_insertIgnoreFriend, Prod.mk.injEq]
    tauto
  irreflexive := fun a => by
    have old := sound.irreflexive a
    simp only [Tables.mem_insertIgnoreFriend, Tables.hasUser_insertIgnoreFriend, Prod.mk.injEq]
    rintro ((member | ⟨⟨rfl, same⟩, _⟩) | ⟨⟨rfl, same⟩, _⟩)
    · exact old member
    · exact distinct same
    · exact distinct same.symm
  existing := fun a b => by
    have old := sound.existing a b
    simp only [Tables.mem_insertIgnoreFriend, Tables.hasUser_insertIgnoreFriend, Prod.mk.injEq]
    rintro ((member | ⟨⟨rfl, rfl⟩, exist⟩) | ⟨⟨rfl, rfl⟩, exist⟩)
    · exact old member
    · exact exist
    · exact exist
  requests := by
    simpa only [Tables.insertIgnoreFriend_friendRequests] using sound.requests

theorem delete_both_sound (sound : FriendsSound tables) :
    FriendsSound ((tables.deleteFriend userId friendId).deleteFriend friendId userId) where
  symmetric := fun a b => by
    have old := sound.symmetric a b
    simp only [Tables.mem_deleteFriend, ne_eq, Prod.mk.injEq]
    tauto
  irreflexive := fun a member =>
    sound.irreflexive a (Tables.mem_deleteFriend.mp (Tables.mem_deleteFriend.mp member).1).1
  existing := fun a b member =>
    sound.existing a b (Tables.mem_deleteFriend.mp (Tables.mem_deleteFriend.mp member).1).1
  requests := sound.requests

theorem setRequestStatus_sound {status : RequestStatus} (sound : FriendsSound tables) :
    FriendsSound (tables.setRequestStatus requestId status) where
  symmetric := sound.symmetric
  irreflexive := sound.irreflexive
  existing := sound.existing
  requests := fun request member => by
    obtain ⟨old, found, rfl⟩ := List.mem_map.mp member
    have distinct := sound.requests old found
    split <;> exact distinct

theorem insertIgnoreRequest_sound (sound : FriendsSound tables) (distinct : fromUser ≠ toUser) :
    FriendsSound (tables.insertIgnoreRequest fromUser toUser) := by
  unfold Tables.insertIgnoreRequest
  split
  · refine ⟨sound.symmetric, sound.irreflexive, sound.existing, fun request member => ?_⟩
    rcases List.mem_cons.mp member with rfl | member
    · exact distinct
    · exact sound.requests request member
  · exact sound

/-! Without the rows of one user the friendships of the others stay symmetric. -/

theorem deleteFriendsOf_sound (sound : FriendsSound tables) : FriendsSound (tables.deleteFriendsOf userId) where
  symmetric := fun a b => by
    have old := sound.symmetric a b
    simp only [Tables.mem_deleteFriendsOf]
    tauto
  irreflexive := fun a member => sound.irreflexive a (Tables.mem_deleteFriendsOf.mp member).1
  existing := fun a b member => sound.existing a b (Tables.mem_deleteFriendsOf.mp member).1
  requests := sound.requests

theorem deleteRequestsOf_sound (sound : FriendsSound tables) : FriendsSound (tables.deleteRequestsOf userId) where
  symmetric := sound.symmetric
  irreflexive := sound.irreflexive
  existing := sound.existing
  requests := fun request member => sound.requests request (List.mem_filter.mp member).1

theorem deleteUser_sound (sound : FriendsSound tables) : FriendsSound (tables.deleteUser userId) where
  symmetric := fun a b => by
    have old := sound.symmetric a b
    simp only [Tables.mem_deleteUser_friends]
    tauto
  irreflexive := fun a member => sound.irreflexive a (Tables.mem_deleteUser_friends.mp member).1
  existing := fun a b member => by
    obtain ⟨member, others⟩ := Tables.mem_deleteUser_friends.mp member
    obtain ⟨left, right⟩ := sound.existing a b member
    exact ⟨Tables.hasUser_deleteUser.mpr ⟨left, others.1⟩, Tables.hasUser_deleteUser.mpr ⟨right, others.2⟩⟩
  requests := fun request member => sound.requests request (List.mem_filter.mp member).1

/-! ## Requests and runs -/

theorem addFriend_sound (sound : FriendsSound tables) :
    FriendsSound (addFriend userId friendId answers tables).2 := by
  unfold addFriend
  split
  · exact sound
  · rename_i distinct
    split
    · exact sound
    · exact transaction_keeps sound (insert_both_sound sound distinct)

theorem deleteFriend_sound (sound : FriendsSound tables) :
    FriendsSound (deleteFriend userId friendId answers tables).2 := by
  unfold deleteFriend
  split
  · exact sound
  · exact transaction_keeps sound (delete_both_sound sound)

theorem sendRequest_sound (sound : FriendsSound tables) :
    FriendsSound (sendRequest fromUser toUser answers tables).2 := by
  unfold sendRequest
  split
  · exact sound
  · rename_i distinct
    split
    · exact sound
    · split
      · exact sound
      · show FriendsSound (if answers.executed 0 then _ else _)
        split
        · exact insertIgnoreRequest_sound sound distinct
        · exact sound

/-- An accepted request has two ends, because `sendRequest` stored it. -/
theorem handleRequest_sound {accept : Bool} (sound : FriendsSound tables) :
    FriendsSound (handleRequest userId requestId accept answers tables).2 := by
  unfold handleRequest
  split
  · exact sound
  · split
    · exact sound
    · rename_i found
      split at found
      · have distinct := sound.requests _ (List.mem_of_find?_eq_some found)
        split
        · exact transaction_keeps sound (insert_both_sound (setRequestStatus_sound sound) distinct)
        · split
          · exact setRequestStatus_sound sound
          · exact sound
      · cases found

variable {verifyPassword : String → String → Bool} {password : String}

theorem deleteAccount_sound (sound : FriendsSound tables) :
    FriendsSound (deleteAccount verifyPassword userId password answers tables).2 := by
  unfold deleteAccount
  split
  · exact sound
  · split
    · exact sound
    · split
      · exact sound
      · have withoutFriends : FriendsSound (Tables.deleteMembershipsOf userId (tables.deleteFriendsOf userId)) :=
          { deleteFriendsOf_sound sound with }
        exact transaction_keeps sound (deleteUser_sound (deleteRequestsOf_sound withoutFriends))

theorem handle_sound (event : Event) (sound : FriendsSound tables) :
    FriendsSound (handle verifyPassword event tables).2 := by
  unfold handle
  cases event.request with
  | addFriend userId friendId => exact addFriend_sound sound
  | deleteFriend userId friendId => exact deleteFriend_sound sound
  | sendRequest fromUser toUser => exact sendRequest_sound sound
  | handleRequest userId requestId accept => exact handleRequest_sound sound
  | deleteAccount userId password => exact deleteAccount_sound sound

/-- From empty tables of friends and requests on. -/
theorem friends_always_sound (verifyPassword : String → String → Bool) (start : Tables)
    (events : List Event) :
    (machine verifyPassword).Always FriendsSound
      { start with friends := [], friendRequests := [] } events := by
  refine Transition.Machine.always_of_step FriendsSound ?_ fun tables event after sound stepped => ?_
  · refine ⟨fun a b => ⟨fun member => ?_, fun member => ?_⟩, fun a member => ?_, fun a b member => ?_,
      fun request member => ?_⟩ <;> cases member
  · cases stepped
    exact handle_sound event sound

/-! ## Groups -/

/-- The requests keep what the keys of the groups guarantee; a deleted account
takes its groups with it. -/
theorem handle_groupsConsistent (event : Event) (consistent : tables.GroupsConsistent) :
    (handle verifyPassword event tables).2.GroupsConsistent := by
  have same {later : Tables} (groups : later.groups = tables.groups)
      (members : later.groupMembers = tables.groupMembers) (counter : later.nextGroupId = tables.nextGroupId) :
      later.GroupsConsistent := consistent.of_same groups members counter
  unfold handle
  cases event.request with
  | addFriend userId friendId =>
      dsimp only [addFriend]
      split
      · exact consistent
      · split
        · exact consistent
        · exact transaction_keeps consistent
            (Tables.insertIgnoreFriend_consistent (Tables.insertIgnoreFriend_consistent consistent))
  | deleteFriend userId friendId =>
      dsimp only [deleteFriend]
      split
      · exact consistent
      · exact transaction_keeps consistent (same rfl rfl rfl)
  | sendRequest fromUser toUser =>
      dsimp only [sendRequest]
      split
      · exact consistent
      · split
        · exact consistent
        · split
          · exact consistent
          · dsimp only
            split
            · unfold Tables.insertIgnoreRequest
              split
              · exact same rfl rfl rfl
              · exact consistent
            · exact consistent
  | handleRequest userId requestId accept =>
      dsimp only [handleRequest]
      split
      · exact consistent
      · split
        · exact consistent
        · split
          · refine transaction_keeps consistent (Tables.insertIgnoreFriend_consistent
              (Tables.insertIgnoreFriend_consistent ?_))
            exact same rfl rfl rfl
          · split
            · exact same rfl rfl rfl
            · exact consistent
  | deleteAccount userId password =>
      dsimp only [deleteAccount]
      split
      · exact consistent
      · split
        · exact consistent
        · split
          · exact consistent
          · refine transaction_keeps consistent (Tables.deleteUser_consistent ?_)
            have left : (tables.deleteFriendsOf userId).GroupsConsistent := same rfl rfl rfl
            exact (Tables.deleteMembershipsOf_consistent left).of_same rfl rfl rfl

/-! ## The graph of friends -/

/-- Who is a friend of whom. -/
def friendship (sound : FriendsSound tables) : SimpleGraph Int where
  Adj a b := (a, b) ∈ tables.friends
  symm := ⟨fun a b => (sound.symmetric a b).mp⟩
  loopless := ⟨sound.irreflexive⟩

/-- A reported success is the whole transaction. -/
theorem transaction_succeeded
    (succeeded : (transaction answers statements success message tables).1.success = true) :
    (transaction answers statements success message tables).2 =
      statements.foldl (fun tables statement => statement tables) tables := by
  unfold transaction at succeeded ⊢
  split at succeeded
  · contradiction
  · rename_i active
    rw [if_neg active]
    split at succeeded
    · rename_i executed
      rw [if_pos executed]
      cases answer : answers.commit with
      | committed => rfl
      | lost => rfl
      | refused => simp [answer, failure] at succeeded
    · contradiction

theorem addFriend_succeeded
    (succeeded : (addFriend userId friendId answers tables).1.success = true) :
    userId ≠ friendId ∧ (addFriend userId friendId answers tables).2 =
      (tables.insertIgnoreFriend userId friendId).insertIgnoreFriend friendId userId := by
  unfold addFriend at succeeded ⊢
  split at succeeded
  · contradiction
  · rename_i distinct
    rw [if_neg distinct]
    split at succeeded
    · contradiction
    · rename_i connected
      rw [if_neg connected]
      exact ⟨distinct, transaction_succeeded succeeded⟩

theorem deleteFriend_succeeded
    (succeeded : (deleteFriend userId friendId answers tables).1.success = true) :
    (deleteFriend userId friendId answers tables).2 =
      (tables.deleteFriend userId friendId).deleteFriend friendId userId := by
  unfold deleteFriend at succeeded ⊢
  split at succeeded
  · contradiction
  · rename_i connected
    rw [if_neg connected]
    exact transaction_succeeded succeeded

theorem deleteAccount_succeeded
    (succeeded : (deleteAccount verifyPassword userId password answers tables).1.success = true) :
    (deleteAccount verifyPassword userId password answers tables).2 =
      ((((tables.deleteFriendsOf userId).deleteMembershipsOf userId).deleteRequestsOf userId).deleteUser
        userId) := by
  unfold deleteAccount at succeeded ⊢
  split at succeeded
  · contradiction
  · rename_i connected
    rw [if_neg connected]
    split at succeeded
    · contradiction
    · split at succeeded
      · contradiction
      · rename_i verified
        rw [if_neg verified]
        exact transaction_succeeded succeeded

theorem addFriend_friendship (sound : FriendsSound tables)
    (soundAfter : FriendsSound (addFriend userId friendId answers tables).2)
    (left : tables.HasUser userId) (right : tables.HasUser friendId)
    (succeeded : (addFriend userId friendId answers tables).1.success = true) :
    friendship soundAfter = friendship sound ⊔ SimpleGraph.edge userId friendId := by
  obtain ⟨distinct, inserted⟩ := addFriend_succeeded succeeded
  refine SimpleGraph.ext (funext₂ fun a b => propext ?_)
  simp only [friendship, inserted, Tables.mem_insertIgnoreFriend, Tables.hasUser_insertIgnoreFriend,
    SimpleGraph.sup_adj, SimpleGraph.edge_adj, Prod.mk.injEq, left, right, and_true]
  constructor
  · rintro ((member | ⟨rfl, rfl⟩) | ⟨rfl, rfl⟩)
    · exact .inl member
    · exact .inr ⟨.inl ⟨rfl, rfl⟩, distinct⟩
    · exact .inr ⟨.inr ⟨rfl, rfl⟩, distinct.symm⟩
  · tauto

theorem deleteFriend_friendship (sound : FriendsSound tables)
    (soundAfter : FriendsSound (deleteFriend userId friendId answers tables).2)
    (succeeded : (deleteFriend userId friendId answers tables).1.success = true) :
    friendship soundAfter = (friendship sound).deleteEdges {s(userId, friendId)} := by
  refine SimpleGraph.ext (funext₂ fun a b => propext ?_)
  simp only [friendship, deleteFriend_succeeded succeeded, Tables.mem_deleteFriend,
    SimpleGraph.deleteEdges_adj, Set.mem_singleton_iff, Sym2.eq_iff, ne_eq, Prod.mk.injEq, not_or, and_assoc]

theorem deleteAccount_friendship (sound : FriendsSound tables)
    (soundAfter : FriendsSound (deleteAccount verifyPassword userId password answers tables).2)
    (succeeded : (deleteAccount verifyPassword userId password answers tables).1.success = true) :
    friendship soundAfter = (friendship sound).deleteIncidenceSet userId := by
  refine SimpleGraph.ext (funext₂ fun a b => propext ?_)
  simp only [friendship, deleteAccount_succeeded succeeded, Tables.mem_deleteUser_friends,
    SimpleGraph.deleteIncidenceSet_adj]
  show (a, b) ∈ (tables.deleteFriendsOf userId).friends ∧ _ ↔ _
  rw [Tables.mem_deleteFriendsOf, and_assoc, and_self]

end MuduoIm.Server.FriendService
