import Mathlib.Data.List.Basic
import MuduoIm.Data.Text

namespace MuduoIm.Server

open MuduoIm.Data.Text

/-! # Users and the tables that refer to them

The tables of `init.sql` whose foreign keys lead to `users`, with the columns
that the services below read, and the statements that these services send.  A
statement keeps the primary and unique keys and the foreign keys of its table;
every foreign key here is ON DELETE CASCADE.
-/

structure User where
  id : Int
  password : String
deriving DecidableEq, Repr

inductive RequestStatus where
  | pending
  | accepted
  | rejected
deriving DecidableEq, Repr

structure FriendRequest where
  id : Int
  fromUser : Int
  toUser : Int
  status : RequestStatus
deriving DecidableEq, Repr

structure Group where
  id : Int
  name : String
  ownerId : Int
deriving DecidableEq, Repr

/-- A row of `friends` is `(user_id, friend_id)`, one of `group_members`
`(group_id, user_id)`.  The last two fields are the AUTO_INCREMENT counters. -/
structure Tables where
  users : List User := []
  friends : List (Int × Int) := []
  friendRequests : List FriendRequest := []
  groups : List Group := []
  groupMembers : List (Int × Int) := []
  nextRequestId : Int := 1
  nextGroupId : Int := 1
deriving DecidableEq, Repr

namespace Tables

def HasUser (tables : Tables) (userId : Int) : Prop := ∃ user ∈ tables.users, user.id = userId

def HasGroup (tables : Tables) (groupId : Int) : Prop := ∃ group ∈ tables.groups, group.id = groupId

instance (tables : Tables) (userId : Int) : Decidable (tables.HasUser userId) := by
  unfold HasUser
  infer_instance

instance (tables : Tables) (groupId : Int) : Decidable (tables.HasGroup groupId) := by
  unfold HasGroup
  infer_instance

instance (tables : Tables) (userId friendId : Int) : Decidable ((userId, friendId) ∈ tables.friends) :=
  inferInstance

/-! ## `friends` and `friend_requests` -/

/-- IGNORE skips a row that violates a key. -/
def insertIgnoreFriend (userId friendId : Int) (tables : Tables) : Tables :=
  if (userId, friendId) ∉ tables.friends ∧ tables.HasUser userId ∧ tables.HasUser friendId then
    { tables with friends := (userId, friendId) :: tables.friends }
  else tables

def deleteFriend (userId friendId : Int) (tables : Tables) : Tables :=
  { tables with friends := tables.friends.filter (fun row => row ≠ (userId, friendId)) }

def deleteFriendsOf (userId : Int) (tables : Tables) : Tables :=
  { tables with friends := tables.friends.filter (fun row => row.1 ≠ userId ∧ row.2 ≠ userId) }

def insertIgnoreRequest (fromUser toUser : Int) (tables : Tables) : Tables :=
  if (∀ request ∈ tables.friendRequests, ¬(request.fromUser = fromUser ∧ request.toUser = toUser)) ∧
      tables.HasUser fromUser ∧ tables.HasUser toUser then
    { tables with
      friendRequests := { id := tables.nextRequestId, fromUser, toUser, status := .pending } :: tables.friendRequests
      nextRequestId := tables.nextRequestId + 1 }
  else tables

def setRequestStatus (requestId : Int) (status : RequestStatus) (tables : Tables) : Tables :=
  { tables with friendRequests := tables.friendRequests.map fun request =>
      if request.id = requestId then { request with status } else request }

def deleteRequestsOf (userId : Int) (tables : Tables) : Tables :=
  { tables with
    friendRequests := tables.friendRequests.filter fun request =>
      request.fromUser ≠ userId ∧ request.toUser ≠ userId }

/-! ## `groups` and `group_members` -/

/-- VARCHAR(128). -/
def groupNameLimit : Nat := 128

def insertGroup (name : String) (ownerId : Int) (tables : Tables) : Option Tables :=
  if tables.HasUser ownerId then
    (varchar groupNameLimit name).map fun stored =>
      { tables with
        groups := { id := tables.nextGroupId, name := stored, ownerId } :: tables.groups
        nextGroupId := tables.nextGroupId + 1 }
  else none

def deleteGroup (groupId : Int) (tables : Tables) : Tables :=
  { tables with
    groups := tables.groups.filter (fun group => group.id ≠ groupId)
    groupMembers := tables.groupMembers.filter (fun row => row.1 ≠ groupId) }

def insertMember (groupId userId : Int) (tables : Tables) : Option Tables :=
  if (groupId, userId) ∉ tables.groupMembers ∧ tables.HasGroup groupId ∧ tables.HasUser userId then
    some { tables with groupMembers := (groupId, userId) :: tables.groupMembers }
  else none

def deleteMember (groupId userId : Int) (tables : Tables) : Tables :=
  { tables with groupMembers := tables.groupMembers.filter (fun row => row ≠ (groupId, userId)) }

def deleteMembershipsOf (userId : Int) (tables : Tables) : Tables :=
  { tables with groupMembers := tables.groupMembers.filter (fun row => row.2 ≠ userId) }

/-! ## `users` -/

/-- The cascade reaches the memberships of the groups that the user owns. -/
def deleteUser (userId : Int) (tables : Tables) : Tables :=
  let groups := tables.groups.filter (fun group => group.ownerId ≠ userId)
  { tables with
    users := tables.users.filter (fun user => user.id ≠ userId)
    friends := tables.friends.filter (fun row => row.1 ≠ userId ∧ row.2 ≠ userId)
    friendRequests := tables.friendRequests.filter fun request =>
      request.fromUser ≠ userId ∧ request.toUser ≠ userId
    groups
    groupMembers := tables.groupMembers.filter fun row =>
      row.2 ≠ userId ∧ ∃ group ∈ groups, group.id = row.1 }

/-! ## What the statements leave -/

variable {tables after : Tables} {userId friendId groupId : Int}

@[simp] theorem insertIgnoreFriend_users :
    (tables.insertIgnoreFriend userId friendId).users = tables.users := by
  unfold insertIgnoreFriend
  split <;> rfl

@[simp] theorem insertIgnoreFriend_friendRequests :
    (tables.insertIgnoreFriend userId friendId).friendRequests = tables.friendRequests := by
  unfold insertIgnoreFriend
  split <;> rfl

@[simp] theorem hasUser_insertIgnoreFriend {other : Int} :
    (tables.insertIgnoreFriend userId friendId).HasUser other ↔ tables.HasUser other := by
  simp only [HasUser, insertIgnoreFriend_users]

@[simp] theorem mem_insertIgnoreFriend {row : Int × Int} :
    row ∈ (tables.insertIgnoreFriend userId friendId).friends ↔
      row ∈ tables.friends ∨ (row = (userId, friendId) ∧ tables.HasUser userId ∧ tables.HasUser friendId) := by
  unfold insertIgnoreFriend
  split
  · rename_i keys
    simp only [List.mem_cons, keys.2, and_self, and_true, or_comm]
  · rename_i skipped
    refine ⟨.inl, ?_⟩
    rintro (member | ⟨rfl, exist⟩)
    · exact member
    · exact of_not_not fun absent => skipped ⟨absent, exist⟩

@[simp] theorem mem_deleteFriend {row : Int × Int} :
    row ∈ (tables.deleteFriend userId friendId).friends ↔ row ∈ tables.friends ∧ row ≠ (userId, friendId) := by
  simp only [deleteFriend, List.mem_filter, decide_eq_true_eq]

@[simp] theorem mem_deleteFriendsOf {row : Int × Int} :
    row ∈ (tables.deleteFriendsOf userId).friends ↔
      row ∈ tables.friends ∧ row.1 ≠ userId ∧ row.2 ≠ userId := by
  simp only [deleteFriendsOf, List.mem_filter, decide_eq_true_eq]

@[simp] theorem mem_deleteUser_friends {row : Int × Int} :
    row ∈ (tables.deleteUser userId).friends ↔ row ∈ tables.friends ∧ row.1 ≠ userId ∧ row.2 ≠ userId := by
  simp only [deleteUser, List.mem_filter, decide_eq_true_eq]

@[simp] theorem hasUser_deleteUser {other : Int} :
    (tables.deleteUser userId).HasUser other ↔ tables.HasUser other ∧ other ≠ userId := by
  constructor
  · rintro ⟨user, member, rfl⟩
    obtain ⟨member, kept⟩ := List.mem_filter.mp member
    exact ⟨⟨user, member, rfl⟩, of_decide_eq_true kept⟩
  · rintro ⟨⟨user, member, rfl⟩, other⟩
    exact ⟨user, List.mem_filter.mpr ⟨member, decide_eq_true other⟩, rfl⟩

/-! ## What the keys guarantee -/

/-- Group ids come from the counter, and memberships belong to existing groups. -/
structure GroupsConsistent (tables : Tables) : Prop where
  counter : 0 < tables.nextGroupId
  issued : ∀ group ∈ tables.groups, group.id < tables.nextGroupId
  members : ∀ row ∈ tables.groupMembers, tables.HasGroup row.1

/-- A new id is used nowhere. -/
theorem GroupsConsistent.fresh (consistent : tables.GroupsConsistent) :
    ¬tables.HasGroup tables.nextGroupId ∧ ∀ userId, (tables.nextGroupId, userId) ∉ tables.groupMembers := by
  have absent : ¬tables.HasGroup tables.nextGroupId := by
    rintro ⟨group, member, same⟩
    exact absurd (consistent.issued group member) (by omega)
  exact ⟨absent, fun userId member => absent (consistent.members _ member)⟩

theorem GroupsConsistent.of_same (consistent : tables.GroupsConsistent) (groups : after.groups = tables.groups)
    (members : after.groupMembers = tables.groupMembers) (counter : after.nextGroupId = tables.nextGroupId) :
    after.GroupsConsistent where
  counter := by
    rw [counter]
    exact consistent.counter
  issued := by
    rw [groups, counter]
    exact consistent.issued
  members := by
    unfold HasGroup
    rw [members, groups]
    exact consistent.members

theorem insertIgnoreFriend_consistent (consistent : tables.GroupsConsistent) :
    (tables.insertIgnoreFriend userId friendId).GroupsConsistent := by
  unfold insertIgnoreFriend
  split
  · exact consistent.of_same rfl rfl rfl
  · exact consistent

theorem insertGroup_consistent {name : String} (consistent : tables.GroupsConsistent)
    (inserted : tables.insertGroup name userId = some after) : after.GroupsConsistent := by
  unfold insertGroup at inserted
  split at inserted
  · obtain ⟨stored, _, rfl⟩ := Option.map_eq_some_iff.mp inserted
    refine ⟨by have := consistent.counter; simp only; omega, fun group member => ?_, fun row member => ?_⟩
    · rcases List.mem_cons.mp member with rfl | member
      · exact Int.lt_succ _
      · exact Int.lt_trans (consistent.issued group member) (Int.lt_succ _)
    · obtain ⟨group, found, same⟩ := consistent.members row member
      exact ⟨group, List.mem_cons_of_mem _ found, same⟩
  · cases inserted

theorem insertMember_consistent (consistent : tables.GroupsConsistent)
    (inserted : tables.insertMember groupId userId = some after) : after.GroupsConsistent := by
  unfold insertMember at inserted
  split at inserted
  · rename_i keys
    cases inserted
    refine ⟨consistent.counter, consistent.issued, fun row member => ?_⟩
    rcases List.mem_cons.mp member with rfl | member
    · exact keys.2.1
    · exact consistent.members row member
  · cases inserted

theorem deleteGroup_consistent (consistent : tables.GroupsConsistent) :
    (tables.deleteGroup groupId).GroupsConsistent where
  counter := consistent.counter
  issued := fun group member => consistent.issued group (List.mem_filter.mp member).1
  members := fun row member => by
    obtain ⟨member, other⟩ := List.mem_filter.mp member
    obtain ⟨group, found, same⟩ := consistent.members row member
    refine ⟨group, List.mem_filter.mpr ⟨found, ?_⟩, same⟩
    rwa [same]

theorem deleteMember_consistent (consistent : tables.GroupsConsistent) :
    (tables.deleteMember groupId userId).GroupsConsistent where
  counter := consistent.counter
  issued := consistent.issued
  members := fun row member => consistent.members row (List.mem_filter.mp member).1

theorem deleteMembershipsOf_consistent (consistent : tables.GroupsConsistent) :
    (tables.deleteMembershipsOf userId).GroupsConsistent where
  counter := consistent.counter
  issued := consistent.issued
  members := fun row member => consistent.members row (List.mem_filter.mp member).1

theorem deleteUser_consistent (consistent : tables.GroupsConsistent) :
    (tables.deleteUser userId).GroupsConsistent where
  counter := consistent.counter
  issued := fun group member => consistent.issued group (List.mem_filter.mp member).1
  members := fun row member => by
    have kept := of_decide_eq_true (List.mem_filter.mp member).2
    exact kept.2

end Tables

end MuduoIm.Server
