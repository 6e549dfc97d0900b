import MuduoIm.Server.GroupService.Owners

namespace MuduoIm.Server.GroupService.Authority

open MuduoIm.Transition MuduoIm.Server.GroupService.Requests MuduoIm.Server.SagaCoordinator

/-! # Who may change a group

The requests on groups once more, now a statement at a time: a request that
only the owner may make checks the owner with one statement and writes with a
later one, and the statements of other requests come in between.  With a
coordinator a creation is a saga, whose transactions are steps of their own, also
those of the recovery after a crash.
-/

/-- `announcements` is a column of `groups`, of which the rows that exist are read. -/
structure Groups where
  tables : Tables := {}
  announcements : Int → String := fun _ => ""

def Groups.getAnnouncement (groups : Groups) (groupId : Int) : String :=
  if groups.tables.HasGroup groupId then groups.announcements groupId else ""

/-- A new row has no announcement. -/
def Groups.rewrite (groups : Groups) (tables : Tables) : Groups where
  tables := tables
  announcements := fun groupId => if groups.tables.HasGroup groupId then groups.announcements groupId else ""

/-- `createGroup` is the one without a coordinator. -/
inductive Request where
  | createGroup (ownerId : Int) (name : String)
  | joinGroup (userId groupId : Int)
  | leaveGroup (userId groupId : Int)
  | kickMember (operatorId groupId targetUserId : Int)
  | deleteGroup (userId groupId : Int)
  | setAnnouncement (userId groupId : Int) (announcement : String)
  | deleteAccount (userId : Int)
deriving DecidableEq, Repr

/-- A group that is being created has its row, and not yet its first member; a
request that a crash cuts off goes no further. -/
inductive Phase where
  | idle
  | checked
  | inserted (groupId : Int)
  | returned (reply : Reply)
  | cutOff
deriving DecidableEq, Repr

def failed (message : String) : Reply := { success := false, message }

def ownerCheck (groups : Groups) (connected answered : Bool) (userId groupId : Int) (refusal : String) : Phase :=
  if !connected then .returned (failed "db error")
  else
    match if answered then findOwner groupId groups.tables else none with
    | none => .returned (failed "group not found")
    | some ownerId => if ownerId ≠ userId then .returned (failed refusal) else .checked

/-- A request before it writes.  `answered` is whether the SELECT is answered,
and for a deletion of an account whether it finds the password right. -/
def check (groups : Groups) (connected answered : Bool) : Request → Phase
  | .createGroup _ name =>
      if name = "" then .returned (failed "name required")
      else if !connected then .returned (failed "db error") else .checked
  | .joinGroup _ _ => if !connected then .returned (failed "db error") else .checked
  | .leaveGroup userId groupId =>
      if !connected then .returned (failed "db error")
      else if answered = true ∧ findOwner groupId groups.tables = some userId then
        .returned (failed "owner cannot leave, use delete instead")
      else .checked
  | .kickMember operatorId groupId targetUserId =>
      if operatorId = targetUserId then .returned (failed "cannot kick yourself")
      else ownerCheck groups connected answered operatorId groupId "only owner can kick members"
  | .deleteGroup userId groupId =>
      ownerCheck groups connected answered userId groupId "only owner can delete group"
  | .setAnnouncement userId groupId _ =>
      ownerCheck groups connected answered userId groupId "only owner can set announcement"
  | .deleteAccount _ =>
      if !connected then .returned (failed "db error")
      else if answered then .checked else .returned (failed "wrong password")

/-- The UPDATE of an announcement changes a row that is there. -/
def updateAnnouncement (groupId : Int) (announcement : String) (groups : Groups) : Groups :=
  if groups.tables.HasGroup groupId then
    { groups with announcements := Function.update groups.announcements groupId announcement }
  else groups

/-- What the transactions of the two deletions do to the tables of the groups. -/
def removeGroup (groupId : Int) (tables : Tables) : Tables := (deleteMembersOf groupId tables).deleteGroup groupId

def removeAccount (userId : Int) (tables : Tables) : Tables :=
  (((tables.deleteFriendsOf userId).deleteMembershipsOf userId).deleteRequestsOf userId).deleteUser userId

/-- The write of a request, the first of two for a creation. -/
def write (groups : Groups) (executed : Bool) : Request → Groups × Phase
  | .createGroup ownerId name =>
      match if executed then groups.tables.insertGroup name ownerId else none with
      | none => (groups, .returned (failed "create failed"))
      | some tables =>
          ({ tables, announcements := Function.update groups.announcements groups.tables.nextGroupId "" },
            .inserted groups.tables.nextGroupId)
  | .joinGroup userId groupId =>
      ({ groups with tables := tryInsertMember groupId userId executed groups.tables },
        .returned { success := true })
  | .leaveGroup userId groupId =>
      (if executed then { groups with tables := groups.tables.deleteMember groupId userId } else groups,
        .returned { success := true })
  | .kickMember _ groupId targetUserId =>
      (if executed then { groups with tables := groups.tables.deleteMember groupId targetUserId } else groups,
        .returned { success := true })
  | .deleteGroup _ groupId =>
      if executed then ({ groups with tables := removeGroup groupId groups.tables }, .returned { success := true })
      else (groups, .returned (failed "delete failed"))
  | .setAnnouncement _ groupId announcement =>
      (if executed then updateAnnouncement groupId announcement groups else groups, .returned { success := true })
  | .deleteAccount userId =>
      if executed then ({ groups with tables := removeAccount userId groups.tables }, .returned { success := true })
      else (groups, .returned (failed "delete failed"))

structure State (Call : Type) where
  groups : Groups := {}
  sagas : Int → Option (Saga GroupPayload) := fun _ => none
  calls : Call → Phase := fun _ => .idle

/-- `start` is the INSERT of a creation with a coordinator. -/
inductive Event (Call : Type) where
  | check (call : Call) (connected answered : Bool)
  | write (call : Call) (executed : Bool)
  | start (sagaId ownerId : Int) (name : String)
  | saga (sagaId : Int) (event : SagaEvent Statement)
  | crash

def Phase.afterCrash : Phase → Phase
  | .checked | .inserted _ => .cutOff
  | phase => phase

variable {Call : Type} [DecidableEq Call] (requestOf : Call → Request)

def step (state : State Call) : Event Call → Option (State Call)
  | .check call connected answered =>
      match state.calls call with
      | .idle =>
          let phase := check state.groups connected answered (requestOf call)
          some { state with calls := Function.update state.calls call phase }
      | _ => none
  | .write call executed =>
      match state.calls call, requestOf call with
      | .checked, request =>
          let written := write state.groups executed request
          some { state with groups := written.1, calls := Function.update state.calls call written.2 }
      | .inserted groupId, .createGroup ownerId _ =>
          let tables := tryInsertMember groupId ownerId executed state.groups.tables
          some { state with
            groups := { state.groups with tables }
            calls := Function.update state.calls call (.returned { success := true, groupId := some groupId }) }
      | _, _ => none
  | .start sagaId ownerId name =>
      if name ≠ "" ∧ state.sagas sagaId = none then
        some { state with sagas := Function.update state.sagas sagaId (some { row := startedRow ownerId name }) }
      else none
  | .saga sagaId event =>
      match state.sagas sagaId with
      | none => none
      | some saga =>
          match sagaStep groupDefs sagaId saga state.groups.tables event with
          | none => none
          | some (after, tables) => some { state with
              groups := state.groups.rewrite tables
              sagas := Function.update state.sagas sagaId (some after) }
  | .crash => some { state with
      sagas := fun sagaId => (state.sagas sagaId).map (fun saga => { saga with call := .idle })
      calls := fun call => (state.calls call).afterCrash }

def machine : Machine (State Call) (Event Call) := ⟨step requestOf⟩

/-! ## What is allowed -/

/-- Who is behind a write: a request, or the creation of a group by its owner. -/
inductive Author where
  | request (request : Request)
  | creation (ownerId groupId : Int)
deriving DecidableEq, Repr

/-- Who takes a user out of a group: the user, the owner (others only), the end
of the group or of an account, or the creation of the group that has failed and
takes the group back. -/
def MayRemove (tables : Tables) (groupId userId : Int) : Author → Prop
  | .request (.leaveGroup leaver group) => leaver = userId ∧ group = groupId
  | .request (.kickMember operatorId group target) =>
      group = groupId ∧ target = userId ∧ findOwner groupId tables = some operatorId ∧ operatorId ≠ userId
  | .request (.deleteGroup ownerId group) => group = groupId ∧ findOwner groupId tables = some ownerId
  | .request (.deleteAccount deleted) => deleted = userId ∨ findOwner groupId tables = some deleted
  | .creation ownerId group => group = groupId ∧ findOwner groupId tables = some ownerId
  | _ => False

/-- Nobody but the user puts a user into a group, by joining or by creating it. -/
def MayAdd (groupId userId : Int) : Author → Prop
  | .request (.joinGroup joiner group) => joiner = userId ∧ group = groupId
  | .request (.createGroup ownerId _) => ownerId = userId
  | .creation ownerId group => ownerId = userId ∧ group = groupId
  | _ => False

def MayEnd (tables : Tables) (groupId : Int) : Author → Prop
  | .request (.deleteGroup ownerId group) => group = groupId ∧ findOwner groupId tables = some ownerId
  | .request (.deleteAccount ownerId) => findOwner groupId tables = some ownerId
  | .creation ownerId group => group = groupId ∧ findOwner groupId tables = some ownerId
  | _ => False

/-- A write changes the groups only as its author may, by the rows that are in
force at that moment. -/
structure Allowed (before after : Groups) (author : Author) : Prop where
  removed : ∀ groupId userId, (groupId, userId) ∈ before.tables.groupMembers →
    (groupId, userId) ∉ after.tables.groupMembers → MayRemove before.tables groupId userId author
  added : ∀ groupId userId, (groupId, userId) ∉ before.tables.groupMembers →
    (groupId, userId) ∈ after.tables.groupMembers → MayAdd groupId userId author
  ended : ∀ groupId ownerId, findOwner groupId before.tables = some ownerId →
    findOwner groupId after.tables = some ownerId ∨
      (findOwner groupId after.tables = none ∧ MayEnd before.tables groupId author)
  announced : ∀ groupId, after.getAnnouncement groupId ≠ before.getAnnouncement groupId →
    MayEnd before.tables groupId author ∨
      ∃ ownerId, findOwner groupId before.tables = some ownerId ∧
        author = .request (.setAnnouncement ownerId groupId (after.getAnnouncement groupId))

/-- Only writes and the steps of sagas have an author. -/
def authorOf (state : State Call) : Event Call → Option Author
  | .write call _ => some (.request (requestOf call))
  | .saga sagaId _ => (state.sagas sagaId).map fun saga =>
      .creation saga.row.payload.ownerId saga.row.payload.groupId
  | _ => none

end MuduoIm.Server.GroupService.Authority
