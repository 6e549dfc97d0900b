import MuduoIm.Server.FriendService
import MuduoIm.Server.GroupService

namespace MuduoIm.Server.GroupService

open MuduoIm.Transition
open FriendService (Answers failure transaction)

/-! # The requests on groups

Creation without a coordinator, the requests on members, and what else removes
groups and memberships.  The replies of the latter carry no group id and are
those of `FriendService`.
-/

namespace Requests

/-- `prepared` answers `stmt.valid()`, `group` and `member` the two INSERTs. -/
structure LegacyAnswers where
  connected : Bool
  prepared : Bool
  group : Bool
  member : Bool
deriving DecidableEq, Repr

/-- INSERT IGNORE, or an INSERT whose result nobody looks at. -/
def tryInsertMember (groupId userId : Int) (executed : Bool) (tables : Tables) : Tables :=
  (if executed then tables.insertMember groupId userId else none).getD tables

def createGroupLegacy (ownerId : Int) (name : String) (answers : LegacyAnswers) (tables : Tables) : Reply × Tables :=
  if !answers.connected then ({ success := false, message := "db error" }, tables)
  else if !answers.prepared then ({ success := false, message := "prepare failed" }, tables)
  else
    match if answers.group then tables.insertGroup name ownerId else none with
    | none => ({ success := false, message := "create failed" }, tables)
    | some inserted =>
        ({ success := true, groupId := some tables.nextGroupId },
          tryInsertMember tables.nextGroupId ownerId answers.member inserted)

/-- Without a coordinator. -/
def createGroup (ownerId : Int) (name : String) (answers : LegacyAnswers) (tables : Tables) : Reply × Tables :=
  if name = "" then ({ success := false, message := "name required" }, tables)
  else createGroupLegacy ownerId name answers tables

def findOwner (groupId : Int) (tables : Tables) : Option Int :=
  (tables.groups.find? fun group => group.id = groupId).map Group.ownerId

def joinGroup (userId groupId : Int) (answers : Answers) (tables : Tables) : FriendService.Reply × Tables :=
  if !answers.connected then (failure "db error", tables)
  else ({ success := true }, tryInsertMember groupId userId (answers.executed 0) tables)

/-- A SELECT without an answer does not keep the owner from leaving. -/
def leaveGroup (userId groupId : Int) (answers : Answers) (tables : Tables) : FriendService.Reply × Tables :=
  if !answers.connected then (failure "db error", tables)
  else if answers.selected = true ∧ findOwner groupId tables = some userId then
    (failure "owner cannot leave, use delete instead", tables)
  else ({ success := true }, if answers.executed 0 then tables.deleteMember groupId userId else tables)

def deleteMembersOf (groupId : Int) (tables : Tables) : Tables :=
  { tables with groupMembers := tables.groupMembers.filter (fun row => row.1 ≠ groupId) }

def deleteGroup (userId groupId : Int) (answers : Answers) (tables : Tables) : FriendService.Reply × Tables :=
  if !answers.connected then (failure "db error", tables)
  else
    match if answers.selected then findOwner groupId tables else none with
    | none => (failure "group not found", tables)
    | some ownerId =>
        if ownerId ≠ userId then (failure "only owner can delete group", tables)
        else transaction answers [deleteMembersOf groupId, Tables.deleteGroup groupId] { success := true }
          "delete failed" tables

def kickMember (operatorId groupId targetUserId : Int) (answers : Answers) (tables : Tables) :
    FriendService.Reply × Tables :=
  if operatorId = targetUserId then (failure "cannot kick yourself", tables)
  else if !answers.connected then (failure "db error", tables)
  else
    match if answers.selected then findOwner groupId tables else none with
    | none => (failure "group not found", tables)
    | some ownerId =>
        if ownerId ≠ operatorId then (failure "only owner can kick members", tables)
        else ({ success := true }, if answers.executed 0 then tables.deleteMember groupId targetUserId else tables)

/-! ## Runs -/

inductive Request where
  | createGroup (ownerId : Int) (name : String) (answers : LegacyAnswers)
  | createGroupViaSaga (ownerId : Int) (name : String) (answers : CreateAnswers)
  | joinGroup (userId groupId : Int) (answers : Answers)
  | leaveGroup (userId groupId : Int) (answers : Answers)
  | kickMember (operatorId groupId targetUserId : Int) (answers : Answers)
  | deleteGroup (userId groupId : Int) (answers : Answers)
  | deleteAccount (userId : Int) (password : String) (answers : Answers)

variable (verifyPassword : String → String → Bool)

/-- The tables that a request leaves. -/
def handle (tables : Tables) : Request → Tables
  | .createGroup ownerId name answers => (createGroup ownerId name answers tables).2
  | .createGroupViaSaga ownerId name answers => (GroupService.createGroup ownerId name answers tables).tables
  | .joinGroup userId groupId answers => (joinGroup userId groupId answers tables).2
  | .leaveGroup userId groupId answers => (leaveGroup userId groupId answers tables).2
  | .kickMember operatorId groupId targetUserId answers =>
      (kickMember operatorId groupId targetUserId answers tables).2
  | .deleteGroup userId groupId answers => (deleteGroup userId groupId answers tables).2
  | .deleteAccount userId password answers =>
      (FriendService.deleteAccount verifyPassword userId password answers tables).2

def machine : Machine Tables Request where
  step tables request := some (handle verifyPassword tables request)

end Requests

end MuduoIm.Server.GroupService
