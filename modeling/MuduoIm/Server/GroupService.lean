import MuduoIm.Server.Schema
import MuduoIm.Server.SagaCoordinator.Recovery

namespace MuduoIm.Server.GroupService

open MuduoIm.Server.SagaCoordinator

/-! # Creating a group by a saga

The saga type `group_create`: a row of `groups`, then the membership of its
owner, each undone by a DELETE.
-/

structure GroupPayload where
  ownerId : Int
  name : String
  groupId : Int := 0
deriving DecidableEq, Repr

/-- What a statement of a step meets; `answered` says whether the answer of an
executed one arrives, and `error` is `lastError()` of the connection, also when
a key refuses the row. -/
structure Statement where
  executed : Bool := true
  answered : Bool := true
  error : String := ""
deriving DecidableEq, Repr

/-- What `execute` of the connection tells. -/
def Statement.ok (statement : Statement) : Bool := statement.executed && statement.answered

abbrev GroupStepFn := StepFn Statement Tables GroupPayload

def refuse (context : Context GroupPayload) (lastError : String) (tables : Tables) :
    StepResult Tables GroupPayload :=
  { ok := false, context := { context with lastError }, tables }

def insertGroupsRow : GroupStepFn := fun answer context tables =>
  if context.payload.name = "" ∨ context.payload.ownerId = 0 then
    refuse context "missing name or owner_id" tables
  else
    match if answer.ok then tables.insertGroup context.payload.name context.payload.ownerId else none with
    | none => refuse context ("INSERT groups failed: " ++ answer.error) tables
    | some inserted =>
        { ok := true, tables := inserted
          context := { context with payload := { context.payload with groupId := tables.nextGroupId } } }

def deleteGroupsRow : GroupStepFn := fun answer context tables =>
  -- step 1 has not written anything
  if context.payload.groupId = 0 then { ok := true, context, tables }
  else
    { ok := answer.ok, context
      tables := if answer.executed then tables.deleteGroup context.payload.groupId else tables }

def insertOwnerMembership : GroupStepFn := fun answer context tables =>
  if context.payload.groupId = 0 ∨ context.payload.ownerId = 0 then
    refuse context "missing group_id or owner_id at step2" tables
  else
    match if answer.ok then tables.insertMember context.payload.groupId context.payload.ownerId
      else none with
    | none => refuse context ("INSERT group_members failed: " ++ answer.error) tables
    | some inserted => { ok := true, context, tables := inserted }

def deleteOwnerMembership : GroupStepFn := fun answer context tables =>
  if context.payload.groupId = 0 ∨ context.payload.ownerId = 0 then { ok := true, context, tables }
  else
    { ok := answer.ok, context
      tables := if answer.executed then tables.deleteMember context.payload.groupId context.payload.ownerId
        else tables }

def insertGroupsStep : Step Statement Tables GroupPayload :=
  { name := "insert_groups_row", forward := insertGroupsRow, compensate := some deleteGroupsRow }

def insertOwnerStep : Step Statement Tables GroupPayload :=
  { name := "insert_owner_membership", forward := insertOwnerMembership, compensate := some deleteOwnerMembership }

/-- What `registerCreateGroupSaga` registers. -/
def createGroupSaga : Definition Statement Tables GroupPayload where
  name := "group_create"
  steps := [insertGroupsStep, insertOwnerStep]

def groupDefs : Definitions Statement Tables GroupPayload := fun sagaType =>
  if sagaType = createGroupSaga.name then some createGroupSaga else none

/-! ## A request -/

structure Reply where
  success : Bool
  message : String := ""
  groupId : Option Int := none
  sagaId : Option Int := none
deriving DecidableEq, Repr

/-- What becomes of the INSERT of `start`. -/
inductive StartOutcome where
  | failed
  | answerLost
  | inserted
deriving DecidableEq, Repr

/-- `started` answers the INSERT of `start` and `found` the last read of the
payload; `sagaId` is a fresh snowflake. -/
structure CreateAnswers where
  sagaId : Int
  started : StartOutcome
  execute : ExecuteAnswers Statement
  found : Bool

/-- The reply, with the row of the saga, if there is one, and the tables. -/
structure Created where
  reply : Reply
  row : Option (Row GroupPayload) := none
  tables : Tables

/-- What `start` inserts into `saga_log`. -/
def startedRow (ownerId : Int) (name : String) : Row GroupPayload :=
  { sagaType := createGroupSaga.name, payload := { ownerId, name } }

def createGroupViaSaga (ownerId : Int) (name : String) (answers : CreateAnswers) (tables : Tables) : Created :=
  match answers.started with
  | .failed => { reply := { success := false, message := "saga start failed" }, tables }
  -- the row is there, but `start` has returned 0
  | .answerLost =>
      { reply := { success := false, message := "saga start failed" }
        row := some (startedRow ownerId name), tables }
  | .inserted =>
      let executed := execute groupDefs answers.sagaId answers.execute (startedRow ownerId name) tables
      if !executed.ok then
        { reply := { success := false, message := "saga failed (compensated)", sagaId := some answers.sagaId }
          row := some executed.row, tables := executed.tables }
      else
        -- `readGroupIdFromSaga`
        let groupId := if answers.found then executed.row.payload.groupId else 0
        if groupId = 0 then
          { reply := { success := false, message := "saga done but group_id missing" }
            row := some executed.row, tables := executed.tables }
        else
          { reply := { success := true, groupId := some groupId, sagaId := some answers.sagaId }
            row := some executed.row, tables := executed.tables }

/-- With a coordinator injected. -/
def createGroup (ownerId : Int) (name : String) (answers : CreateAnswers) (tables : Tables) : Created :=
  if name = "" then { reply := { success := false, message := "name required" }, tables }
  else createGroupViaSaga ownerId name answers tables

end MuduoIm.Server.GroupService
