import MuduoIm.Server.FriendService
import MuduoIm.Server.InstanceRouter
import MuduoIm.Server.Transactions
import MuduoIm.Transition.Machine

namespace MuduoIm.Server.MessageEdits

open MuduoIm.Data.Text MuduoIm.Transition MuduoIm.Server.FriendService
open MuduoIm.Server.Transactions (editWindowMs)

/-! # Edits and recalls of one message

Any number of calls of `editMessage` and `recallMessage` for one message, one
SQL statement a step.  The SELECT of an edit reads the committed row.  Its
UPDATE reads the row again, and from then on the transaction holds the lock of
the row, for which the other updates wait.  What it writes is visible to others
once it commits.
-/

/-- The columns of the message that these calls read or write.  `recalled` is
a TINYINT that is 0 or 1. -/
structure MessageRow where
  fromUser : Int
  timestamp : Int
  recalled : Bool := false
  content : String
  editedAt : Option Int := none
  originalBody : Option String := none
deriving DecidableEq, Repr

/-- A row of `message_edits`. -/
structure EditRow where
  editorId : Int
  msgKind : Int
  oldBody : String
  newBody : String
  editedAt : Int
deriving DecidableEq, Repr

/-- The arguments of `editMessage`, with the clock that it reads. -/
structure Edit where
  editorId : Int
  newBody : String
  msgKind : Int
  nowMs : Int
deriving DecidableEq, Repr

structure Recall where
  fromUserId : Int
  nowMs : Int
deriving DecidableEq, Repr

/-- What the SELECT of an edit returned, as the `char*` that MySQL hands out;
NULL is read as the empty text. -/
structure Snapshot where
  oldBody : String
  existingOriginal : String
deriving DecidableEq, Repr

/-! ## The statements -/

def MessageRow.read (row : MessageRow) : Snapshot where
  oldBody := cString row.content
  existingOriginal := cString (row.originalBody.getD "")

/-- The checks on the row that the SELECT returned. -/
def Edit.Accepts (edit : Edit) (row : MessageRow) : Prop :=
  row.fromUser = edit.editorId ∧ row.recalled = false ∧ edit.nowMs - editWindowMs ≤ row.timestamp

instance (edit : Edit) (row : MessageRow) : Decidable (edit.Accepts row) := by
  unfold Edit.Accepts
  infer_instance

/-- What the UPDATE sets; the first edit is told by an empty original. -/
def Edit.set (edit : Edit) (snapshot : Snapshot) (row : MessageRow) : MessageRow :=
  if snapshot.existingOriginal = "" then
    { row with content := edit.newBody, editedAt := some edit.nowMs, originalBody := some snapshot.oldBody }
  else { row with content := edit.newBody, editedAt := some edit.nowMs }

/-- `WHERE from_user=? AND recalled=0`, and the row changes. -/
def Edit.Affects (edit : Edit) (snapshot : Snapshot) (row : MessageRow) : Prop :=
  row.fromUser = edit.editorId ∧ row.recalled = false ∧ edit.set snapshot row ≠ row

instance (edit : Edit) (snapshot : Snapshot) (row : MessageRow) : Decidable (edit.Affects snapshot row) := by
  unfold Edit.Affects
  infer_instance

/-- The row of the INSERT. -/
def Edit.audit (edit : Edit) (snapshot : Snapshot) : EditRow where
  editorId := edit.editorId
  msgKind := edit.msgKind
  oldBody := snapshot.oldBody
  newBody := edit.newBody
  editedAt := edit.nowMs

/-- The WHERE clause of `recallMessage`. -/
def Recall.Affects (request : Recall) (row : MessageRow) : Prop :=
  row.fromUser = request.fromUserId ∧ request.nowMs - 120000 < row.timestamp ∧ row.recalled = false

instance (request : Recall) (row : MessageRow) : Decidable (request.Affects row) := by
  unfold Recall.Affects
  infer_instance

/-! ## The machine -/

inductive Phase where
  | idle
  | begun (edit : Edit)
  | selected (edit : Edit) (snapshot : Snapshot)
  | updated (edit : Edit) (snapshot : Snapshot) (row : MessageRow)
  | inserted (edit : Edit) (snapshot : Snapshot) (row : MessageRow)
  -- before the update of this table
  | recalling (request : Recall) (table : Int)
  | returned (ok : Bool)
deriving DecidableEq, Repr

/-- The message is in the table `kind`, 0 for private and 1 for group messages.
`row` and `edits` are committed; `edits` is in the order of the commits. -/
structure State (Call : Type) where
  kind : Int := 0
  row : MessageRow
  edits : List EditRow := []
  lock : Option Call := none
  calls : Call → Phase := fun _ => .idle

inductive Event (Call : Type) where
  | editMessage (call : Call) (edit : Edit)
  | select (call : Call) (answered : Bool)
  | update (call : Call) (executed : Bool)
  | insert (call : Call) (executed : Bool)
  | commit (call : Call) (answer : CommitAnswer)
  | recallMessage (call : Call) (request : Recall)
  | markRecalled (call : Call) (executed : Bool)
  | abort (call : Call)
deriving DecidableEq, Repr

variable {Call : Type} [DecidableEq Call]

def State.goto (state : State Call) (call : Call) (phase : Phase) : State Call :=
  { state with calls := Function.update state.calls call phase }

/-- The transaction ends, and the call returns. -/
def State.finish (state : State Call) (call : Call) (ok : Bool) : State Call :=
  { state.goto call (.returned ok) with lock := if state.lock = some call then none else state.lock }

def step (state : State Call) : Event Call → Option (State Call)
  | .editMessage call edit =>
      match state.calls call with
      | .idle =>
          if edit.msgKind ≠ 0 ∧ edit.msgKind ≠ 1 then some (state.goto call (.returned false))
          else some (state.goto call (.begun edit))
      | _ => none
  | .select call answered =>
      match state.calls call with
      | .begun edit =>
          if answered ∧ edit.msgKind = state.kind ∧ edit.Accepts state.row then
            some (state.goto call (.selected edit state.row.read))
          else some (state.finish call false)
      | _ => none
  | .update call executed =>
      match state.calls call with
      | .selected edit snapshot =>
          if state.lock ≠ none then none
          else if executed ∧ edit.Affects snapshot state.row then
            some { state.goto call (.updated edit snapshot (edit.set snapshot state.row)) with lock := some call }
          else some (state.finish call false)
      | _ => none
  | .insert call executed =>
      match state.calls call with
      | .updated edit snapshot row =>
          if executed then some (state.goto call (.inserted edit snapshot row))
          else some (state.finish call false)
      | _ => none
  | .commit call answer =>
      match state.calls call with
      | .inserted edit snapshot row =>
          match answer with
          | .committed =>
              some { state.finish call true with row, edits := state.edits ++ [edit.audit snapshot] }
          | .lost => some { state.finish call false with row, edits := state.edits ++ [edit.audit snapshot] }
          | .refused => some (state.finish call false)
      | _ => none
  | .recallMessage call request =>
      match state.calls call with
      | .idle => some (state.goto call (.recalling request 0))
      | _ => none
  | .markRecalled call executed =>
      match state.calls call with
      | .recalling request table =>
          if table = state.kind ∧ state.lock ≠ none then none
          else if executed ∧ table = state.kind ∧ request.Affects state.row then
            some { state.goto call (.returned true) with row := { state.row with recalled := true } }
          else if table = 0 then some (state.goto call (.recalling request 1))
          else some (state.goto call (.returned false))
      | _ => none
  -- the connection is lost before the COMMIT
  | .abort call =>
      match state.calls call with
      | .returned _ => none
      | _ => some (state.finish call false)

def machine (Call : Type) [DecidableEq Call] : Machine (State Call) (Event Call) := ⟨step⟩

end MuduoIm.Server.MessageEdits
