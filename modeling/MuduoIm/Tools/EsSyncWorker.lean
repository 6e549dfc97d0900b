import Mathlib.Data.List.Sort
import MuduoIm.Tools.MessageRows
import MuduoIm.Transition.Machine

namespace MuduoIm.Tools.EsSyncWorker

open MuduoIm.Transition

/-! # The worker that feeds the search index

An iteration reads the cursors from Redis, fetches the rows above them, sends
them to Elasticsearch and writes the new cursors.  Rows become visible in the
order of their commits, which need not be that of their ids.
-/

/-- `recipient` is `recipient_id` or `group_id`. -/
structure Document where
  msgId : String
  senderId : Int
  recipient : Int
  body : String
  msgKind : Kind
  createdAt : Int
deriving DecidableEq, Repr

def document (kind : Kind) (row : Row) : Document where
  msgId := row.msgId
  senderId := row.fromUser
  recipient := row.target
  body := row.content
  msgKind := kind
  createdAt := row.timestamp

/-- `WHERE id > … AND recalled=0 ORDER BY id ASC LIMIT …`. -/
def fetchRows (batch : Nat) (rows : List Row) (cursor : Nat) : List Row :=
  ((rows.filter fun row => decide (cursor < row.id) && !row.recalled).insertionSort
    fun first second => first.id ≤ second.id).take batch

def newCursor (rows : List Row) (cursor : Nat) : Nat := rows.foldl (fun new row => max new row.id) cursor

def fetchNew (batch : Nat) (tables : Tables) (cursor : Kind → Nat) : List Document × (Kind → Nat) :=
  let rows := fun kind => fetchRows batch (tables kind) (cursor kind)
  ((rows .privateChat).map (document .privateChat) ++ (rows .group).map (document .group),
    fun kind => newCursor (rows kind) (cursor kind))

inductive Phase where
  | idle
  | read (cursor : Kind → Nat)
  | fetched (docs : List Document) (cursor : Kind → Nat)
  | indexed (docs : List Document) (cursor : Kind → Nat)

/-- `cursor` is what Redis holds, `accepted` every document that Elasticsearch
has taken so far. -/
structure Worker where
  cursor : Kind → Nat := fun _ => 0
  accepted : List Document := []
  phase : Phase := .idle

inductive Operation where
  | readCursor
  | fetch
  | bulk (accepts : Document → Bool)
  | bulkFails (accepts : Document → Bool)
  | hset
  | crash
  | restore (cursor : Kind → Nat)

/-- `es_bulk` returns true for every answer.  After an exception, as after a
crash, the next iteration starts; Redis may come back with older cursors. -/
def Worker.step (batch : Nat) (tables : Tables) (worker : Worker) : Operation → Option Worker
  | .readCursor =>
      match worker.phase with
      | .idle => some { worker with phase := .read worker.cursor }
      | _ => none
  | .fetch =>
      match worker.phase with
      | .read cursor =>
          let (docs, new) := fetchNew batch tables cursor
          some { worker with phase := if docs = [] then .idle else .fetched docs new }
      | _ => none
  | .bulk accepts =>
      match worker.phase with
      | .fetched docs new =>
          some { worker with accepted := worker.accepted ++ docs.filter accepts, phase := .indexed docs new }
      | _ => none
  | .bulkFails accepts =>
      match worker.phase with
      | .fetched docs _ => some { worker with accepted := worker.accepted ++ docs.filter accepts, phase := .idle }
      | _ => none
  | .hset =>
      match worker.phase with
      | .indexed _ new => some { worker with cursor := new, phase := .idle }
      | _ => none
  | .crash => some { worker with phase := .idle }
  | .restore cursor =>
      if cursor .privateChat ≤ worker.cursor .privateChat ∧ cursor .group ≤ worker.cursor .group then
        some { worker with cursor }
      else none

/-- `touched` are the rows that have been recalled or edited, `late` those that
have been committed since the worker has read the cursors. -/
structure State where
  tables : Tables := fun _ => []
  worker : Worker := {}
  touched : List (Kind × Nat) := []
  late : List (Kind × Nat) := []

inductive Event where
  | commit (kind : Kind) (row : Row)
  | update (kind : Kind) (id : Nat) (content : String) (recalled : Bool)
  | sync (operation : Operation)

/-- An iteration begins. -/
def Operation.begins : Operation → Bool
  | .readCursor => true
  | _ => false

/-- AUTO_INCREMENT starts at 1.  A recall and an edit are updates. -/
def step (batch : Nat) (state : State) : Event → Option State
  | .commit kind row =>
      if 0 < row.id ∧ row.recalled = false ∧
          ∀ other ∈ state.tables kind, other.id ≠ row.id ∧ other.msgId ≠ row.msgId then
        some { state with tables := state.tables.insert kind row, late := (kind, row.id) :: state.late }
      else none
  | .update kind id content recalled =>
      if ∃ row ∈ state.tables kind, row.id = id then
        some { state with
          tables := state.tables.update kind id content recalled
          touched := (kind, id) :: state.touched }
      else none
  | .sync operation =>
      (state.worker.step batch state.tables operation).map fun worker =>
        { state with worker, late := if operation.begins then [] else state.late }

def machine (batch : Nat) : Machine State Event := ⟨step batch⟩

end MuduoIm.Tools.EsSyncWorker
