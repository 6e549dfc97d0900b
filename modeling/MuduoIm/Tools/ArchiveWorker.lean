import Mathlib.Data.List.Sort
import MuduoIm.Data.Table
import MuduoIm.Tools.MessageRows
import MuduoIm.Transition.Machine

namespace MuduoIm.Tools.ArchiveWorker

open MuduoIm.Data MuduoIm.Transition

/-! # The archive worker

A run walks through the months from the oldest message to the cutoff.  For each
month and table it reads the rows, writes them to one file, enters the file in
`archive_index` and deletes the rows, on one connection.  Each operation below
is one step; it may raise, and the process may crash between any two of them.
-/

/-- Local time: the months are numbered through, `monthStart` is the first
millisecond of a month. -/
structure Calendar where
  monthStart : Int → Int
  monthOf : Int → Int
  ordered : ∀ {first second}, first < second → monthStart first < monthStart second
  within : ∀ timestamp, monthStart (monthOf timestamp) ≤ timestamp ∧
    timestamp < monthStart (monthOf timestamp + 1)

namespace Calendar

variable (calendar : Calendar) {first second timestamp month : Int}

theorem monthStart_mono (ordered : first ≤ second) : calendar.monthStart first ≤ calendar.monthStart second := by
  rcases Int.lt_or_eq_of_le ordered with less | rfl
  · exact Int.le_of_lt (calendar.ordered less)
  · exact Int.le_refl _

theorem monthOf_eq (lower : calendar.monthStart month ≤ timestamp)
    (upper : timestamp < calendar.monthStart (month + 1)) : calendar.monthOf timestamp = month := by
  obtain ⟨begun, ends⟩ := calendar.within timestamp
  rcases Int.lt_trichotomy (calendar.monthOf timestamp) month with earlier | same | later
  · have := calendar.monthStart_mono (Int.add_one_le_of_lt earlier)
    omega
  · exact same
  · have := calendar.monthStart_mono (Int.add_one_le_of_lt later)
    omega

theorem monthOf_mono (ordered : first ≤ second) : calendar.monthOf first ≤ calendar.monthOf second := by
  by_contra later
  have := calendar.monthStart_mono (Int.add_one_le_of_lt (Int.not_le.mp later))
  have := (calendar.within first).1
  have := (calendar.within second).2
  omega

theorem lt_of_monthOf_lt (less : calendar.monthOf first < calendar.monthOf second) : first < second := by
  by_contra reversed
  have := calendar.monthOf_mono (Int.not_lt.mp reversed)
  omega

end Calendar

inductive Storage where
  | directory (path : String)
  | bucket (name : String)
deriving DecidableEq, Repr

/-- The file name is made of the partition and the kind. -/
structure Uri where
  storage : Storage
  kind : Kind
  month : Int
deriving DecidableEq, Repr

inductive Status where
  | archiving
  | verified
  | active
  | deletedSource
deriving DecidableEq, Repr

def Status.Archived (status : Status) : Prop := status = .verified ∨ status = .deletedSource

instance (status : Status) : Decidable status.Archived := by
  unfold Status.Archived
  infer_instance

/-- A row of `archive_index`, whose key is the kind and the month. -/
structure IndexRow where
  storageUri : Uri
  msgCount : Nat
  minMsgId : String
  maxMsgId : String
  minTs : Int
  maxTs : Int
  status : Status
deriving DecidableEq, Repr

structure Database where
  messages : Tables := fun _ => []
  index : Table (Kind × Int) IndexRow := ∅

/-- What a transaction has done.  The statement on `archive_index` is an INSERT,
or an UPDATE of all columns of a row that is not archived. -/
inductive Statement where
  | index (kind : Kind) (month : Int) (row : IndexRow)
  | delete (kind : Kind) (ids : List Nat)
  | markDeleted (kind : Kind) (month : Int)

def Database.apply (db : Database) : Statement → Database
  | .index kind month row => { db with index := db.index.insert (kind, month) row }
  | .delete kind ids => { db with
      messages := fun other =>
        if other = kind then (db.messages kind).filter (fun row => row.id ∉ ids) else db.messages other }
  | .markDeleted kind month =>
      match db.index.lookup (kind, month) with
      | none => db
      | some row => { db with index := db.index.insert (kind, month) { row with status := .deletedSource } }

/-! ## A run -/

/-- The operation of the run that comes next. -/
inductive Phase where
  | start
  | check
  | select
  | upload (rows : List Row)
  | enter (uri : Uri) (rows : List Row)
  | commitIndex
  | delete
  | markDeleted
  | commitDelete
  | ended

/-- `snapshot` is what the open transaction reads, `pending` what it has done. -/
structure Run where
  cutoff : Int
  deleteAfterVerify : Bool
  month : Int := 0
  kind : Kind := .privateChat
  phase : Phase := .start
  snapshot : Option Database := none
  pending : List Statement := []

/-- `stored` is history: every message, with its last content. -/
structure State where
  committed : Database := {}
  files : Uri → Option (List Row) := fun _ => none
  stored : Tables := fun _ => []
  run : Option Run := none

/-- How an operation ends.  One that raises may have taken effect, may leave an
unreadable file, and may have rolled the transaction back. -/
structure Outcome where
  raises : Bool := false
  takes : Bool := true
  broken : Bool := false
  rolledBack : Bool := false
  storage : Storage := .directory ""

def Outcome.Effective (outcome : Outcome) : Prop := outcome.raises = false ∨ outcome.takes = true

instance (outcome : Outcome) : Decidable outcome.Effective := by
  unfold Outcome.Effective
  infer_instance

namespace Run

def next (run : Run) : Run :=
  match run.kind with
  | .privateChat => { run with kind := .group, phase := .check }
  | .group => { run with kind := .privateChat, month := run.month + 1, phase := .check }

/-- The handler of an exception, and the next partition. -/
def caught (run : Run) (outcome : Outcome) : Run :=
  if outcome.rolledBack then { run.next with snapshot := none, pending := [] } else run.next

/-- After an operation: on to the next one, or to the handler. -/
def proceed (run : Run) (outcome : Outcome) (onward : Run) : Run :=
  if outcome.raises then run.caught outcome else onward

def execute (run : Run) (outcome : Outcome) (statement : Statement) (phase : Phase) : Run :=
  if outcome.Effective then
    let executed := { run with pending := run.pending ++ [statement] }
    executed.proceed outcome { executed with phase }
  else run.caught outcome

variable {run : Run} {outcome : Outcome}

@[simp] theorem next_pending : run.next.pending = run.pending := by
  unfold next
  split <;> rfl

@[simp] theorem next_snapshot : run.next.snapshot = run.snapshot := by
  unfold next
  split <;> rfl

@[simp] theorem next_phase : run.next.phase = .check := by
  unfold next
  split <;> rfl

@[simp] theorem next_cutoff : run.next.cutoff = run.cutoff := by
  unfold next
  split <;> rfl

@[simp] theorem next_deleteAfterVerify : run.next.deleteAfterVerify = run.deleteAfterVerify := by
  unfold next
  split <;> rfl

@[simp] theorem caught_phase : (run.caught outcome).phase = .check := by
  unfold caught
  split
  · exact next_phase
  · exact next_phase

@[simp] theorem caught_cutoff : (run.caught outcome).cutoff = run.cutoff := by
  unfold caught
  split
  · exact next_cutoff
  · exact next_cutoff

end Run

/-- The smallest timestamp of both tables. -/
def earliest (db : Database) : Option Int :=
  ((db.messages .privateChat ++ db.messages .group).map (·.timestamp)).min?

variable (calendar : Calendar)

def rangeEnd (month cutoff : Int) : Int := min (calendar.monthStart (month + 1)) cutoff

def inRange (month cutoff : Int) (row : Row) : Bool :=
  decide (calendar.monthStart month ≤ row.timestamp) && decide (row.timestamp < rangeEnd calendar month cutoff)

/-- `ORDER BY id ASC`. -/
def selectRows (db : Database) (kind : Kind) (month cutoff : Int) : List Row :=
  ((db.messages kind).filter (inRange calendar month cutoff)).insertionSort (fun first second => first.id ≤ second.id)

/-- The summary columns are those of the first and the last row. -/
def indexRow (uri : Uri) (rows : List Row) : IndexRow where
  storageUri := uri
  msgCount := rows.length
  minMsgId := (rows.head?.map (·.msgId)).getD ""
  maxMsgId := (rows.getLast?.map (·.msgId)).getD ""
  minTs := (rows.head?.map (·.timestamp)).getD 0
  maxTs := (rows.getLast?.map (·.timestamp)).getD 0
  status := .verified

def archived (db : Database) (kind : Kind) (month : Int) : Bool :=
  match db.index.lookup (kind, month) with
  | none => false
  | some row => decide row.status.Archived

namespace State

variable (state : State)

def withRun (run : Run) : State := { state with run := some run }

/-- The database as the open transaction of the run reads it. -/
def view (run : Run) : Database := run.pending.foldl Database.apply (run.snapshot.getD state.committed)

/-- A consistent read opens the snapshot. -/
def reading (run : Run) : Run := { run with snapshot := some (run.snapshot.getD state.committed) }

def current (run : Run) : Database := run.pending.foldl Database.apply state.committed

def commit (run : Run) (outcome : Outcome) (onward : Run → Run) : State :=
  if outcome.Effective then
    let closed := { run with snapshot := none, pending := [] }
    { state with committed := state.current run, run := some (closed.proceed outcome (onward closed)) }
  else state.withRun (run.caught outcome)

/-- `upload_to_storage`. -/
def upload (run : Run) (outcome : Outcome) (rows : List Row) : State :=
  let uri : Uri := ⟨outcome.storage, run.kind, run.month⟩
  if outcome.Effective then { state with files := Function.update state.files uri (some rows) }
  else if outcome.broken then { state with files := Function.update state.files uri none }
  else state

@[simp] theorem upload_committed {state : State} {run : Run} {outcome : Outcome} {rows : List Row} :
    (state.upload run outcome rows).committed = state.committed := by
  unfold upload
  split
  · rfl
  · split <;> rfl

end State

/-- The next operation of `main` or `archive_partition`. -/
def advance (state : State) (run : Run) (outcome : Outcome) : Option State :=
  match run.phase with
  | .start =>
      -- not caught, the connection is closed
      if outcome.raises then some { state with run := none }
      else
        match earliest (state.view run) with
        | none => some (state.withRun { run with phase := .ended })
        | some timestamp =>
            -- `not row['mt']`
            if timestamp = 0 then some (state.withRun { run with phase := .ended })
            else some (state.withRun { state.reading run with month := calendar.monthOf timestamp, phase := .check })
  | .check =>
      if calendar.monthOf run.cutoff < run.month then none
      else if outcome.raises then some (state.withRun (run.caught outcome))
      else if archived (state.view run) run.kind run.month = true ∨
          rangeEnd calendar run.month run.cutoff ≤ calendar.monthStart run.month then
        some (state.withRun (state.reading run).next)
      else some (state.withRun { state.reading run with phase := .select })
  | .select =>
      if outcome.raises then some (state.withRun (run.caught outcome))
      else
        let rows := selectRows calendar (state.view run) run.kind run.month run.cutoff
        if rows = [] then some (state.withRun (state.reading run).next)
        else some (state.withRun { state.reading run with phase := .upload rows })
  | .upload rows =>
      some ((state.upload run outcome rows).withRun
        (run.proceed outcome { run with phase := .enter ⟨outcome.storage, run.kind, run.month⟩ rows }))
  | .enter uri rows =>
      some (state.withRun (run.execute outcome (.index run.kind run.month (indexRow uri rows)) .commitIndex))
  | .commitIndex =>
      some (state.commit run outcome fun closed =>
        if run.deleteAfterVerify then { closed with phase := .delete } else closed.next)
  | .delete =>
      let ids := (((state.current run).messages run.kind).filter (inRange calendar run.month run.cutoff)).map (·.id)
      some (state.withRun (run.execute outcome (.delete run.kind ids) .markDeleted))
  | .markDeleted =>
      some (state.withRun (run.execute outcome (.markDeleted run.kind run.month) .commitDelete))
  | .commitDelete => some (state.commit run outcome Run.next)
  | .ended => none

inductive Event where
  | begin (cutoff : Int) (deleteAfterVerify : Bool)
  | advance (outcome : Outcome)
  | finish
  | crash
  | insert (kind : Kind) (row : Row)
  | update (kind : Kind) (id : Nat) (content : String) (recalled : Bool)

/-- Besides the worker the server inserts rows and updates them. -/
def step (state : State) : Event → Option State
  | .begin cutoff deleteAfterVerify =>
      match state.run with
      | none => some (state.withRun { cutoff, deleteAfterVerify })
      | some _ => none
  | .advance outcome => state.run.bind fun run => advance calendar state run outcome
  -- closing the connection rolls back
  | .finish =>
      match state.run with
      | none => none
      | some run =>
          match run.phase with
          | .ended => some { state with run := none }
          | .check => if calendar.monthOf run.cutoff < run.month then some { state with run := none } else none
          | _ => none
  | .crash => some { state with run := none }
  | .insert kind row =>
      if ∀ other ∈ state.stored kind, other.id ≠ row.id ∧ other.msgId ≠ row.msgId then
        some { state with
          committed := { state.committed with messages := state.committed.messages.insert kind row }
          stored := state.stored.insert kind row }
      else none
  | .update kind id content recalled =>
      if ∃ row ∈ state.committed.messages kind, row.id = id then
        some { state with
          committed := { state.committed with
            messages := state.committed.messages.update kind id content recalled }
          stored := state.stored.update kind id content recalled }
      else none

def machine : Machine State Event := ⟨step calendar⟩

/-! ## What a step does -/

section

variable {calendar : Calendar} {state later : State} {kind : Kind} {row : Row} {id : Nat} {content : String}
variable {recalled deleteAfterVerify : Bool} {cutoff : Int}

theorem begins_of_step (stepped : (machine calendar).step state (.begin cutoff deleteAfterVerify) = some later) :
    state.run = none ∧ later = state.withRun { cutoff, deleteAfterVerify } := by
  simp only [machine, step] at stepped
  split at stepped
  · rename_i idle
    cases stepped
    exact ⟨idle, rfl⟩
  · cases stepped

theorem advances_of_step {outcome : Outcome} (stepped : (machine calendar).step state (.advance outcome) = some later) :
    ∃ run, state.run = some run ∧ advance calendar state run outcome = some later :=
  Option.bind_eq_some_iff.mp stepped

/-- The run has nothing to do for its partition. -/
def Settled (calendar : Calendar) (state : State) (run : Run) : Prop :=
  run.phase = .check ∧ (archived (state.view run) run.kind run.month = true ∨
      rangeEnd calendar run.month run.cutoff ≤ calendar.monthStart run.month) ∨
    run.phase = .select ∧ selectRows calendar (state.view run) run.kind run.month run.cutoff = []

/-- What the run does in its phase, a case for each branch of `advance`. -/
inductive Advance (calendar : Calendar) (state : State) (run : Run) (outcome : Outcome) : State → Prop where
  | broken (at_phase : run.phase = .start) (raised : outcome.raises = true) :
      Advance calendar state run outcome { state with run := none }
  | empty (at_phase : run.phase = .start)
      (nothing : ∀ timestamp, earliest (state.view run) = some timestamp → timestamp = 0) :
      Advance calendar state run outcome (state.withRun { run with phase := .ended })
  | first (at_phase : run.phase = .start) (timestamp : Int) (found : earliest (state.view run) = some timestamp)
      (nonzero : timestamp ≠ 0) : Advance calendar state run outcome
        (state.withRun { state.reading run with month := calendar.monthOf timestamp, phase := .check })
  | caught (at_phase : run.phase = .check ∨ run.phase = .select) (raised : outcome.raises = true) :
      Advance calendar state run outcome (state.withRun (run.caught outcome))
  | skipped (settled : Settled calendar state run) :
      Advance calendar state run outcome (state.withRun (state.reading run).next)
  | checked (at_phase : run.phase = .check) (unarchived : archived (state.view run) run.kind run.month = false) :
      Advance calendar state run outcome (state.withRun { state.reading run with phase := .select })
  | selected (at_phase : run.phase = .select)
      (nonempty : selectRows calendar (state.view run) run.kind run.month run.cutoff ≠ []) :
      Advance calendar state run outcome (state.withRun { state.reading run with
        phase := .upload (selectRows calendar (state.view run) run.kind run.month run.cutoff) })
  | uploaded (rows : List Row) (at_phase : run.phase = .upload rows) :
      Advance calendar state run outcome ((state.upload run outcome rows).withRun
        (run.proceed outcome { run with phase := .enter ⟨outcome.storage, run.kind, run.month⟩ rows }))
  | entered (uri : Uri) (rows : List Row) (at_phase : run.phase = .enter uri rows) :
      Advance calendar state run outcome
        (state.withRun (run.execute outcome (.index run.kind run.month (indexRow uri rows)) .commitIndex))
  | committedIndex (at_phase : run.phase = .commitIndex) :
      Advance calendar state run outcome (state.commit run outcome fun closed =>
        if run.deleteAfterVerify then { closed with phase := .delete } else closed.next)
  | deleted (at_phase : run.phase = .delete) :
      Advance calendar state run outcome (state.withRun (run.execute outcome
        (.delete run.kind
          ((((state.current run).messages run.kind).filter (inRange calendar run.month run.cutoff)).map (·.id)))
        .markDeleted))
  | markedDeleted (at_phase : run.phase = .markDeleted) :
      Advance calendar state run outcome
        (state.withRun (run.execute outcome (.markDeleted run.kind run.month) .commitDelete))
  | committedDelete (at_phase : run.phase = .commitDelete) :
      Advance calendar state run outcome (state.commit run outcome Run.next)

theorem advance_cases {run : Run} {outcome : Outcome} (advanced : advance calendar state run outcome = some later) :
    Advance calendar state run outcome later := by
  unfold advance at advanced
  split at advanced
  · rename_i at_phase
    split at advanced
    · rename_i raised
      cases advanced
      exact .broken at_phase raised
    · split at advanced
      · rename_i none
        cases advanced
        exact .empty at_phase fun timestamp found => by cases none.symm.trans found
      · rename_i timestamp found
        split at advanced
        · rename_i zero
          cases advanced
          refine .empty at_phase fun other also_found => ?_
          cases found.symm.trans also_found
          exact zero
        · rename_i nonzero
          cases advanced
          exact .first at_phase timestamp found nonzero
  · rename_i at_phase
    split at advanced
    · cases advanced
    · split at advanced
      · rename_i raised
        cases advanced
        exact .caught (.inl at_phase) raised
      · split at advanced
        · rename_i settled
          cases advanced
          exact .skipped (.inl ⟨at_phase, settled⟩)
        · rename_i unsettled
          cases advanced
          exact .checked at_phase (Bool.eq_false_iff.mpr fun archived => unsettled (.inl archived))
  · rename_i at_phase
    split at advanced
    · rename_i raised
      cases advanced
      exact .caught (.inr at_phase) raised
    · dsimp only at advanced
      split at advanced
      · rename_i empty
        cases advanced
        exact .skipped (.inr ⟨at_phase, empty⟩)
      · rename_i nonempty
        cases advanced
        exact .selected at_phase nonempty
  · rename_i rows at_phase
    cases advanced
    exact .uploaded rows at_phase
  · rename_i uri rows at_phase
    cases advanced
    exact .entered uri rows at_phase
  · rename_i at_phase
    cases advanced
    exact .committedIndex at_phase
  · rename_i at_phase
    cases advanced
    exact .deleted at_phase
  · rename_i at_phase
    cases advanced
    exact .markedDeleted at_phase
  · rename_i at_phase
    cases advanced
    exact .committedDelete at_phase
  · cases advanced

theorem finishes_of_step (stepped : (machine calendar).step state .finish = some later) :
    ∃ run, state.run = some run ∧
      (run.phase = .ended ∨ run.phase = .check ∧ calendar.monthOf run.cutoff < run.month) ∧
      later = { state with run := none } := by
  simp only [machine, step] at stepped
  split at stepped
  · cases stepped
  · rename_i run running
    split at stepped
    · rename_i ended
      cases stepped
      exact ⟨run, running, .inl ended, rfl⟩
    · rename_i checks
      split at stepped
      · rename_i passed
        cases stepped
        exact ⟨run, running, .inr ⟨checks, passed⟩, rfl⟩
      · cases stepped
    · cases stepped

theorem inserts_of_step (stepped : (machine calendar).step state (.insert kind row) = some later) :
    (∀ other ∈ state.stored kind, other.id ≠ row.id ∧ other.msgId ≠ row.msgId) ∧
      later = { state with
        committed := { state.committed with messages := state.committed.messages.insert kind row }
        stored := state.stored.insert kind row } := by
  simp only [machine, step] at stepped
  split at stepped
  · rename_i fresh
    cases stepped
    exact ⟨fresh, rfl⟩
  · cases stepped

theorem updates_of_step (stepped : (machine calendar).step state (.update kind id content recalled) = some later) :
    (∃ row ∈ state.committed.messages kind, row.id = id) ∧
      later = { state with
        committed := { state.committed with
          messages := state.committed.messages.update kind id content recalled }
        stored := state.stored.update kind id content recalled } := by
  simp only [machine, step] at stepped
  split at stepped
  · rename_i present
    cases stepped
    exact ⟨present, rfl⟩
  · cases stepped

end

/-- Months of thirty days. -/
def thirtyDays : Calendar where
  monthStart month := 2592000000 * month
  monthOf timestamp := timestamp / 2592000000
  ordered := by
    intro first second less
    omega
  within := by
    intro timestamp
    omega

def greeting : Row := ⟨1, "m1", 7, 8, "hello", 1000, false⟩

end MuduoIm.Tools.ArchiveWorker
