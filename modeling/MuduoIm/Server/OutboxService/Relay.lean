import Mathlib.Data.List.Sort
import Mathlib.Logic.Function.Basic
import MuduoIm.Transition.Machine

namespace MuduoIm.Server.OutboxService

open MuduoIm.Transition

/-! # Relays on the outbox table

A relay selects pending rows, claims them one by one, hands the claimed rows to
Kafka and waits for one delivery callback for each.  Any number of relays share
the table.  A step is one SQL statement, one call of `produce` or one callback;
its last arguments say whether the statement is executed and what Kafka answers.
A claiming statement that is executed, and whose answer is lost, is assumed away: it
would leave a row `sending` that no relay holds.
-/

inductive Status where
  | pending
  | sending
  | sent
  | failed
deriving DecidableEq, Repr

/-- The columns of an `outbox` row that a relay reads. -/
structure Entry (Payload : Type) where
  id : Nat
  topic : String
  msgKey : String
  payload : Payload
deriving DecidableEq

structure Row (Payload : Type) extends Entry Payload where
  status : Status := .pending
  createdAt : Nat

/-- One relay process.  `rows` are selected and not yet tried, `claimed` are
not yet handed to Kafka, `outstanding` are the contexts of the callbacks to
come. -/
structure Relay (Payload : Type) where
  running : Bool := false
  rows : List (Entry Payload) := []
  claimed : List (Entry Payload) := []
  outstanding : List (Entry Payload) := []

/-- The ids of the rows that the process has claimed and has no delivery report
for. -/
def Relay.held {Payload : Type} (process : Relay Payload) : List Nat :=
  (process.claimed ++ process.outstanding).map Entry.id

/-- The table is kept in the order of its ids.  The last four fields are
history: the entries that were committed, handed to Kafka and reported as
delivered, and the ids whose row was set to `sent`. -/
structure State (R Payload : Type) where
  outbox : List (Row Payload) := []
  relays : R → Relay Payload := fun _ => {}
  now : Nat := 0
  committed : List (Entry Payload) := []
  handed : List (Entry Payload) := []
  delivered : List (Entry Payload) := []
  sent : List Nat := []

inductive Event (R Payload : Type) where
  | commit (row : Row Payload)
  | tick (elapsed : Nat)
  | start (relay : R) (executed : Bool)
  | select (relay : R) (executed : Bool)
  | claim (relay : R) (executed : Bool)
  | produce (relay : R) (queued executed : Bool)
  | callback (relay : R) (context : Nat) (ok executed : Bool)
  | crash (relay : R)

variable {R Payload : Type}

/-! ## SQL statements -/

def selectPending (outbox : List (Row Payload)) (batchSize : Nat) : List (Entry Payload) :=
  ((outbox.filter (fun row => row.status = .pending)).take batchSize).map Row.toEntry

def setStatus (outbox : List (Row Payload)) (id : Nat) (status : Status) : List (Row Payload) :=
  outbox.map fun row => if row.id = id then { row with status } else row

/-- `UPDATE outbox SET status='sending' WHERE id=? AND status='pending'` affects
a row. -/
def Claimable (outbox : List (Row Payload)) (id : Nat) : Prop :=
  ∃ row ∈ outbox, row.id = id ∧ row.status = .pending

instance (outbox : List (Row Payload)) (id : Nat) : Decidable (Claimable outbox id) := by
  unfold Claimable
  infer_instance

/-- The update in `onDelivery`, which nothing precedes that looks at the status
of the row. -/
def onDelivery (outbox : List (Row Payload)) (id : Nat) (ok executed : Bool) : List (Row Payload) :=
  if executed then setStatus outbox id (if ok then .sent else .pending) else outbox

/-- Sixty seconds, in milliseconds, since the row was created. -/
def Row.Stuck (now : Nat) (row : Row Payload) : Prop :=
  row.status = .sending ∧ row.createdAt + 60 * 1000 < now

instance (now : Nat) (row : Row Payload) : Decidable (row.Stuck now) := by
  unfold Row.Stuck
  infer_instance

def reclaimStuckSending (now : Nat) (outbox : List (Row Payload)) (executed : Bool) :
    List (Row Payload) :=
  if executed then outbox.map fun row => if row.Stuck now then { row with status := .pending } else row
  else outbox

/-! The statements keep the entries, which are all columns but the status. -/

def entries (outbox : List (Row Payload)) : List (Entry Payload) := outbox.map Row.toEntry

variable {outbox : List (Row Payload)} {id other now : Nat} {status is : Status}

@[simp] theorem entries_setStatus : entries (setStatus outbox id status) = entries outbox := by
  simp only [entries, setStatus, List.map_map]
  refine List.map_congr_left fun row _ => ?_
  simp only [Function.comp_apply]
  split <;> rfl

@[simp] theorem entries_onDelivery {ok executed : Bool} :
    entries (onDelivery outbox id ok executed) = entries outbox := by
  simp only [onDelivery]
  split
  · exact entries_setStatus
  · rfl

@[simp] theorem entries_reclaimStuckSending {executed : Bool} :
    entries (reclaimStuckSending now outbox executed) = entries outbox := by
  simp only [reclaimStuckSending]
  split
  · simp only [entries, List.map_map]
    refine List.map_congr_left fun row _ => ?_
    simp only [Function.comp_apply]
    split <;> rfl
  · rfl

theorem mem_entries {entry : Entry Payload} :
    entry ∈ entries outbox ↔ ∃ row ∈ outbox, row.toEntry = entry := List.mem_map

/-- Some row with this id has this status. -/
def HasStatus (outbox : List (Row Payload)) (id : Nat) (status : Status) : Prop :=
  ∃ row ∈ outbox, row.id = id ∧ row.status = status

theorem hasStatus_setStatus_self :
    HasStatus (setStatus outbox id status) id is ↔ is = status ∧ ∃ row ∈ outbox, row.id = id := by
  simp only [HasStatus, setStatus, List.mem_map]
  constructor
  · intro given
    obtain ⟨_, ⟨row, member, rfl⟩, same, has⟩ := given
    by_cases named : row.id = id
    · rw [if_pos named] at has
      exact ⟨has.symm, row, member, named⟩
    · rw [if_neg named] at same
      exact absurd same named
  · intro given
    obtain ⟨rfl, row, member, named⟩ := given
    exact ⟨_, ⟨row, member, rfl⟩, by rw [if_pos named]; exact named, by rw [if_pos named]⟩

theorem hasStatus_setStatus_ne (apart : other ≠ id) :
    HasStatus (setStatus outbox id status) other is ↔ HasStatus outbox other is := by
  simp only [HasStatus, setStatus, List.mem_map]
  constructor
  · intro given
    obtain ⟨_, ⟨row, member, rfl⟩, same, has⟩ := given
    by_cases named : row.id = id
    · rw [if_pos named] at same
      exact absurd (same.symm.trans named) apart
    · rw [if_neg named] at same has
      exact ⟨row, member, same, has⟩
  · intro given
    obtain ⟨row, member, same, has⟩ := given
    have named : row.id ≠ id := fun named => apart (same.symm.trans named)
    exact ⟨row, ⟨row, member, if_neg named⟩, same, has⟩

theorem hasStatus_onDelivery_ne {ok executed : Bool} (apart : other ≠ id)
    (has : HasStatus outbox other is) : HasStatus (onDelivery outbox id ok executed) other is := by
  simp only [onDelivery]
  split
  · exact (hasStatus_setStatus_ne apart).mpr has
  · exact has

theorem hasStatus_orderedInsert {row : Row Payload} (has : HasStatus outbox id status) :
    HasStatus (outbox.orderedInsert (fun row other => row.id ≤ other.id) row) id status := by
  obtain ⟨held, member, named, status⟩ := has
  exact ⟨held, ((List.perm_orderedInsert _ row outbox).mem_iff).mpr (.tail _ member), named, status⟩

/-! ## Steps -/

variable [DecidableEq R]

def State.setRelay (state : State R Payload) (relay : R) (process : Relay Payload) :
    State R Payload :=
  { state with relays := Function.update state.relays relay process }

def step (batchSize : Nat) (state : State R Payload) : Event R Payload → Option (State R Payload)
  -- an id is taken at the INSERT, so ids need not be committed in their order
  | .commit row =>
      if row.status = .pending ∧ row.createdAt ≤ state.now ∧ ∀ other ∈ state.outbox, other.id ≠ row.id then
        some { state with
          outbox := state.outbox.orderedInsert (fun row other => row.id ≤ other.id) row
          committed := row.toEntry :: state.committed }
      else none
  | .tick elapsed => some { state with now := state.now + elapsed }
  | .start relay executed =>
      if (state.relays relay).running then none
      else some { state.setRelay relay { running := true } with
        outbox := reclaimStuckSending state.now state.outbox executed }
  | .select relay executed =>
      let process := state.relays relay
      if process.running ∧ process.rows = [] ∧ process.claimed = [] then
        some (state.setRelay relay { process with
          rows := if executed then selectPending state.outbox batchSize else [] })
      else none
  | .claim relay executed =>
      let process := state.relays relay
      match process.rows with
      | [] => none
      | row :: rest =>
          if executed ∧ Claimable state.outbox row.id then
            some { state.setRelay relay { process with rows := rest, claimed := process.claimed ++ [row] } with
              outbox := setStatus state.outbox row.id .sending }
          else some (state.setRelay relay { process with rows := rest })
  | .produce relay queued executed =>
      let process := state.relays relay
      match process.rows, process.claimed with
      | [], row :: rest =>
          if queued then
            some { state.setRelay relay { process with
                claimed := rest, outstanding := process.outstanding ++ [row] } with
              handed := row :: state.handed }
          else
            some { state.setRelay relay { process with claimed := rest } with
              outbox := onDelivery state.outbox row.id false executed
              handed := row :: state.handed }
      | _, _ => none
  | .callback relay context ok executed =>
      let process := state.relays relay
      match process.outstanding[context]? with
      | none => none
      | some row =>
          some { state.setRelay relay { process with
              outstanding := process.outstanding.eraseIdx context } with
            outbox := onDelivery state.outbox row.id ok executed
            delivered := if ok then state.delivered ++ [row] else state.delivered
            sent := if ok && executed then row.id :: state.sent else state.sent }
  | .crash relay => some (state.setRelay relay {})

def machine (R Payload : Type) [DecidableEq R] (batchSize : Nat) :
    Machine (State R Payload) (Event R Payload) := ⟨step batchSize⟩

@[simp] theorem setRelay_self {state : State R Payload} {relay : R} {process : Relay Payload} :
    (state.setRelay relay process).relays relay = process := by
  simp [State.setRelay]

theorem setRelay_ne {state : State R Payload} {relay other : R} {process : Relay Payload}
    (apart : other ≠ relay) : (state.setRelay relay process).relays other = state.relays other := by
  simp [State.setRelay, apart]

/-! ## What each step does -/

variable {batchSize : Nat} {state next : State R Payload} {relay : R} {row : Row Payload}
variable {executed queued ok : Bool} {context : Nat}

theorem commit_eq_some (stepped : step batchSize state (.commit row) = some next) :
    row.status = .pending ∧ (∀ other ∈ state.outbox, other.id ≠ row.id) ∧
      next = { state with
        outbox := state.outbox.orderedInsert (fun row other => row.id ≤ other.id) row
        committed := row.toEntry :: state.committed } := by
  simp only [step] at stepped
  split at stepped
  · rename_i admitted
    cases stepped
    exact ⟨admitted.1, admitted.2.2, rfl⟩
  · contradiction

theorem start_eq_some (stepped : step batchSize state (.start relay executed) = some next) :
    (state.relays relay).running = false ∧
      next = { state.setRelay relay { running := true } with
        outbox := reclaimStuckSending state.now state.outbox executed } := by
  simp only [step] at stepped
  split at stepped
  · contradiction
  · rename_i stopped
    cases stepped
    exact ⟨by simpa using stopped, rfl⟩

theorem select_eq_some (stepped : step batchSize state (.select relay executed) = some next) :
    (state.relays relay).running = true ∧ (state.relays relay).rows = [] ∧
      (state.relays relay).claimed = [] ∧
      ∃ rows, (rows = [] ∨ rows = selectPending state.outbox batchSize) ∧
        next = state.setRelay relay { state.relays relay with rows } := by
  simp only [step] at stepped
  split at stepped
  · rename_i idle
    cases stepped
    refine ⟨idle.1, idle.2.1, idle.2.2, _, ?_, rfl⟩
    cases executed
    · exact .inl rfl
    · exact .inr rfl
  · contradiction

theorem claim_eq_some (stepped : step batchSize state (.claim relay executed) = some next) :
    ∃ entry rest, (state.relays relay).rows = entry :: rest ∧
      ((executed = true ∧ Claimable state.outbox entry.id ∧
          next = { state.setRelay relay { state.relays relay with
              rows := rest, claimed := (state.relays relay).claimed ++ [entry] } with
            outbox := setStatus state.outbox entry.id .sending }) ∨
        (¬ (executed = true ∧ Claimable state.outbox entry.id) ∧
          next = state.setRelay relay { state.relays relay with rows := rest })) := by
  simp only [step] at stepped
  cases rows : (state.relays relay).rows with
  | nil => simp [rows] at stepped
  | cons entry rest =>
      simp only [rows] at stepped
      refine ⟨entry, rest, rfl, ?_⟩
      split at stepped
      · rename_i claimed
        cases stepped
        exact .inl ⟨claimed.1, claimed.2, rfl⟩
      · rename_i skipped
        cases stepped
        exact .inr ⟨skipped, rfl⟩

theorem produce_eq_some (stepped : step batchSize state (.produce relay queued executed) = some next) :
    ∃ entry rest, (state.relays relay).rows = [] ∧ (state.relays relay).claimed = entry :: rest ∧
      ((queued = true ∧
          next = { state.setRelay relay { state.relays relay with
              claimed := rest, outstanding := (state.relays relay).outstanding ++ [entry] } with
            handed := entry :: state.handed }) ∨
        (queued = false ∧
          next = { state.setRelay relay { state.relays relay with claimed := rest } with
            outbox := onDelivery state.outbox entry.id false executed
            handed := entry :: state.handed })) := by
  simp only [step] at stepped
  cases rows : (state.relays relay).rows with
  | cons entry rest => simp [rows] at stepped
  | nil =>
      cases claimed : (state.relays relay).claimed with
      | nil => simp [rows, claimed] at stepped
      | cons entry rest =>
          simp only [rows, claimed] at stepped
          refine ⟨entry, rest, rfl, rfl, ?_⟩
          cases queued with
          | true =>
              cases stepped
              exact .inl ⟨rfl, by rw [← rows]⟩
          | false =>
              cases stepped
              exact .inr ⟨rfl, by rw [← rows]⟩

theorem callback_eq_some
    (stepped : step batchSize state (.callback relay context ok executed) = some next) :
    ∃ entry before later, (state.relays relay).outstanding = before ++ entry :: later ∧
      before.length = context ∧ next = { state.setRelay relay { state.relays relay with outstanding := before ++ later } with
        outbox := onDelivery state.outbox entry.id ok executed
        delivered := if ok then state.delivered ++ [entry] else state.delivered
        sent := if ok && executed then entry.id :: state.sent else state.sent } := by
  simp only [step] at stepped
  cases found : (state.relays relay).outstanding[context]? with
  | none => simp [found] at stepped
  | some entry =>
      simp only [found, Option.some.injEq] at stepped
      obtain ⟨within, here⟩ := List.getElem?_eq_some_iff.mp found
      refine ⟨entry, (state.relays relay).outstanding.take context,
        (state.relays relay).outstanding.drop (context + 1), ?_, ?_, ?_⟩
      · rw [← here, ← List.drop_eq_getElem_cons within, List.take_append_drop]
      · rw [List.length_take, Nat.min_eq_left (Nat.le_of_lt within)]
      · rw [← List.eraseIdx_eq_take_drop_succ]
        exact stepped.symm

end MuduoIm.Server.OutboxService
