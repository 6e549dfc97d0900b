import Mathlib.Logic.Function.Basic
import Mathlib.Data.List.Basic
import MuduoIm.Transition.Machine

namespace MuduoIm.Pool

open MuduoIm.Transition

/-! # Transactions on pooled connections

Threads serve requests.  A request is a script of actions on one connection at
a time, which it takes from the pool's free list and gives back there.  A
transaction belongs to the connection on which it was begun; a guard, which
remembers that connection, rolls back what was not committed.
-/

inductive Action where
  | acquire
  | statement
  | begin
  | commit (succeeded : Bool)
  | release
  | rollback
deriving DecidableEq, Repr

/-- `guard` is the connection of a transaction that was begun and not
committed. -/
structure Client (Conn : Type) where
  script : List Action := []
  conn : Option Conn := none
  guard : Option Conn := none

/-- `owner` names the thread whose BEGIN opened the transaction that is open on
a connection.  `mixed` is history: an action of one thread has met the open
transaction of another. -/
structure State (Conn Thread : Type) where
  free : List Conn
  owner : Conn → Option Thread := fun _ => none
  clients : Thread → Client Conn := fun _ => {}
  mixed : Bool := false

inductive Event (Conn Thread Request : Type) where
  | call (thread : Thread) (request : Request)
  | acquire (thread : Thread) (conn : Conn)
  | act (thread : Thread)

variable {Conn Thread Request : Type} [DecidableEq Conn] [DecidableEq Thread]

def foreign (owner : Conn → Option Thread) (conn : Conn) (thread : Thread) : Bool :=
  match owner conn with
  | none => false
  | some holder => holder ≠ thread

/-- One action of a thread, `rest` being what remains of its script. -/
def perform (state : State Conn Thread) (thread : Thread) (rest : List Action) :
    Action → Option (State Conn Thread)
  | .acquire => none
  | .statement => (state.clients thread).conn.map fun conn => { state with
      clients := Function.update state.clients thread
        { state.clients thread with script := rest }
      mixed := state.mixed || foreign state.owner conn thread }
  -- BEGIN commits a transaction that is still open
  | .begin => (state.clients thread).conn.map fun conn => { state with
      owner := Function.update state.owner conn (some thread)
      clients := Function.update state.clients thread
        { state.clients thread with script := rest, guard := some conn }
      mixed := state.mixed || foreign state.owner conn thread }
  | .commit succeeded => (state.clients thread).guard.map fun conn => { state with
      owner := if succeeded then Function.update state.owner conn none else state.owner
      clients := Function.update state.clients thread { state.clients thread with
        script := rest, guard := if succeeded then none else some conn }
      mixed := state.mixed || foreign state.owner conn thread }
  | .release => (state.clients thread).conn.map fun conn => { state with
      free := conn :: state.free
      clients := Function.update state.clients thread
        { state.clients thread with script := rest, conn := none } }
  | .rollback => (state.clients thread).guard.map fun conn => { state with
      owner := Function.update state.owner conn none
      clients := Function.update state.clients thread
        { state.clients thread with script := rest, guard := none }
      mixed := state.mixed || foreign state.owner conn thread }

def step (scripts : Request → List Action) (state : State Conn Thread) :
    Event Conn Thread Request → Option (State Conn Thread)
  | .call thread request =>
      if (state.clients thread).script = [] then some { state with
        clients := Function.update state.clients thread { script := scripts request } }
      else none
  | .acquire thread conn =>
      match (state.clients thread).script with
      | .acquire :: rest =>
          if conn ∈ state.free then some { state with
            free := state.free.erase conn
            clients := Function.update state.clients thread
              { state.clients thread with script := rest, conn := some conn } }
          else none
      | _ => none
  | .act thread =>
      match (state.clients thread).script with
      | [] => none
      | action :: rest => perform state thread rest action

def machine (Conn Thread : Type) [DecidableEq Conn] [DecidableEq Thread]
    (scripts : Request → List Action) : Machine (State Conn Thread) (Event Conn Thread Request) :=
  ⟨step scripts⟩

/-- No connection in the free list has an open transaction, and no action has
met a transaction of another thread. -/
def NoLeak (state : State Conn Thread) : Prop :=
  (∀ conn ∈ state.free, state.owner conn = none) ∧ state.mixed = false

/-! ## Scripts -/

inductive Position where
  | outside
  | connected
  | inTransaction
  | released
deriving DecidableEq, Repr

/-- The order in which a request with a guard acts.  After `released` the guard
still has to roll back. -/
def Position.next : Position → Action → Option Position
  | .outside, .acquire => some .connected
  | .connected, .statement => some .connected
  | .connected, .begin => some .inTransaction
  | .connected, .release => some .outside
  | .inTransaction, .statement => some .inTransaction
  | .inTransaction, .commit true => some .connected
  | .inTransaction, .commit false => some .inTransaction
  | .inTransaction, .release => some .released
  | .released, .rollback => some .outside
  | _, _ => none

def Follows : Position → List Action → Prop
  | position, [] => position = .outside
  | position, action :: rest =>
      match position.next action with
      | none => False
      | some next => Follows next rest

/-- Somewhere the script releases its connection before the transaction on it
has ended. -/
def Abandons : Position → List Action → Prop
  | _, [] => False
  | position, action :: rest =>
      match position.next action with
      | none => False
      | some next => next = .released ∨ Abandons next rest

variable {position : Position} {action : Action} {first rest : List Action}

theorem follows_append (follows : Follows position first) :
    Follows position (first ++ rest) ↔ Follows .outside rest := by
  induction first generalizing position with
  | nil =>
      rw [List.nil_append, show position = .outside from follows]
  | cons action first ih =>
      simp only [Follows, List.cons_append] at follows ⊢
      cases next : position.next action with
      | none => simp [next] at follows
      | some after =>
          simp only [next] at follows
          exact ih follows

theorem abandons_append (follows : Follows position first) :
    Abandons position (first ++ rest) ↔ Abandons position first ∨ Abandons .outside rest := by
  induction first generalizing position with
  | nil =>
      rw [List.nil_append, show position = .outside from follows]
      simp [Abandons]
  | cons action first ih =>
      simp only [Follows, Abandons, List.cons_append] at follows ⊢
      cases next : position.next action with
      | none => simp [next] at follows
      | some after =>
          simp only [next] at follows
          simp only [ih follows, or_assoc]

theorem follows_statements (stays : position.next .statement = some position) (count : Nat) :
    Follows position (List.replicate count .statement ++ rest) ↔ Follows position rest := by
  induction count with
  | zero => rfl
  | succ count ih =>
      simp only [List.replicate_succ, List.cons_append, Follows, stays]
      exact ih

theorem abandons_statements (stays : position.next .statement = some position)
    (held : position ≠ .released) (count : Nat) :
    Abandons position (List.replicate count .statement ++ rest) ↔ Abandons position rest := by
  induction count with
  | zero => rfl
  | succ count ih =>
      simp only [List.replicate_succ, List.cons_append, Abandons, stays, held, false_or]
      exact ih

end MuduoIm.Pool
