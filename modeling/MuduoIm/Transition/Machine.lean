import Mathlib.Logic.Function.Basic
import Mathlib.Data.List.Basic

namespace MuduoIm.Transition

/-! # Machines and their runs

A machine is a partial step function; an event that a state does not offer has
no step.  A run is the list of its events, in the order in which the scheduler
and the environment chose them, so a statement about every list of events is a
statement about every interleaving and every outcome.
-/

universe u v

structure Machine (State : Type u) (Event : Type v) where
  step : State → Event → Option State

namespace Machine

variable {State : Type u} {Event : Type v} (machine : Machine State Event)

def run : State → List Event → Option State
  | state, [] => some state
  | state, event :: rest => (machine.step state event).bind (fun next => run next rest)

/-- `property` holds in every state that the events pass through, the first
and the last included.  An event without a step ends the run there. -/
def Always (property : State → Prop) : State → List Event → Prop
  | state, [] => property state
  | state, event :: rest =>
      property state ∧ ∀ next, machine.step state event = some next → Always property next rest

/-- Every step of the run is taken in a state, and by an event, that meet the
condition. -/
def Meets (condition : State → Event → Prop) : State → List Event → Prop
  | _, [] => True
  | state, event :: rest =>
      ∀ next, machine.step state event = some next →
        condition state event ∧ Meets condition next rest

variable {machine} {property invariant assumed : State → Prop} {condition : State → Event → Prop}
variable {state next after : State} {event : Event} {events rest : List Event}

@[simp] theorem run_nil : machine.run state [] = some state := rfl

theorem run_cons :
    machine.run state (event :: rest) =
      (machine.step state event).bind (fun next => machine.run next rest) := rfl

theorem run_cons_eq_some :
    machine.run state (event :: rest) = some after ↔
      ∃ next, machine.step state event = some next ∧ machine.run next rest = some after := by
  simp only [run_cons, Option.bind_eq_some_iff]

theorem run_trans (first : machine.run state events = some next) (second : machine.run next rest = some after) :
    machine.run state (events ++ rest) = some after := by
  induction events generalizing state with
  | nil =>
      cases first
      exact second
  | cons event events ih =>
      obtain ⟨between, stepped, completed⟩ := run_cons_eq_some.mp first
      exact run_cons_eq_some.mpr ⟨between, stepped, ih completed⟩

theorem Always.head (always : machine.Always property state events) : property state := by
  cases events with
  | nil => exact always
  | cons event rest => exact always.1

theorem Always.atEnd (always : machine.Always property state events)
    (completed : machine.run state events = some after) : property after := by
  induction events generalizing state with
  | nil =>
      cases completed
      exact always
  | cons event rest ih =>
      obtain ⟨next, stepped, completed⟩ := run_cons_eq_some.mp completed
      exact ih (always.2 next stepped) completed

theorem Always.mono (weaker : ∀ state, property state → invariant state)
    (always : machine.Always property state events) : machine.Always invariant state events := by
  induction events generalizing state with
  | nil => exact weaker _ always
  | cons event rest ih => exact ⟨weaker _ always.1, fun next stepped => ih (always.2 next stepped)⟩

theorem Meets.cons (stepped : machine.step state event = some next)
    (allowed : condition state event) (later : machine.Meets condition next rest) :
    machine.Meets condition state (event :: rest) := by
  intro other taken
  rw [stepped] at taken
  cases taken
  exact ⟨allowed, later⟩

theorem Meets.atEnd (met : machine.Meets condition state (events ++ [event]))
    (completed : machine.run state events = some next) (stepped : machine.step next event = some after) :
    condition next event := by
  induction events generalizing state with
  | nil =>
      cases completed
      exact (met after stepped).1
  | cons first rest ih =>
      obtain ⟨between, begun, completed⟩ := run_cons_eq_some.mp completed
      exact ih (met between begun).2 completed

theorem meets_of_forall (allowed : ∀ event ∈ events, ∀ state, condition state event) :
    machine.Meets condition state events := by
  induction events generalizing state with
  | nil => trivial
  | cons event rest ih =>
      exact fun next _ => ⟨allowed event List.mem_cons_self state,
        ih fun other member => allowed other (List.mem_cons_of_mem _ member)⟩

/-- The invariant rule for the runs whose steps meet a condition. -/
theorem always_of_meets (invariant : State → Prop) (holds : invariant state)
    (preserved : ∀ state event next, invariant state → condition state event →
      machine.step state event = some next → invariant next)
    (met : machine.Meets condition state events) : machine.Always invariant state events := by
  induction events generalizing state with
  | nil => exact holds
  | cons event rest ih =>
      refine ⟨holds, fun next stepped => ?_⟩
      obtain ⟨allowed, later⟩ := met next stepped
      exact ih (preserved _ _ _ holds allowed stepped) later

/-- The invariant rule for all runs. -/
theorem always_of_step (invariant : State → Prop) (holds : invariant state)
    (preserved : ∀ state event next, invariant state →
      machine.step state event = some next → invariant next) :
    machine.Always invariant state events := by
  have unrestricted : machine.Meets (fun _ _ => True) state events := meets_of_forall fun _ _ _ => trivial
  exact always_of_meets invariant holds (fun _ _ _ held _ => preserved _ _ _ held) unrestricted

/-- When one step keeps the property exactly if it meets the condition, a run
has the property throughout exactly if all its steps meet the condition.
`assumed` is what a run keeps as long as it has the property. -/
theorem always_iff_meets_of_kept (assumed : State → Prop) (holds : property state) (start : assumed state)
    (kept : ∀ state event next, assumed state → property state → property next →
      machine.step state event = some next → assumed next)
    (exact_step : ∀ state event next, assumed state → property state →
      machine.step state event = some next → (property next ↔ condition state event)) :
    machine.Always property state events ↔ machine.Meets condition state events := by
  induction events generalizing state with
  | nil => exact ⟨fun _ => trivial, fun _ => holds⟩
  | cons event rest ih =>
      constructor
      · intro always next stepped
        have later := always.2 next stepped
        have keeps := later.head
        exact ⟨(exact_step _ _ _ start holds stepped).mp keeps,
          (ih keeps (kept _ _ _ start holds keeps stepped)).mp later⟩
      · intro met
        refine ⟨holds, fun next stepped => ?_⟩
        obtain ⟨allowed, later⟩ := met next stepped
        have keeps := (exact_step _ _ _ start holds stepped).mpr allowed
        exact (ih keeps (kept _ _ _ start holds keeps stepped)).mpr later

/-- Here every run keeps `assumed`, with or without the condition. -/
theorem always_iff_meets (assumed : State → Prop) (holds : property state) (start : assumed state)
    (kept : ∀ state event next, assumed state →
      machine.step state event = some next → assumed next)
    (exact_step : ∀ state event next, assumed state → property state →
      machine.step state event = some next → (property next ↔ condition state event)) :
    machine.Always property state events ↔ machine.Meets condition state events :=
  always_iff_meets_of_kept assumed holds start (fun _ _ _ held _ _ => kept _ _ _ held) exact_step

/-- The steps of a run meet what follows from the condition and from the invariant. -/
theorem Meets.required_of_kept {required : State → Event → Prop} (assumed : State → Prop) (start : assumed state)
    (kept : ∀ state event next, assumed state → condition state event →
      machine.step state event = some next → assumed next)
    (enough : ∀ state event next, assumed state → condition state event →
      machine.step state event = some next → required state event)
    (met : machine.Meets condition state events) : machine.Meets required state events := by
  induction events generalizing state with
  | nil => trivial
  | cons event rest ih =>
      intro next stepped
      obtain ⟨allowed, later⟩ := met next stepped
      exact ⟨enough _ _ _ start allowed stepped, ih (kept _ _ _ start allowed stepped) later⟩

/-- When the steps that meet the condition are those with the property, a run
meets the one exactly if it meets the other.  `assumed` is what these steps keep. -/
theorem meets_iff_meets {required : State → Event → Prop} (assumed : State → Prop) (start : assumed state)
    (kept : ∀ state event next, assumed state → condition state event →
      machine.step state event = some next → assumed next)
    (exact_step : ∀ state event next, assumed state →
      machine.step state event = some next → (required state event ↔ condition state event)) :
    machine.Meets required state events ↔ machine.Meets condition state events := by
  induction events generalizing state with
  | nil => exact Iff.rfl
  | cons event rest ih =>
      refine forall₂_congr fun next stepped => ?_
      have same := exact_step _ _ _ start stepped
      constructor
      · intro met
        have allowed := same.mp met.1
        exact ⟨allowed, (ih (kept _ _ _ start allowed stepped)).mp met.2⟩
      · intro met
        exact ⟨same.mpr met.1, (ih (kept _ _ _ start met.1 stepped)).mpr met.2⟩

end Machine

end MuduoIm.Transition
