import MuduoIm.PushRouter.Route
import MuduoIm.Transition.Machine

namespace MuduoIm.PushRouter.AtLeastOnce

open MuduoIm.Transition

/-! # The default mode

The consumer hands each record to the callback of `runAtLeastOnce` and commits
its offset when the callback returns true.
-/

/-- `position` is the one of the running consumer, if there is one.  `accepted`
is history: the commands that `produce` has put on the local queue, each with
the offset of its record. -/
structure State where
  log : List Record := []
  committedOffset : Nat := 0
  position : Option Nat := none
  accepted : List (Nat × PushOut) := []

/-- `accepts` are the results of `produce`; the process may crash after the
callback and before the commit. -/
inductive Event where
  | publish (record : Record)
  | start
  | consume (accepts : PushOut → Bool) (crashes : Bool)
  | crash

/-- The commands that were accepted and the returned value; `none` when `route`
throws. -/
def callback (record : Record) (accepts : PushOut → Bool) : Option (List PushOut × Bool) :=
  (route record).map fun outs => (outs.filter accepts, true)

def step (state : State) : Event → Option State
  | .publish record => some { state with log := state.log ++ [record] }
  | .start =>
      match state.position with
      | none => some { state with position := some state.committedOffset }
      | some _ => none
  | .consume accepts crashes =>
      match state.position with
      | none => none
      | some position =>
          match state.log[position]? with
          | none => none
          | some record =>
              match callback record accepts with
              | none => some { state with position := none }
              | some (outs, returned) =>
                  let accepted := state.accepted ++ outs.map (Prod.mk position)
                  if crashes then some { state with accepted, position := none }
                  else if returned then
                    some { state with
                      accepted
                      position := some (position + 1)
                      committedOffset := position + 1 }
                  else some { state with accepted }
  | .crash => some { state with position := none }

def machine : Machine State Event := ⟨step⟩

/-- Every command of a record whose offset is committed was accepted. -/
def Routed (state : State) : Prop :=
  ∀ offset < state.committedOffset, ∀ record, state.log[offset]? = some record →
    ∀ out ∈ pushCommands record, (offset, out) ∈ state.accepted

/-- The local queue takes the commands of a record that is about to be
committed, or took them before a crash. -/
def Accepts (state : State) : Event → Prop
  | .consume accepts crashes => crashes = false → ∀ position ∈ state.position,
      ∀ record, state.log[position]? = some record →
        ∀ out ∈ pushCommands record, accepts out = true ∨ (position, out) ∈ state.accepted
  | _ => True

/-! ## One step -/

structure Resumed (state : State) : Prop where
  within : state.committedOffset ≤ state.log.length
  position : ∀ position ∈ state.position, position = state.committedOffset

variable {state next : State} {accepts : PushOut → Bool} {crashes : Bool}

theorem consume_eq_some (stepped : step state (.consume accepts crashes) = some next) :
    ∃ position record, state.position = some position ∧ state.log[position]? = some record ∧
      ((route record = none ∧ next = { state with position := none }) ∨
        ∃ outs, route record = some outs ∧
          let accepted := state.accepted ++ (outs.filter accepts).map (Prod.mk position)
          ((crashes = true ∧ next = { state with accepted, position := none }) ∨
            (crashes = false ∧ next = { state with
              accepted, position := some (position + 1), committedOffset := position + 1 }))) := by
  simp only [step] at stepped
  cases running : state.position with
  | none => simp [running] at stepped
  | some position =>
      cases found : state.log[position]? with
      | none => simp [running, found] at stepped
      | some record =>
          refine ⟨position, record, rfl, found, ?_⟩
          simp only [running, found, callback] at stepped
          cases routed : route record with
          | none =>
              simp only [routed, Option.map_none, Option.some.injEq] at stepped
              exact .inl ⟨rfl, stepped.symm⟩
          | some outs =>
              simp only [routed, Option.map_some, if_true] at stepped
              refine .inr ⟨outs, rfl, ?_⟩
              split at stepped
              · rename_i crashed
                cases stepped
                exact .inl ⟨crashed, rfl⟩
              · rename_i survived
                cases stepped
                exact .inr ⟨by simpa using survived, rfl⟩

theorem Resumed.preserved {event : Event} (resumed : Resumed state)
    (stepped : step state event = some next) : Resumed next := by
  cases event with
  | publish record =>
      cases stepped
      exact ⟨Nat.le_trans resumed.within (by simp), resumed.position⟩
  | start =>
      simp only [step] at stepped
      split at stepped
      · cases stepped
        exact ⟨resumed.within, fun position same => (Option.some.inj same).symm⟩
      · contradiction
  | consume accepts crashes =>
      obtain ⟨position, record, running, found, ⟨_, rfl⟩ | ⟨outs, _, ⟨_, rfl⟩ | ⟨_, rfl⟩⟩⟩ :=
        consume_eq_some stepped
      · exact ⟨resumed.within, nofun⟩
      · exact ⟨resumed.within, nofun⟩
      · exact ⟨(List.getElem?_eq_some_iff.mp found).1, fun position same => (Option.some.inj same).symm⟩
  | crash =>
      cases stepped
      exact ⟨resumed.within, nofun⟩

theorem Routed.of_keep (routed : Routed state) (sameLog : next.log = state.log)
    (sameOffset : next.committedOffset = state.committedOffset)
    (kept : ∀ entry ∈ state.accepted, entry ∈ next.accepted) : Routed next := by
  intro offset below record found out member
  rw [sameOffset] at below
  rw [sameLog] at found
  exact kept _ (routed offset below record found out member)

theorem routed_consume_iff (resumed : Resumed state) (routed : Routed state)
    (stepped : step state (.consume accepts crashes) = some next) :
    Routed next ↔ Accepts state (.consume accepts crashes) := by
  obtain ⟨position, record, running, found, branch⟩ := consume_eq_some stepped
  obtain rfl : position = state.committedOffset := resumed.position position running
  simp only [Accepts, running, Option.mem_some_iff, forall_eq', found, Option.some.injEq]
  rcases branch with ⟨thrown, rfl⟩ | ⟨outs, commands, ⟨crashed, rfl⟩ | ⟨survived, rfl⟩⟩
  · refine iff_of_true (routed.of_keep rfl rfl fun _ => id) fun _ out member => ?_
    simp [pushCommands, thrown] at member
  · refine iff_of_true (routed.of_keep rfl rfl fun _ => List.mem_append_left _) fun survived => ?_
    rw [crashed] at survived
    contradiction
  · simp only [survived, true_implies]
    constructor
    · intro after out member
      rcases List.mem_append.mp (after _ (Nat.lt_succ_self _) record found out member) with earlier | now
      · exact .inr earlier
      · obtain ⟨taken, filtered, same⟩ := List.mem_map.mp now
        cases same
        exact .inl (List.mem_filter.mp filtered).2
    · intro taken offset below record' found' out member
      rcases Nat.lt_succ_iff_lt_or_eq.mp below with earlier | rfl
      · exact List.mem_append_left _ (routed offset earlier record' found' out member)
      · obtain rfl : record = record' := Option.some.inj (found.symm.trans found')
        rcases taken out member with accepted | earlier
        · have routed : out ∈ outs := by simpa [pushCommands, commands] using member
          have kept : out ∈ outs.filter accepts := List.mem_filter.mpr ⟨routed, accepted⟩
          exact List.mem_append_right _ (List.mem_map.mpr ⟨out, kept, rfl⟩)
        · exact List.mem_append_left _ earlier

/-! ## Runs -/

/-- Throughout a run every committed record had its commands accepted, if and
only if no record is committed whose commands the local queue refused. -/
theorem routed_iff_accepts (events : List Event) :
    machine.Always Routed {} events ↔ machine.Meets Accepts {} events := by
  refine Machine.always_iff_meets Resumed nofun ⟨Nat.le_refl 0, nofun⟩
    (fun _ _ _ resumed stepped => resumed.preserved stepped) ?_
  intro state event next resumed routed stepped
  change step state event = some next at stepped
  cases event with
  | publish record =>
      cases stepped
      refine iff_of_true (fun offset below record found out member => ?_) trivial
      rw [List.getElem?_append_left (Nat.lt_of_lt_of_le below resumed.within)] at found
      exact routed offset below record found out member
  | start =>
      simp only [step] at stepped
      split at stepped
      · cases stepped
        exact iff_of_true (routed.of_keep rfl rfl fun _ => id) trivial
      · contradiction
  | consume accepts crashes => exact routed_consume_iff resumed routed stepped
  | crash =>
      cases stepped
      exact iff_of_true (routed.of_keep rfl rfl fun _ => id) trivial

/-! ## A full local queue -/

private def toUserThree : Record :=
  some (.object [("type", .string "private"), ("msgId", .string "101"), ("from", .integer 1),
    ("to", .integer 3), ("content", .string "hello"), ("timestamp", .integer 0)])

private def fullQueue : List Event :=
  [.publish toUserThree, .start, .consume (fun _ => false) false]

theorem full_queue_drops_command :
    ∃ state, machine.run {} fullQueue = some state ∧ state.committedOffset = 1 ∧
      state.accepted = [] ∧ ¬ Routed state := by
  refine ⟨_, rfl, rfl, rfl, fun routed => ?_⟩
  have command := routed 0 (by decide) toUserThree rfl
  exact absurd (command _ (.head _)) List.not_mem_nil

end MuduoIm.PushRouter.AtLeastOnce
