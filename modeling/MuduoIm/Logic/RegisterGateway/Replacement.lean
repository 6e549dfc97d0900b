import Mathlib.Data.List.Find
import Mathlib.Data.List.TakeWhile
import MuduoIm.Logic.RegisterGateway

namespace MuduoIm.Logic.RegisterGateway.Replacement

open MuduoIm.Data MuduoIm.Transition

/-! # A gateway that has reconnected

The gateway opens a new stream while the handler of the old one still waits in
its Read.  Both carry the same gateway id, and the old handler returns last.
-/

/-- The server with its history: the streams in the order of their hellos, the
last one first; the users opened through each stream and not closed; and, right
after a handler has returned, its stream and its gateway id. -/
structure State where
  server : Server := {}
  hellos : List Nat := []
  opened : List (Nat × Int) := []
  returned : Option (Nat × String) := none

namespace State

variable (state : State)

/-- The stream belongs to a call that has not returned and carries this id. -/
def carries (id : String) (stream : Nat) : Bool :=
  (state.server.running stream).any (fun handler => decide (handler.gatewayId = id))

/-- The newest stream with this id among those whose hello came after the last
one of `stream`. -/
def newestSince (stream : Nat) (id : String) : Option Nat :=
  (state.hellos.takeWhile (fun other => decide (other ≠ stream))).find? (state.carries id)

def received (stream : Nat) (server : Server) : GatewayEvent → State
  | .hello _ => { state with server, hellos := stream :: state.hellos, returned := none }
  | .connOpen uid =>
      { state with server, opened := (stream, uid) :: state.opened, returned := none }
  | .connClose uid =>
      { state with server, returned := none
                   opened := state.opened.filter (fun entry => decide (entry ≠ (stream, uid))) }
  | .heartbeat => { state with server, returned := none }

def after (server : Server) : Event → State
  | .call _ => { state with server, returned := none }
  | .receive stream event => state.received stream server event
  | .finish stream =>
      let returned := (state.server.running stream).map (fun handler => (stream, handler.gatewayId))
      { state with server, returned }

end State

def machine : Machine State Event :=
  ⟨fun state event => (step state.server event).map (fun server => state.after server event)⟩

/-- When a handler with a gateway id has just returned and a newer stream of
that id is left, the entry refers to the newest one and the users opened
through it are mapped to the id. -/
def NewerSurvives (state : State) : Prop :=
  ∀ stream id newer, state.returned = some (stream, id) → id ≠ "" →
    state.newestSince stream id = some newer →
    state.server.registry.gateways.lookup id = some newer ∧
      ∀ uid, (newer, uid) ∈ state.opened → state.server.registry.userToGateway.lookup uid = some id

/-- A handler with a gateway id returns only when no newer stream carries it. -/
def ReturnsLast (state : State) : Event → Prop
  | .call _ => True
  | .receive _ _ => True
  | .finish stream =>
      ∀ handler, state.server.running stream = some handler → handler.gatewayId ≠ "" →
        state.newestSince stream handler.gatewayId = none

variable {state next : State} {event : Event} {stream : Nat} {handler : Handler}

theorem newestSince_finish (id : String) :
    (state.after (state.server.finish stream handler) (.finish stream)).newestSince stream id =
      state.newestSince stream id := by
  have same : ∀ other ∈ state.hellos.takeWhile (fun other => decide (other ≠ stream)),
      (state.after (state.server.finish stream handler) (.finish stream)).carries id other =
        state.carries id other := by
    intro other member
    have kept := List.mem_takeWhile_imp member
    have different : other ≠ stream := of_decide_eq_true kept
    simp only [State.carries, State.after, running_finish, if_neg different]
  rw [State.newestSince, State.newestSince]
  exact List.find?_congr same

theorem newerSurvives_finish_iff (found : state.server.running stream = some handler) :
    NewerSurvives (state.after (state.server.finish stream handler) (.finish stream)) ↔
      ReturnsLast state (.finish stream) := by
  have returned : (state.after (state.server.finish stream handler) (.finish stream)).returned =
      some (stream, handler.gatewayId) := by
    simp only [State.after, found, Option.map_some]
  constructor
  · intro survives known lookedUp named
    cases found.symm.trans lookedUp
    by_contra left
    obtain ⟨newer, newest⟩ := Option.ne_none_iff_exists'.mp left
    have stored := (survives stream handler.gatewayId newer returned named
      (by rw [newestSince_finish, newest])).1
    rw [State.after, gateways_finish, if_pos ⟨rfl, named⟩] at stored
    cases stored
  · intro last other id newer ended named newest
    cases returned.symm.trans ended
    rw [newestSince_finish, last handler found named] at newest
    cases newest

/-- In a run every newer stream survives the return of an older handler exactly
if no handler with a gateway id returns while a newer stream carries it. -/
theorem newer_survives_iff (events : List Event) :
    machine.Always NewerSurvives {} events ↔ machine.Meets ReturnsLast {} events := by
  apply Machine.always_iff_meets (fun _ => True)
  · intro stream id newer returned
    cases returned
  · trivial
  · intros
    trivial
  intro state event next _ _ stepped
  obtain ⟨server, taken, rfl⟩ := Option.map_eq_some_iff.mp stepped
  rcases step_cases taken with ⟨stream, rfl, _, rfl⟩ |
    ⟨stream, handler, received, rfl, _, rfl⟩ | ⟨stream, handler, rfl, found, rfl⟩
  · refine iff_of_true (fun stream id newer returned => ?_) trivial
    cases returned
  · refine iff_of_true (fun stream id newer returned => ?_) trivial
    cases received with
    | hello instanceId => cases returned
    | connOpen uid => cases returned
    | connClose uid => cases returned
    | heartbeat => cases returned
  · exact newerSurvives_finish_iff found

/-- The gateway reconnects and opens a user before its old handler returns. -/
theorem reconnected_gateway_is_removed :
    ¬ ∀ events, machine.Always NewerSurvives {} events := by
  intro always
  have survives := always [.call 1, .receive 1 (.hello "gw"), .call 2, .receive 2 (.hello "gw"),
    .receive 2 (.connOpen 7), .finish 1]
  have stored := (survives.atEnd rfl 1 "gw" 2 (by decide) (by decide) (by decide)).1
  revert stored
  decide

end MuduoIm.Logic.RegisterGateway.Replacement
