import MuduoIm.Transition.Machine
import MuduoIm.Logic.GatewayRegistry

namespace MuduoIm.Logic.RegisterGateway

open MuduoIm.Data MuduoIm.Transition

/-! # The handlers of RegisterGateway

One handler runs for each call.  It takes the events of its stream one by one,
and it deregisters its gateway once the stream ends, whether the gateway, the
network or the watchdog has ended it.
-/

/-- `heartbeat` stands for all events that the loop does not act on. -/
inductive GatewayEvent where
  | hello (instanceId : String)
  | connOpen (uid : Int)
  | connClose (uid : Int)
  | heartbeat
deriving DecidableEq, Repr

structure Handler where
  gatewayId : String := ""
  running : Bool := true
deriving DecidableEq, Repr

namespace Handler

variable (handler : Handler)

def hello (instanceId : String) : Handler := { handler with gatewayId := instanceId }

def ended : Handler := { handler with running := false }

end Handler

structure Server where
  registry : GatewayRegistry := {}
  handlers : Table Nat Handler := ∅

namespace Server

variable (server : Server)

def call (stream : Nat) : Server :=
  { server with handlers := server.handlers.insert stream {} }

/-- One turn of the loop of the handler that reads from this stream. -/
def receive (stream : Nat) (handler : Handler) : GatewayEvent → Server
  | .hello instanceId => {
      registry := server.registry.registerGateway instanceId stream
      handlers := server.handlers.insert stream (handler.hello instanceId) }
  | .connOpen uid =>
      { server with registry := server.registry.onUserOpen uid handler.gatewayId }
  | .connClose uid =>
      { server with registry := server.registry.onUserClose uid handler.gatewayId }
  | .heartbeat => server

/-- What a handler does after its loop. -/
def finish (stream : Nat) (handler : Handler) : Server where
  registry :=
    if handler.gatewayId = "" then server.registry
    else server.registry.deregisterGateway handler.gatewayId
  handlers := server.handlers.insert stream handler.ended

/-- The handler of a call that has not returned. -/
def running (stream : Nat) : Option Handler :=
  (server.handlers.lookup stream).filter Handler.running

end Server

inductive Event where
  | call (stream : Nat)
  | receive (stream : Nat) (event : GatewayEvent)
  | finish (stream : Nat)
deriving DecidableEq, Repr

def step (server : Server) : Event → Option Server
  | .call stream =>
      match server.handlers.lookup stream with
      | some _ => none
      | none => some (server.call stream)
  | .receive stream event =>
      match server.running stream with
      | some handler => some (server.receive stream handler event)
      | none => none
  | .finish stream =>
      match server.running stream with
      | some handler => some (server.finish stream handler)
      | none => none

def machine : Machine Server Event := ⟨step⟩

variable {server next : Server} {event : Event} {stream other : Nat} {handler : Handler} {id : String}

theorem step_cases (stepped : step server event = some next) :
    (∃ stream, event = .call stream ∧ server.handlers.lookup stream = none ∧
      next = server.call stream) ∨
    (∃ stream handler received, event = .receive stream received ∧
      server.running stream = some handler ∧ next = server.receive stream handler received) ∨
    ∃ stream handler, event = .finish stream ∧ server.running stream = some handler ∧
      next = server.finish stream handler := by
  cases event with
  | call stream =>
      simp only [step] at stepped
      split at stepped
      · cases stepped
      · rename_i absent
        cases stepped
        exact .inl ⟨stream, rfl, absent, rfl⟩
  | receive stream received =>
      simp only [step] at stepped
      split at stepped
      · rename_i handler found
        cases stepped
        exact .inr (.inl ⟨stream, handler, received, rfl, found, rfl⟩)
      · cases stepped
  | finish stream =>
      simp only [step] at stepped
      split at stepped
      · rename_i handler found
        cases stepped
        exact .inr (.inr ⟨stream, handler, rfl, found, rfl⟩)
      · cases stepped

theorem running_insert {handlers : Table Nat Handler} {registry : GatewayRegistry} :
    Server.running { registry, handlers := handlers.insert stream handler } other =
      if other = stream then (if handler.running then some handler else none)
      else (handlers.lookup other).filter Handler.running := by
  rw [Server.running, Table.lookup_insert_ite]
  by_cases same : other = stream
  · rw [if_pos same, if_pos same]
    rfl
  · rw [if_neg same, if_neg same]

theorem running_receive (found : server.running stream = some handler) (received : GatewayEvent) :
    ((server.receive stream handler received).running other).isSome = (server.running other).isSome := by
  cases received with
  | hello instanceId =>
      have alive : handler.running = true := (Option.filter_eq_some_iff.mp found).2
      rw [Server.receive, running_insert]
      by_cases same : other = stream
      · rw [if_pos same, if_pos (by exact alive), same, found]
        rfl
      · rw [if_neg same, Server.running]
  | connOpen uid => rfl
  | connClose uid => rfl
  | heartbeat => rfl

theorem running_finish : (server.finish stream handler).running other =
    if other = stream then none else server.running other := by
  rw [Server.finish, running_insert]
  rfl

/-! ## Streams of calls that have returned -/

/-- Every stored stream belongs to a call that has not returned, and so does
every stream that a push is written to. -/
structure NoDeadStream (server : Server) : Prop where
  stored : ∀ id stream, server.registry.gateways.lookup id = some stream →
    (server.running stream).isSome
  written : ∀ write uid payload push,
    (server.registry.pushToUser write uid payload).2 = some push →
    (server.running push.stream).isSome

/-- A handler returns only when its stream is stored under no id but the one it
deregisters: that of its last hello, if it is not empty. -/
def RemovesItsStream (server : Server) : Event → Prop
  | .call _ => True
  | .receive _ _ => True
  | .finish stream =>
      ∀ handler, server.running stream = some handler →
        ∀ id, server.registry.gateways.lookup id = some stream →
          id = handler.gatewayId ∧ handler.gatewayId ≠ ""

/-- A push is written to a stored stream. -/
theorem noDeadStream_of_stored (stored : ∀ id stream,
    server.registry.gateways.lookup id = some stream → (server.running stream).isSome) :
    NoDeadStream server where
  stored := stored
  written := by
    intro write uid payload push pushed
    rw [GatewayRegistry.pushToUser_eq] at pushed
    split at pushed
    · cases pushed
    · rename_i stream found
      cases pushed
      obtain ⟨gatewayId, _, held⟩ := Option.bind_eq_some_iff.mp found
      exact stored gatewayId stream held

theorem NoDeadStream.receive (alive : NoDeadStream server)
    (found : server.running stream = some handler) (received : GatewayEvent) :
    NoDeadStream (server.receive stream handler received) := by
  apply noDeadStream_of_stored
  intro id holder held
  rw [running_receive found]
  cases received with
  | hello instanceId =>
      simp only [Server.receive, GatewayRegistry.gateways_registerGateway] at held
      split at held
      · cases held
        rw [found]
        rfl
      · exact alive.stored id holder held
  | connOpen uid =>
      rw [Server.receive, GatewayRegistry.gateways_onUserOpen] at held
      exact alive.stored id holder held
  | connClose uid =>
      rw [Server.receive, GatewayRegistry.gateways_onUserClose] at held
      exact alive.stored id holder held
  | heartbeat => exact alive.stored id holder held

/-- What is stored after a handler has returned. -/
theorem gateways_finish : (server.finish stream handler).registry.gateways.lookup id =
    if id = handler.gatewayId ∧ handler.gatewayId ≠ "" then none
    else server.registry.gateways.lookup id := by
  simp only [Server.finish]
  by_cases nameless : handler.gatewayId = ""
  · simp [nameless]
  · simp [nameless]

theorem noDeadStream_finish_iff (alive : NoDeadStream server)
    (found : server.running stream = some handler) :
    NoDeadStream (server.finish stream handler) ↔ RemovesItsStream server (.finish stream) := by
  constructor
  · intro kept known lookedUp id held
    cases found.symm.trans lookedUp
    by_contra remains
    have stays := kept.stored id stream (by rw [gateways_finish, if_neg remains, held])
    rw [running_finish, if_pos rfl] at stays
    cases stays
  · intro removes
    apply noDeadStream_of_stored
    intro id holder held
    rw [gateways_finish] at held
    split at held
    · cases held
    · rename_i remains
      rw [running_finish]
      split
      · rename_i same
        exact absurd (removes handler found id (same ▸ held)) remains
      · exact alive.stored id holder held

/-- In a run no dead stream is ever stored exactly if every handler that
returns removes its stream. -/
theorem no_dead_stream_iff (events : List Event) :
    machine.Always NoDeadStream {} events ↔ machine.Meets RemovesItsStream {} events := by
  apply Machine.always_iff_meets (fun _ => True)
  · apply noDeadStream_of_stored
    intro id stream held
    cases held
  · trivial
  · intros
    trivial
  intro server event next _ alive stepped
  rcases step_cases stepped with ⟨stream, rfl, absent, rfl⟩ |
    ⟨stream, handler, received, rfl, found, rfl⟩ | ⟨stream, handler, rfl, found, rfl⟩
  · refine iff_of_true (noDeadStream_of_stored fun id holder held => ?_) trivial
    have before := alive.stored id holder held
    rw [Server.call, running_insert]
    split
    · rfl
    · exact before
  · exact iff_of_true (alive.receive found received) trivial
  · exact noDeadStream_finish_iff alive found

/-- The second hello carries another id than the first. -/
theorem second_hello_leaves_dead_stream :
    ¬ ∀ events, machine.Always NoDeadStream {} events := by
  intro always
  have returned := always [.call 1, .receive 1 (.hello "gw-a"), .receive 1 (.hello "gw-b"), .finish 1]
  have stored := (returned.atEnd rfl).stored "gw-a" 1 (by decide)
  revert stored
  decide

end MuduoIm.Logic.RegisterGateway
