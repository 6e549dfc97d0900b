import MuduoIm.Data.Membership
import MuduoIm.Gateway.LogicClientPool
import MuduoIm.Logic.RegisterGateway

namespace MuduoIm.Gateway.Presence

open MuduoIm.Data MuduoIm.Data.Membership MuduoIm.Transition MuduoIm.Registry
open MuduoIm.Logic MuduoIm.Logic.RegisterGateway

/-! # Presence sent to the logic instances

The gateway queues every open and close of a session at each logic client that
it has at that moment.  A client keeps its queue while its stream is down, and
it does not send again what it has once taken off the queue.  At the logic
instance, the handler of a stream that has ended returns later, when its
watchdog has; the client may have a new stream by then.
-/

/-- `written` are the events on the stream that the logic instance has not yet
read, if the stream is up. -/
structure LogicClient where
  queue : List GatewayEvent := []
  written : Option (List GatewayEvent) := none

namespace LogicClient

variable (client : LogicClient)

def enqueue (event : GatewayEvent) : LogicClient :=
  { client with queue := client.queue ++ [event] }

def sent (written : List GatewayEvent) (queue : List GatewayEvent) : LogicClient :=
  { queue, written := some written }

def down (queue : List GatewayEvent) : LogicClient := { queue, written := none }

/-- All events under way to the logic instance, the oldest first. -/
def underway : List GatewayEvent := client.written.getD [] ++ client.queue

end LogicClient

/-- What the writer sends next: with an empty queue, a heartbeat. -/
def nextEvent (queue : List GatewayEvent) : GatewayEvent := queue.head?.getD .heartbeat

/-- A logic instance.  The gateway has called it `calls` times; the last call
is the current stream.  `ended` has the streams that have ended and whose
handlers have not returned, each with the events that are left on it. -/
structure LogicInstance where
  server : Server := {}
  calls : Nat := 0
  ended : Table Nat (List GatewayEvent) := ∅

namespace LogicInstance

variable (logic : LogicInstance)

def accept : LogicInstance :=
  { logic with server := logic.server.call (logic.calls + 1), calls := logic.calls + 1 }

/-- The handler of a stream takes an event from it. -/
def receive (stream : Nat) (event : GatewayEvent) : LogicInstance :=
  match logic.server.running stream with
  | some handler => { logic with server := logic.server.receive stream handler event }
  | none => logic

/-- The current stream ends, with the events that nobody has read. -/
def endStream (left : List GatewayEvent) : LogicInstance :=
  { logic with ended := logic.ended.insert logic.calls left }

def receiveEnded (stream : Nat) (event : GatewayEvent) (left : List GatewayEvent) : LogicInstance :=
  { logic.receive stream event with ended := logic.ended.insert stream left }

def finish (stream : Nat) : LogicInstance :=
  match logic.server.running stream with
  | some handler =>
      { logic with server := logic.server.finish stream handler, ended := logic.ended.erase stream }
  | none => logic

def present (uid : Int) : Bool := (logic.server.registry.userToGateway.lookup uid).isSome

end LogicInstance

/-- `sessions` are the users with an open session on the gateway. -/
structure State where
  pool : LogicClientPool := {}
  clients : Table String LogicClient := ∅
  logics : Table String LogicInstance := ∅
  sessions : Finset Int := ∅

namespace State

variable (state : State)

def logic (addr : String) : LogicInstance := (state.logics.lookup addr).getD {}

def set (addr : String) (client : LogicClient) (logic : LogicInstance) : State :=
  { state with
    clients := state.clients.insert addr client
    logics := state.logics.insert addr logic }

def notifyConnOpen (uid : Int) : State :=
  { state with
    clients := state.clients.mapValues (fun client => client.enqueue (.connOpen uid))
    sessions := insert uid state.sessions }

def notifyConnClose (uid : Int) : State :=
  { state with
    clients := state.clients.mapValues (fun client => client.enqueue (.connClose uid))
    sessions := state.sessions.erase uid }

def addEndpoint (ep : Endpoint) (az : String) : State :=
  if ep.addr ∈ state.pool.clients then state
  else { state with
    pool := state.pool.addEndpoint ep az
    clients := state.clients.insert ep.addr {} }

/-- The client that is stopped cancels its stream, if it is up. -/
def removeEndpoint (instanceId : String) : State :=
  match state.pool.instanceToAddr.lookup instanceId with
  | none => state
  | some addr =>
      if addr ∈ state.pool.clients then { state with
        pool := state.pool.removeEndpoint instanceId
        clients := state.clients.erase addr
        logics := match (state.clients.lookup addr).bind LogicClient.written with
          | some written => state.logics.insert addr ((state.logic addr).endStream written)
          | none => state.logics }
      else { state with pool := state.pool.removeEndpoint instanceId }

end State

/-- `write` takes an event off the queue; `loseEvent` does so while the stream
breaks, and the event is lost.  The handler of a stream that has ended may still
read what is left on it before it returns, which is `finish`. -/
inductive Event where
  | connOpen (uid : Int)
  | connClose (uid : Int)
  | addEndpoint (ep : Endpoint) (az : String)
  | removeEndpoint (instanceId : String)
  | connect (addr : String)
  | write (addr : String)
  | loseEvent (addr : String)
  | breakStream (addr : String)
  | process (addr : String)
  | receiveEnded (addr : String) (stream : Nat)
  | finish (addr : String) (stream : Nat)
deriving DecidableEq, Repr

def step (gatewayId : String) (state : State) : Event → Option State
  | .connOpen uid => if uid ∈ state.sessions then none else some (state.notifyConnOpen uid)
  | .connClose uid => if uid ∈ state.sessions then some (state.notifyConnClose uid) else none
  | .addEndpoint ep az => some (state.addEndpoint ep az)
  | .removeEndpoint instanceId => some (state.removeEndpoint instanceId)
  | .connect addr =>
      match state.clients.lookup addr with
      | some ⟨queue, none⟩ =>
          some (state.set addr (.sent [.hello gatewayId] queue) (state.logic addr).accept)
      | _ => none
  | .write addr =>
      match state.clients.lookup addr with
      | some ⟨queue, some written⟩ =>
          some (state.set addr (.sent (written ++ [nextEvent queue]) queue.tail) (state.logic addr))
      | _ => none
  | .loseEvent addr =>
      match state.clients.lookup addr with
      | some ⟨queue, some written⟩ =>
          some (state.set addr (.down queue.tail) ((state.logic addr).endStream written))
      | _ => none
  | .breakStream addr =>
      match state.clients.lookup addr with
      | some ⟨queue, some written⟩ =>
          some (state.set addr (.down queue) ((state.logic addr).endStream written))
      | _ => none
  | .process addr =>
      match state.clients.lookup addr with
      | some ⟨queue, some (event :: rest)⟩ =>
          some (state.set addr (.sent rest queue) ((state.logic addr).receive (state.logic addr).calls event))
      | _ => none
  | .receiveEnded addr stream =>
      match (state.logic addr).ended.lookup stream with
      | some (event :: left) => some { state with
          logics := state.logics.insert addr ((state.logic addr).receiveEnded stream event left) }
      | _ => none
  | .finish addr stream =>
      match (state.logic addr).ended.lookup stream with
      | some _ => some { state with logics := state.logics.insert addr ((state.logic addr).finish stream) }
      | none => none

def machine (gatewayId : String) : Machine State Event := ⟨step gatewayId⟩

/-- Every stream is up, every queue is empty, and everything written has been
processed. -/
def Settled (state : State) : Prop :=
  ∀ addr client, state.clients.lookup addr = some client → client.queue = [] ∧ client.written = some []

/-- In a settled state the table of every logic instance in the pool contains
exactly the users with an open session. -/
def Mirrored (state : State) : Prop :=
  Settled state → ∀ addr ∈ state.pool.clients, ∀ uid,
    uid ∈ (state.logic addr).server.registry.userToGateway ↔ uid ∈ state.sessions

/-- What an event tells about the presence of a user. -/
def tells (uid : Int) : GatewayEvent → Option Bool
  | .hello _ => none
  | .connOpen user => if user = uid then some true else none
  | .connClose user => if user = uid then some false else none
  | .heartbeat => none

def Told (uid : Int) (events : List GatewayEvent) : Prop := ∃ event ∈ events, (tells uid event).isSome

/-- The events tell of every user about whom the logic instance is not right. -/
def Informed (state : State) (addr : String) (events : List GatewayEvent) : Prop :=
  ∀ uid, Told uid events ∨ (state.logic addr).present uid = decide (uid ∈ state.sessions)

/-- A logic client is new, and a stream ends, only while the events that are
left in the queue bring the logic instance up to date.  What the handler of an
ended stream reads is right, or the events under way correct it.  Such a handler
returns only while the open of every open session is under way, or without ever
having read the hello. -/
def KeepsPresence (state : State) : Event → Prop
  | .connOpen _ => True
  | .connClose _ => True
  | .addEndpoint ep _ => ep.addr ∈ state.pool.clients ∨ Informed state ep.addr []
  | .removeEndpoint _ => True
  | .connect _ => True
  | .write _ => True
  | .loseEvent addr =>
      ∀ client, state.clients.lookup addr = some client → Informed state addr client.queue.tail
  | .breakStream addr =>
      ∀ client, state.clients.lookup addr = some client → Informed state addr client.queue
  | .process _ => True
  | .receiveEnded addr stream =>
      ∀ client, state.clients.lookup addr = some client → ∀ event left,
        (state.logic addr).ended.lookup stream = some (event :: left) → ∀ uid present,
          tells uid event = some present → Told uid client.underway ∨ present = decide (uid ∈ state.sessions)
  | .finish addr stream =>
      ∀ client, state.clients.lookup addr = some client → ∀ handler,
        (state.logic addr).server.running stream = some handler → handler.gatewayId ≠ "" →
          ∀ uid ∈ state.sessions, .connOpen uid ∈ client.underway

/-! ## The handlers of one logic instance -/

/-- The handler of the stream has read the hello, or the hello comes first. -/
def Reads (gatewayId : String) (server : Server) (stream : Nat) (events : List GatewayEvent) : Prop :=
  ∃ handler, server.running stream = some handler ∧
    ((handler.gatewayId = gatewayId ∧ ∀ id, .hello id ∉ events) ∨
      (handler.gatewayId = "" ∧ ∃ rest, events = .hello gatewayId :: rest ∧ ∀ id, .hello id ∉ rest))

/-- The table has users of this gateway only, and the handlers of the streams
that have ended are still to return. -/
structure Consistent (gatewayId : String) (logic : LogicInstance) : Prop where
  mapped : ∀ uid id, logic.server.registry.userToGateway.lookup uid = some id → id = gatewayId
  ended : ∀ stream left, logic.ended.lookup stream = some left →
    stream ≤ logic.calls ∧ Reads gatewayId logic.server stream left

variable {gatewayId : String} {sessions : Finset Int} {logic : LogicInstance} {server : Server} {uid : Int}
variable {client : LogicClient} {queue written left rest : List GatewayEvent} {event : GatewayEvent}
variable {stream other : Nat} {handler : Handler}

theorem running_receive_of_ne (different : other ≠ stream) :
    (server.receive stream handler event).running other = server.running other := by
  cases event with
  | hello id => rw [Server.receive, running_insert, if_neg different, Server.running]
  | connOpen user => rfl
  | connClose user => rfl
  | heartbeat => rfl

/-- One turn of the loop of a handler. -/
theorem Reads.receive (reads : Reads gatewayId server stream (event :: rest))
    (running : server.running stream = some handler) :
    Reads gatewayId (server.receive stream handler event) stream rest := by
  obtain ⟨same, found, either⟩ := reads
  rw [running, Option.some.injEq] at found
  subst found
  rcases either with ⟨greeted, clean⟩ | ⟨_, later, order, clean⟩
  · have kept : (server.receive stream handler event).running stream = some handler := by
      cases event with
      | hello id => exact absurd List.mem_cons_self (clean id)
      | connOpen user => exact running
      | connClose user => exact running
      | heartbeat => exact running
    exact ⟨handler, kept, .inl ⟨greeted, fun id member => clean id (List.mem_cons_of_mem _ member)⟩⟩
  · cases order
    have alive : handler.running = true := (Option.filter_eq_some_iff.mp running).2
    refine ⟨handler.hello gatewayId, ?_, .inl ⟨rfl, clean⟩⟩
    simp only [Server.receive, running_insert, if_true]
    exact if_pos alive

theorem Reads.receive_other (reads : Reads gatewayId server other left) (different : other ≠ stream) :
    Reads gatewayId (server.receive stream handler event) other left := by
  obtain ⟨reader, running, either⟩ := reads
  exact ⟨reader, (running_receive_of_ne different).trans running, either⟩

/-- The name of a handler that reads something else than the hello. -/
theorem Reads.greeted (reads : Reads gatewayId server stream (event :: rest))
    (running : server.running stream = some handler) (notHello : ∀ id, event ≠ .hello id) :
    handler.gatewayId = gatewayId := by
  obtain ⟨same, found, ⟨greeted, _⟩ | ⟨_, later, order, _⟩⟩ := reads
  · rw [running, Option.some.injEq] at found
    rw [found, greeted]
  · cases order
    exact absurd rfl (notHello gatewayId)

theorem mapped_receive (mapped : ∀ uid id, server.registry.userToGateway.lookup uid = some id → id = gatewayId)
    (reads : Reads gatewayId server stream (event :: rest)) (running : server.running stream = some handler)
    (uid : Int) (id : String)
    (found : (server.receive stream handler event).registry.userToGateway.lookup uid = some id) :
    id = gatewayId := by
  cases event with
  | hello name => exact mapped uid id found
  | heartbeat => exact mapped uid id found
  | connOpen user =>
      have greeted := reads.greeted running (by simp)
      simp only [Server.receive, GatewayRegistry.userToGateway_onUserOpen, greeted] at found
      split at found
      · cases found
        rfl
      · exact mapped uid id found
  | connClose user =>
      simp only [Server.receive, GatewayRegistry.userToGateway_onUserClose] at found
      split at found
      · cases found
      · exact mapped uid id found

/-- An event changes the table as it tells. -/
theorem Consistent.present_receive (consistent : Consistent gatewayId logic)
    (reads : Reads gatewayId logic.server stream (event :: rest)) (uid : Int) :
    (logic.receive stream event).present uid = (tells uid event).getD (logic.present uid) := by
  obtain ⟨handler, running, _⟩ := id reads
  rw [LogicInstance.receive, running]
  cases event with
  | hello id => rfl
  | heartbeat => rfl
  | connOpen user =>
      simp only [LogicInstance.present, Server.receive, GatewayRegistry.userToGateway_onUserOpen, tells]
      by_cases same : uid = user
      · simp [same]
      · simp [same, Ne.symm same]
  | connClose user =>
      have greeted := reads.greeted running (by simp)
      simp only [LogicInstance.present, Server.receive, GatewayRegistry.userToGateway_onUserClose, tells]
      by_cases same : uid = user
      · subst same
        cases found : logic.server.registry.userToGateway.lookup uid with
        | none => simp
        | some id => simp [consistent.mapped uid id found, greeted]
      · simp [same, Ne.symm same]

theorem Consistent.receive (consistent : Consistent gatewayId logic)
    (reads : Reads gatewayId logic.server stream (event :: rest)) (apart : logic.ended.lookup stream = none) :
    Consistent gatewayId (logic.receive stream event) := by
  obtain ⟨handler, running, _⟩ := id reads
  rw [LogicInstance.receive, running]
  refine ⟨mapped_receive consistent.mapped reads running, fun other left found => ?_⟩
  obtain ⟨earlier, still⟩ := consistent.ended other left found
  refine ⟨earlier, still.receive_other ?_⟩
  intro same
  rw [same, apart] at found
  cases found

theorem Consistent.receiveEnded (consistent : Consistent gatewayId logic)
    (found : logic.ended.lookup stream = some (event :: left)) :
    Consistent gatewayId (logic.receiveEnded stream event left) := by
  obtain ⟨earlier, reads⟩ := consistent.ended stream _ found
  obtain ⟨handler, running, _⟩ := id reads
  rw [LogicInstance.receiveEnded, LogicInstance.receive, running]
  refine ⟨mapped_receive consistent.mapped reads running, fun other remaining held => ?_⟩
  rw [Table.lookup_insert_ite] at held
  split at held
  · rename_i same
    cases held
    subst same
    exact ⟨earlier, reads.receive running⟩
  · rename_i different
    obtain ⟨before, still⟩ := consistent.ended other remaining held
    exact ⟨before, still.receive_other different⟩

theorem Consistent.accept (consistent : Consistent gatewayId logic) : Consistent gatewayId logic.accept := by
  refine ⟨consistent.mapped, fun other left found => ?_⟩
  obtain ⟨earlier, handler, running, either⟩ := consistent.ended other left found
  have different : other ≠ logic.calls + 1 := by omega
  refine ⟨Nat.le_succ_of_le earlier, handler, ?_, either⟩
  simp only [LogicInstance.accept, Server.call, running_insert, if_neg different]
  exact running

theorem Consistent.endStream (consistent : Consistent gatewayId logic)
    (reads : Reads gatewayId logic.server logic.calls written) :
    Consistent gatewayId (logic.endStream written) := by
  refine ⟨consistent.mapped, fun other left found => ?_⟩
  simp only [LogicInstance.endStream, Table.lookup_insert_ite] at found
  split at found
  · rename_i same
    cases found
    subst same
    exact ⟨Nat.le_refl _, reads⟩
  · exact consistent.ended other left found

theorem Consistent.finish (consistent : Consistent gatewayId logic) :
    Consistent gatewayId (logic.finish stream) := by
  rw [LogicInstance.finish]
  split
  · rename_i handler running
    refine ⟨fun uid id found => ?_, fun other left found => ?_⟩
    · simp only [Server.finish] at found
      split at found
      · exact consistent.mapped uid id found
      · rw [GatewayRegistry.userToGateway_deregisterGateway] at found
        exact consistent.mapped uid id (Option.filter_eq_some_iff.mp found).1
    · rw [Table.lookup_erase_ite] at found
      split at found
      · cases found
      · rename_i different
        obtain ⟨earlier, reader, reading, either⟩ := consistent.ended other left found
        exact ⟨earlier, reader, by rw [running_finish, if_neg different, reading], either⟩
  · exact consistent

/-- A handler that returns drops all users of its gateway. -/
theorem Consistent.present_finish (consistent : Consistent gatewayId logic)
    (found : logic.ended.lookup stream = some left) (uid : Int) :
    (logic.finish stream).present uid = false ∨ (logic.finish stream).present uid = logic.present uid := by
  obtain ⟨_, handler, running, either⟩ := consistent.ended stream left found
  rw [LogicInstance.finish, running]
  simp only [LogicInstance.present, Server.finish]
  split
  · exact .inr rfl
  · rename_i named
    have greeted : handler.gatewayId = gatewayId := by
      rcases either with ⟨greeted, _⟩ | ⟨nameless, _⟩
      · exact greeted
      · exact absurd nameless named
    left
    rw [GatewayRegistry.userToGateway_deregisterGateway]
    cases known : logic.server.registry.userToGateway.lookup uid with
    | none => rfl
    | some id => simp [consistent.mapped uid id known, greeted]

theorem present_finish_of_nameless (nameless : ∀ handler, logic.server.running stream = some handler →
    handler.gatewayId = "") : (logic.finish stream).present uid = logic.present uid := by
  rw [LogicInstance.finish]
  split
  · rename_i handler running
    simp only [LogicInstance.present, Server.finish, if_pos (nameless handler running)]
  · rfl

/-! ## A client and its logic instance -/

/-- The users that a logic instance knows, with the events under way to it, are
those with an open session. -/
structure Linked (gatewayId : String) (sessions : Finset Int) (client : LogicClient)
    (logic : LogicInstance) : Prop where
  plain : ∀ id, .hello id ∉ client.queue
  up : ∀ written, client.written = some written →
    Reads gatewayId logic.server logic.calls written ∧ logic.ended.lookup logic.calls = none
  mirrors : ∀ uid, memberAfter (tells uid) (logic.present uid) client.underway = decide (uid ∈ sessions)

/-- A client whose stream has ended, with what is left of its queue. -/
theorem Linked.endStream {lost : List GatewayEvent} (linked : Linked gatewayId sessions client logic)
    (split : client.underway = lost ++ left) (plain : ∀ id, .hello id ∉ left)
    (informed : ∀ uid, Told uid left ∨ logic.present uid = decide (uid ∈ sessions)) :
    Linked gatewayId sessions (.down left) (logic.endStream written) where
  plain := plain
  up := by
    intro written stream
    cases stream
  mirrors := by
    intro uid
    have before := linked.mirrors uid
    rw [split] at before
    exact memberAfter_corrected before (informed uid)

theorem Linked.enqueue {after : Finset Int} (linked : Linked gatewayId sessions client logic)
    (notHello : ∀ id, event ≠ .hello id)
    (changed : ∀ uid, (tells uid event).getD (decide (uid ∈ sessions)) = decide (uid ∈ after)) :
    Linked gatewayId after (client.enqueue event) logic where
  plain := by
    intro id member
    rcases List.mem_append.mp member with member | member
    · exact linked.plain id member
    · exact notHello id (List.mem_singleton.mp member).symm
  up := linked.up
  mirrors := by
    intro uid
    have later : (client.enqueue event).underway = client.underway ++ [event] := by
      rw [LogicClient.underway, LogicClient.underway, List.append_assoc]
      rfl
    rw [later, memberAfter_concat, linked.mirrors, changed]

/-- A new stream, with the hello on it. -/
theorem Linked.accept (linked : Linked gatewayId sessions ⟨queue, none⟩ logic)
    (consistent : Consistent gatewayId logic) :
    Linked gatewayId sessions (.sent [.hello gatewayId] queue) logic.accept where
  plain := linked.plain
  up := by
    intro written stream
    cases stream
    refine ⟨⟨{}, ?_, .inr ⟨rfl, [], rfl, by simp⟩⟩, ?_⟩
    · simp only [LogicInstance.accept, Server.call, running_insert, if_true]
    · cases found : logic.ended.lookup (logic.calls + 1) with
      | none => exact found
      | some left =>
          have earlier := (consistent.ended _ left found).1
          omega
  mirrors := linked.mirrors

theorem nextEvent_ne_hello (plain : ∀ id, .hello id ∉ queue) (id : String) :
    .hello id ≠ nextEvent queue := by
  cases queue with
  | nil => simp [nextEvent]
  | cons event rest =>
      intro same
      exact plain id (same ▸ List.mem_cons_self)

/-- The event written has left the queue, or it is a heartbeat. -/
theorem Linked.write (linked : Linked gatewayId sessions ⟨queue, some written⟩ logic) :
    Linked gatewayId sessions (.sent (written ++ [nextEvent queue]) queue.tail) logic where
  plain := fun id member => linked.plain id (List.mem_of_mem_tail member)
  up := by
    intro sent stream
    cases stream
    have later (rest : List GatewayEvent) (clean : ∀ id, .hello id ∉ rest) (id : String) :
        .hello id ∉ rest ++ [nextEvent queue] := by
      intro member
      rcases List.mem_append.mp member with member | member
      · exact clean id member
      · exact nextEvent_ne_hello linked.plain id (List.mem_singleton.mp member)
    obtain ⟨⟨handler, running, either⟩, apart⟩ := linked.up written rfl
    rcases either with ⟨greeted, clean⟩ | ⟨nameless, rest, rfl, clean⟩
    · exact ⟨⟨handler, running, .inl ⟨greeted, later written clean⟩⟩, apart⟩
    · exact ⟨⟨handler, running, .inr ⟨nameless, rest ++ [nextEvent queue], rfl, later rest clean⟩⟩, apart⟩
  mirrors := by
    intro uid
    rw [← linked.mirrors uid]
    cases queue with
    | nil =>
        have later : (LogicClient.sent (written ++ [nextEvent []]) []).underway =
            (LogicClient.mk [] (some written)).underway ++ [.heartbeat] := by
          simp [LogicClient.underway, LogicClient.sent, nextEvent]
        rw [List.tail_nil, later, memberAfter_concat]
        rfl
    | cons event rest =>
        have same : (LogicClient.sent (written ++ [nextEvent (event :: rest)]) rest).underway =
            (LogicClient.mk (event :: rest) (some written)).underway := by
          simp [LogicClient.underway, LogicClient.sent, nextEvent]
        rw [List.tail_cons, same]

/-- The handler of the current stream reads the next event. -/
theorem Linked.process (linked : Linked gatewayId sessions ⟨queue, some (event :: rest)⟩ logic)
    (consistent : Consistent gatewayId logic) :
    Linked gatewayId sessions (.sent rest queue) (logic.receive logic.calls event) where
  plain := linked.plain
  up := by
    intro sent stream
    cases stream
    obtain ⟨reads, apart⟩ := linked.up _ rfl
    obtain ⟨handler, running, _⟩ := id reads
    rw [LogicInstance.receive, running]
    exact ⟨reads.receive running, apart⟩
  mirrors := by
    intro uid
    rw [consistent.present_receive (linked.up _ rfl).1, ← linked.mirrors uid]
    rfl

/-- The handler of an ended stream reads an event that is left on it. -/
theorem Linked.receiveEnded (linked : Linked gatewayId sessions client logic)
    (consistent : Consistent gatewayId logic) (found : logic.ended.lookup stream = some (event :: left))
    (corrected : ∀ uid present, tells uid event = some present →
      Told uid client.underway ∨ present = decide (uid ∈ sessions)) :
    Linked gatewayId sessions client (logic.receiveEnded stream event left) := by
  have reads := (consistent.ended stream _ found).2
  have presence (uid : Int) : (logic.receiveEnded stream event left).present uid =
      (tells uid event).getD (logic.present uid) := consistent.present_receive reads uid
  refine ⟨linked.plain, fun written up => ?_, fun uid => ?_⟩
  · obtain ⟨current, apart⟩ := linked.up written up
    have different : logic.calls ≠ stream := by
      intro same
      rw [same, found] at apart
      cases apart
    obtain ⟨handler, running, _⟩ := id reads
    rw [LogicInstance.receiveEnded, LogicInstance.receive, running]
    exact ⟨current.receive_other different, by rw [Table.lookup_insert_ite, if_neg different, apart]⟩
  · rw [presence]
    cases told : tells uid event with
    | none => exact linked.mirrors uid
    | some present =>
        have before : memberAfter (tells uid) (logic.present uid) ([] ++ client.underway) = _ := linked.mirrors uid
        exact memberAfter_corrected before (corrected uid present told)

/-- The handler of an ended stream returns. -/
theorem Linked.finish (linked : Linked gatewayId sessions client logic)
    (consistent : Consistent gatewayId logic) (found : logic.ended.lookup stream = some left)
    (underway : ∀ handler, logic.server.running stream = some handler → handler.gatewayId ≠ "" →
      ∀ uid ∈ sessions, .connOpen uid ∈ client.underway) :
    Linked gatewayId sessions client (logic.finish stream) := by
  refine ⟨linked.plain, fun written up => ?_, fun uid => ?_⟩
  · obtain ⟨⟨reader, reading, either⟩, apart⟩ := linked.up written up
    have different : logic.calls ≠ stream := by
      intro same
      rw [same, found] at apart
      cases apart
    rw [LogicInstance.finish]
    split
    · refine ⟨⟨reader, ?_, either⟩, ?_⟩
      · rw [running_finish, if_neg different, reading]
      · rw [Table.lookup_erase_ite, if_neg different, apart]
    · exact ⟨⟨reader, reading, either⟩, apart⟩
  · have before : memberAfter (tells uid) (logic.present uid) ([] ++ client.underway) = _ := linked.mirrors uid
    by_cases nameless : ∀ handler, logic.server.running stream = some handler → handler.gatewayId = ""
    · rw [present_finish_of_nameless nameless]
      exact before
    · push Not at nameless
      obtain ⟨handler, running, named⟩ := nameless
      rcases consistent.present_finish found uid with dropped | kept
      · rw [dropped]
        refine memberAfter_corrected before ?_
        by_cases member : uid ∈ sessions
        · exact .inl ⟨.connOpen uid, underway handler running named uid member, by simp [tells]⟩
        · exact .inr (decide_eq_false member).symm
      · rw [kept]
        exact before

/-! ## All of them -/

/-- Every client of the pool is linked to its logic instance. -/
structure Sound (gatewayId : String) (state : State) : Prop where
  tracked : ∀ addr, addr ∈ state.pool.clients ↔ ∃ client, state.clients.lookup addr = some client
  linked : ∀ addr client, state.clients.lookup addr = some client →
    Linked gatewayId state.sessions client (state.logic addr)
  consistent : ∀ addr, Consistent gatewayId (state.logic addr)

theorem sound_init : Sound gatewayId {} where
  tracked := by simp
  linked := by simp
  consistent := fun addr => ⟨nofun, nofun⟩

variable {state next : State} {addr : String}

/-- When nothing is under way, the tables are the open sessions. -/
theorem Sound.mirrored (sound : Sound gatewayId state) : Mirrored state := by
  intro settled addr member uid
  obtain ⟨client, found⟩ := (sound.tracked addr).mp member
  have mirrors := (sound.linked addr client found).mirrors uid
  obtain ⟨empty, processed⟩ := settled addr client found
  simp only [LogicClient.underway, empty, processed, Option.getD_some, List.append_nil, memberAfter,
    LogicInstance.present] at mirrors
  rw [← AList.lookup_isSome, mirrors, decide_eq_true_eq]

theorem Sound.notify {after : Finset Int} (sound : Sound gatewayId state)
    (notHello : ∀ id, event ≠ .hello id)
    (changed : ∀ uid, (tells uid event).getD (decide (uid ∈ state.sessions)) = decide (uid ∈ after)) :
    Sound gatewayId { state with
      clients := state.clients.mapValues (fun client => client.enqueue event), sessions := after } where
  tracked := by
    intro addr
    simp only [Table.lookup_mapValues, Option.map_eq_some_iff]
    constructor
    · intro member
      obtain ⟨client, found⟩ := (sound.tracked addr).mp member
      exact ⟨_, client, found, rfl⟩
    · intro given
      obtain ⟨_, client, found, _⟩ := given
      exact (sound.tracked addr).mpr ⟨client, found⟩
  linked := by
    intro addr client found
    rw [Table.lookup_mapValues] at found
    obtain ⟨before, held, rfl⟩ := Option.map_eq_some_iff.mp found
    exact (sound.linked addr before held).enqueue notHello changed
  consistent := sound.consistent

/-- A step of one client and its logic instance. -/
theorem Sound.set {logic : LogicInstance} {before : LogicClient} (sound : Sound gatewayId state)
    (found : state.clients.lookup addr = some before)
    (linked : Linked gatewayId state.sessions client logic) (consistent : Consistent gatewayId logic) :
    Sound gatewayId (state.set addr client logic) where
  tracked := by
    intro other
    simp only [State.set, Table.lookup_insert_ite]
    rw [sound.tracked]
    by_cases same : other = addr
    · rw [same, found]
      simp
    · simp [same]
  linked := by
    intro other known held
    simp only [State.set, State.logic, Table.lookup_insert_ite] at held ⊢
    by_cases same : other = addr
    · rw [if_pos same] at held ⊢
      cases held
      exact linked
    · rw [if_neg same] at held ⊢
      exact sound.linked other known held
  consistent := by
    intro other
    simp only [State.set, State.logic, Table.lookup_insert_ite]
    by_cases same : other = addr
    · rw [if_pos same]
      exact consistent
    · rw [if_neg same]
      exact sound.consistent other

/-- A step of a handler whose stream has ended; the address may have no client. -/
theorem Sound.setLogic {logic : LogicInstance} (sound : Sound gatewayId state)
    (linked : ∀ client, state.clients.lookup addr = some client → Linked gatewayId state.sessions client logic)
    (consistent : Consistent gatewayId logic) :
    Sound gatewayId { state with logics := state.logics.insert addr logic } where
  tracked := sound.tracked
  linked := by
    intro other known held
    simp only [State.logic, Table.lookup_insert_ite]
    by_cases same : other = addr
    · rw [if_pos same]
      subst same
      exact linked known held
    · rw [if_neg same]
      exact sound.linked other known held
  consistent := by
    intro other
    simp only [State.logic, Table.lookup_insert_ite]
    by_cases same : other = addr
    · rw [if_pos same]
      exact consistent
    · rw [if_neg same]
      exact sound.consistent other

theorem Sound.addEndpoint (sound : Sound gatewayId state) (ep : Endpoint) (az : String)
    (informed : ep.addr ∈ state.pool.clients ∨ Informed state ep.addr []) :
    Sound gatewayId (state.addEndpoint ep az) := by
  rw [State.addEndpoint]
  split
  · exact sound
  · rename_i new
    have informed := informed.resolve_left new
    refine { tracked := ?_, linked := ?_, consistent := sound.consistent }
    · intro addr
      simp only [LogicClientPool.addEndpoint, if_neg new, Finset.mem_insert, Table.lookup_insert_ite]
      rw [sound.tracked]
      by_cases same : addr = ep.addr
      · simp [same]
      · simp [same]
    · intro addr client held
      rw [Table.lookup_insert_ite] at held
      by_cases same : addr = ep.addr
      · rw [if_pos same] at held
        cases held
        rw [same]
        refine { plain := by simp, up := ?_, mirrors := ?_ }
        · intro written stream
          cases stream
        · intro uid
          refine (informed uid).resolve_left fun told => ?_
          obtain ⟨_, absurdly, _⟩ := told
          cases absurdly
      · rw [if_neg same] at held
        exact sound.linked addr client held

theorem Sound.removeEndpoint (sound : Sound gatewayId state) (instanceId : String) :
    Sound gatewayId (state.removeEndpoint instanceId) := by
  rw [State.removeEndpoint]
  cases known : state.pool.instanceToAddr.lookup instanceId with
  | none => exact sound
  | some addr =>
      by_cases connected : addr ∈ state.pool.clients
      · obtain ⟨client, found⟩ := (sound.tracked addr).mp connected
        have erased (logics : Table String LogicInstance)
            (others : ∀ other, other ≠ addr → (logics.lookup other).getD {} = state.logic other)
            (consistent : ∀ other, Consistent gatewayId ((logics.lookup other).getD {})) :
            Sound gatewayId { state with
              pool := state.pool.removeEndpoint instanceId, clients := state.clients.erase addr, logics } := by
          refine { tracked := ?_, linked := ?_, consistent := consistent }
          · intro other
            simp only [LogicClientPool.removeEndpoint, known, if_pos connected, Finset.mem_erase,
              Table.lookup_erase_ite]
            rw [sound.tracked]
            by_cases same : other = addr
            · simp [same]
            · simp [same]
          · intro other client held
            rw [Table.lookup_erase_ite] at held
            split at held
            · cases held
            · rename_i different
              rw [State.logic, others other different]
              exact sound.linked other client held
        simp only [if_pos connected, found, Option.bind_some]
        cases stream : client.written with
        | none => exact erased state.logics (fun _ _ => rfl) sound.consistent
        | some written =>
            have ended := (sound.consistent addr).endStream ((sound.linked addr client found).up written stream).1
            refine erased _ (fun other different => ?_) fun other => ?_
            · rw [Table.lookup_insert_ite, if_neg different]
              rfl
            · rw [Table.lookup_insert_ite]
              split
              · exact ended
              · exact sound.consistent other
      · simp only [if_neg connected]
        refine { tracked := ?_, linked := sound.linked, consistent := sound.consistent }
        intro other
        simp only [LogicClientPool.removeEndpoint, known, if_neg connected]
        exact sound.tracked other

theorem Sound.step (sound : Sound gatewayId state) {event : Event}
    (keeps : KeepsPresence state event) (stepped : (machine gatewayId).step state event = some next) :
    Sound gatewayId next := by
  change Presence.step gatewayId state event = some next at stepped
  cases event with
  | connOpen uid =>
      simp only [Presence.step] at stepped
      split at stepped
      · cases stepped
      · cases stepped
        refine sound.notify (fun id same => by cases same) (fun user => ?_)
        by_cases same : uid = user
        · simp [tells, same]
        · simp [tells, same, Ne.symm same]
  | connClose uid =>
      simp only [Presence.step] at stepped
      split at stepped
      · cases stepped
        refine sound.notify (fun id same => by cases same) (fun user => ?_)
        by_cases same : uid = user
        · simp [tells, same]
        · simp [tells, same, Ne.symm same]
      · cases stepped
  | addEndpoint ep az =>
      cases stepped
      exact sound.addEndpoint ep az keeps
  | removeEndpoint instanceId =>
      cases stepped
      exact sound.removeEndpoint instanceId
  | connect addr =>
      simp only [Presence.step] at stepped
      split at stepped
      · rename_i queue found
        cases stepped
        have consistent := sound.consistent addr
        exact sound.set found ((sound.linked addr _ found).accept consistent) consistent.accept
      · cases stepped
  | write addr =>
      simp only [Presence.step] at stepped
      split at stepped
      · rename_i queue written found
        cases stepped
        exact sound.set found (sound.linked addr _ found).write (sound.consistent addr)
      · cases stepped
  | loseEvent addr =>
      simp only [Presence.step] at stepped
      split at stepped
      · rename_i queue written found
        cases stepped
        have linked := sound.linked addr _ found
        have order : written ++ queue = (written ++ queue.take 1) ++ queue.tail := by
          rw [List.append_assoc, ← List.drop_one, List.take_append_drop]
        exact sound.set found (linked.endStream order
          (fun id member => linked.plain id (List.mem_of_mem_tail member)) (keeps _ found))
          ((sound.consistent addr).endStream (linked.up written rfl).1)
      · cases stepped
  | breakStream addr =>
      simp only [Presence.step] at stepped
      split at stepped
      · rename_i queue written found
        cases stepped
        have linked := sound.linked addr _ found
        exact sound.set found (linked.endStream rfl linked.plain (keeps _ found))
          ((sound.consistent addr).endStream (linked.up written rfl).1)
      · cases stepped
  | process addr =>
      simp only [Presence.step] at stepped
      split at stepped
      · rename_i queue event rest found
        cases stepped
        have linked := sound.linked addr _ found
        have consistent := sound.consistent addr
        obtain ⟨reads, apart⟩ := linked.up _ rfl
        exact sound.set found (linked.process consistent) (consistent.receive reads apart)
      · cases stepped
  | receiveEnded addr stream =>
      simp only [Presence.step] at stepped
      split at stepped
      · rename_i event left found
        cases stepped
        have consistent := sound.consistent addr
        exact sound.setLogic (fun client known => (sound.linked addr client known).receiveEnded consistent found
          (keeps client known event left found)) (consistent.receiveEnded found)
      · cases stepped
  | finish addr stream =>
      simp only [Presence.step] at stepped
      split at stepped
      · rename_i left found
        cases stepped
        have consistent := sound.consistent addr
        exact sound.setLogic (fun client known => (sound.linked addr client known).finish consistent found
          (keeps client known)) consistent.finish
      · cases stepped

/-- In every run whose steps keep presence, every settled state mirrors the
open sessions at every logic instance of the pool. -/
theorem mirrored_of_keepsPresence (gatewayId : String) (events : List Event)
    (met : (machine gatewayId).Meets KeepsPresence {} events) :
    (machine gatewayId).Always Mirrored {} events := by
  have sound : (machine gatewayId).Always (Sound gatewayId) {} events := by
    apply Machine.always_of_meets (Sound gatewayId) sound_init _ met
    intro state event next sound keeps stepped
    exact sound.step keeps stepped
  exact sound.mono fun _ => Sound.mirrored

private def logicA : Endpoint := { instanceId := "logic-a", service := "logic", addr := "a:1" }

/-- The logic instance was there before the session opened.  Its stream breaks
while the open is still queued, and the handler of that stream returns before
the open has been read. -/
theorem queued_open_is_mirrored : (machine "gw").Always Mirrored {}
    [.addEndpoint logicA "", .connect "a:1", .process "a:1", .connOpen 7, .breakStream "a:1",
      .connect "a:1", .write "a:1", .process "a:1", .finish "a:1" 1, .process "a:1"] := by
  refine mirrored_of_keepsPresence "gw" _ ?_
  refine .cons rfl (.inr fun _ => .inr rfl) (.cons rfl trivial (.cons rfl trivial (.cons rfl trivial
    (.cons rfl ?_ (.cons rfl trivial (.cons rfl trivial (.cons rfl trivial
      (.cons rfl ?_ (.cons rfl trivial trivial)))))))))
  · intro client found uid
    cases found
    by_cases opened : uid = 7
    · exact .inl ⟨.connOpen 7, List.mem_cons_self, by rw [opened]; rfl⟩
    · refine .inr (decide_eq_false fun member => ?_).symm
      exact opened ((Finset.mem_insert.mp member).resolve_right (Finset.notMem_empty uid))
  · intro client found _ _ _ uid member
    cases found
    cases (Finset.mem_insert.mp member).resolve_right (Finset.notMem_empty uid)
    exact List.mem_cons_self

/-- A logic instance that is added while a session is open does not hear of it.
One that has heard of it drops it when the handler of the earlier stream
returns. -/
theorem late_logic_misses_session :
    (¬ (machine "gw").Always Mirrored {} [.connOpen 7, .addEndpoint logicA "", .connect "a:1", .process "a:1"]) ∧
      ¬ (machine "gw").Always Mirrored {}
        [.addEndpoint logicA "", .connect "a:1", .process "a:1", .connOpen 7, .breakStream "a:1",
          .connect "a:1", .write "a:1", .process "a:1", .process "a:1", .finish "a:1" 1] := by
  have settled {state : State}
      (entries : state.clients.entries = [(⟨"a:1", ⟨[], some []⟩⟩ : Sigma fun _ : String => LogicClient)]) :
      Settled state := by
    intro addr client found
    have listed := AList.mem_lookup_iff.mp found
    rw [entries] at listed
    cases List.mem_singleton.mp listed
    exact ⟨rfl, rfl⟩
  constructor
  · intro added
    have mirrored := (added.atEnd rfl) (settled rfl) "a:1" (by decide) 7
    revert mirrored
    decide
  · intro returned
    have mirrored := (returned.atEnd rfl) (settled rfl) "a:1" (by decide) 7
    revert mirrored
    decide

end MuduoIm.Gateway.Presence
