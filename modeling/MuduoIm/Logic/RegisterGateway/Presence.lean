import MuduoIm.Logic.RegisterGateway

namespace MuduoIm.Logic.RegisterGateway.Presence

open MuduoIm.Data MuduoIm.Transition

/-! # Connections of users at several gateways

Each gateway has registered once, under an id of its own, and its stream stays
up.  The table keeps one gateway for each user, whatever number of connections
the user has.
-/

structure Connection where
  stream : Nat
  uid : Int
  isOpen : Bool := true
deriving DecidableEq, Repr

def Connection.close (connection : Connection) : Connection := { connection with isOpen := false }

structure State where
  server : Server := {}
  connections : Table Nat Connection := ∅

namespace State

variable (state : State)

/-- A gateway is known by its stream. -/
def registerGateway (stream : Nat) (gatewayId : String) : State :=
  { state with server := (state.server.call stream).receive stream {} (.hello gatewayId) }

def openConnection (number stream : Nat) (uid : Int) (handler : Handler) : State where
  server := state.server.receive stream handler (.connOpen uid)
  connections := state.connections.insert number { stream, uid }

def closeConnection (number : Nat) (connection : Connection) (handler : Handler) : State where
  server := state.server.receive connection.stream handler (.connClose connection.uid)
  connections := state.connections.insert number connection.close

/-- The connection is open and belongs to this user. -/
def isOpenOf (number : Nat) (uid : Int) (stream : Nat) : Prop :=
  state.connections.lookup number = some { stream, uid }

end State

/-- The number of a connection is used once. -/
inductive Event where
  | register (stream : Nat) (gatewayId : String)
  | connOpen (number stream : Nat) (uid : Int)
  | connClose (number : Nat)
deriving DecidableEq, Repr

def step (state : State) : Event → Option State
  | .register stream gatewayId =>
      match state.server.handlers.lookup stream, state.server.registry.gateways.lookup gatewayId with
      | none, none => some (state.registerGateway stream gatewayId)
      | _, _ => none
  | .connOpen number stream uid =>
      match state.connections.lookup number, state.server.running stream with
      | none, some handler => some (state.openConnection number stream uid handler)
      | _, _ => none
  | .connClose number =>
      match state.connections.lookup number with
      | none => none
      | some connection =>
          match state.server.running connection.stream with
          | none => none
          | some handler =>
              if connection.isOpen then some (state.closeConnection number connection handler) else none

def machine : Machine State Event := ⟨step⟩

/-- A push to a user with an open connection is written to a gateway that holds
one, and a push to any other user fails without a write. -/
structure Reaches (state : State) : Prop where
  online : ∀ uid number stream, state.isOpenOf number uid stream →
    ∃ other holder, state.isOpenOf other uid holder ∧ ∀ write payload,
      state.server.registry.pushToUser write uid payload =
        (write holder, some { stream := holder, uid, payload })
  offline : ∀ uid, (∀ number stream, ¬ state.isOpenOf number uid stream) → ∀ write payload,
    state.server.registry.pushToUser write uid payload = (false, none)

/-- A connection closes only while the table maps its user to another gateway,
or as the last open one of its user. -/
def ClosesUnmappedOrLast (state : State) : Event → Prop
  | .register _ _ => True
  | .connOpen _ _ _ => True
  | .connClose number =>
      ∀ uid stream handler, state.isOpenOf number uid stream →
        state.server.running stream = some handler →
        state.server.registry.userToGateway.lookup uid ≠ some handler.gatewayId ∨
          ∀ other holder, state.isOpenOf other uid holder → other = number

/-! ## The invariant of the registered gateways -/

/-- The gateways stored are those whose handlers run, each under its own id; the
table maps to stored gateways only; and every connection is at one of them. -/
structure Sound (state : State) : Prop where
  stored : ∀ id stream, state.server.registry.gateways.lookup id = some stream ↔
    ∃ handler, state.server.running stream = some handler ∧ handler.gatewayId = id
  mapped : ∀ uid id, state.server.registry.userToGateway.lookup uid = some id →
    ∃ stream, state.server.registry.gateways.lookup id = some stream
  connected : ∀ number connection, state.connections.lookup number = some connection →
    (state.server.running connection.stream).isSome

theorem sound_init : Sound {} where
  stored := by
    intro id stream
    constructor
    · intro held
      cases held
    · intro given
      obtain ⟨handler, running, _⟩ := given
      cases running
  mapped := by simp
  connected := by simp

variable {state next : State} {event : Event} {number other stream : Nat} {uid user : Int}
variable {connection : Connection} {handler : Handler} {gatewayId id : String}

theorem running_register : (state.registerGateway stream gatewayId).server.running other =
    if other = stream then some { gatewayId } else state.server.running other := by
  rw [State.registerGateway, Server.receive, running_insert]
  by_cases same : other = stream
  · rw [if_pos same, if_pos same]
    rfl
  · simp only [if_neg same, Server.call, Server.running, Table.lookup_insert_ite]

theorem Sound.register (sound : Sound state) (new : state.server.handlers.lookup stream = none)
    (free : state.server.registry.gateways.lookup gatewayId = none) :
    Sound (state.registerGateway stream gatewayId) := by
  have unknown : state.server.running stream = none := by rw [Server.running, new, Option.filter_none]
  have stored : ∀ id, (state.registerGateway stream gatewayId).server.registry.gateways.lookup id =
      if id = gatewayId then some stream else state.server.registry.gateways.lookup id :=
    fun _ => GatewayRegistry.gateways_registerGateway
  refine { stored := ?_, mapped := ?_, connected := ?_ }
  · intro id holder
    rw [stored, running_register]
    by_cases own : holder = stream
    · have before := sound.stored id stream
      rw [unknown] at before
      rw [if_pos own, own]
      by_cases same : id = gatewayId
      · simp [same]
      · simpa [same, Ne.symm same] using before
    · rw [if_neg own, ← sound.stored]
      by_cases same : id = gatewayId
      · rw [if_pos same, same, free]
        simp [Ne.symm own]
      · rw [if_neg same]
  · intro uid id found
    obtain ⟨holder, held⟩ := sound.mapped uid id found
    rw [stored]
    by_cases same : id = gatewayId
    · exact ⟨stream, if_pos same⟩
    · exact ⟨holder, by rw [if_neg same, held]⟩
  · intro number connection found
    have before := sound.connected number connection found
    rw [running_register]
    split
    · rfl
    · exact before

theorem Sound.openConnection (sound : Sound state) (number : Nat) (uid : Int)
    (running : state.server.running stream = some handler) :
    Sound (state.openConnection number stream uid handler) where
  stored := sound.stored
  mapped := by
    intro user id found
    simp only [State.openConnection, Server.receive, GatewayRegistry.userToGateway_onUserOpen] at found
    split at found
    · cases found
      exact ⟨stream, (sound.stored _ _).mpr ⟨handler, running, rfl⟩⟩
    · exact sound.mapped user id found
  connected := by
    intro other connection found
    simp only [State.openConnection, Table.lookup_insert_ite] at found
    split at found
    · cases found
      exact Option.isSome_iff_exists.mpr ⟨handler, running⟩
    · exact sound.connected other connection found

theorem Sound.closeConnection (sound : Sound state)
    (found : state.connections.lookup number = some connection) :
    Sound (state.closeConnection number connection handler) where
  stored := by
    intro id stream
    simp only [State.closeConnection, Server.receive, GatewayRegistry.gateways_onUserClose]
    exact sound.stored id stream
  mapped := by
    intro user id mapped
    simp only [State.closeConnection, Server.receive, GatewayRegistry.userToGateway_onUserClose,
      GatewayRegistry.gateways_onUserClose] at mapped ⊢
    split at mapped
    · cases mapped
    · exact sound.mapped user id mapped
  connected := by
    intro other closed listed
    simp only [State.closeConnection, Table.lookup_insert_ite] at listed
    split at listed
    · cases listed
      exact sound.connected number connection found
    · exact sound.connected other closed listed

theorem step_cases (stepped : machine.step state event = some next) :
    (∃ stream gatewayId, event = .register stream gatewayId ∧
      state.server.handlers.lookup stream = none ∧
      state.server.registry.gateways.lookup gatewayId = none ∧
      next = state.registerGateway stream gatewayId) ∨
    (∃ number stream uid handler, event = .connOpen number stream uid ∧
      state.connections.lookup number = none ∧ state.server.running stream = some handler ∧
      next = state.openConnection number stream uid handler) ∨
    ∃ number connection handler, event = .connClose number ∧
      state.connections.lookup number = some connection ∧
      state.server.running connection.stream = some handler ∧ connection.isOpen = true ∧
      next = state.closeConnection number connection handler := by
  change step state event = some next at stepped
  cases event with
  | register stream gatewayId =>
      simp only [step] at stepped
      split at stepped
      · rename_i new free
        cases stepped
        exact .inl ⟨stream, gatewayId, rfl, new, free, rfl⟩
      · cases stepped
  | connOpen number stream uid =>
      simp only [step] at stepped
      split at stepped
      · rename_i handler new running
        cases stepped
        exact .inr (.inl ⟨number, stream, uid, handler, rfl, new, running, rfl⟩)
      · cases stepped
  | connClose number =>
      simp only [step] at stepped
      split at stepped
      · cases stepped
      · rename_i connection found
        split at stepped
        · cases stepped
        · rename_i handler running
          split at stepped
          · rename_i isOpen
            cases stepped
            exact .inr (.inr ⟨number, connection, handler, rfl, found, running, isOpen, rfl⟩)
          · cases stepped

theorem Sound.step (sound : Sound state) (stepped : machine.step state event = some next) :
    Sound next := by
  rcases step_cases stepped with ⟨stream, gatewayId, rfl, new, free, rfl⟩ |
    ⟨number, stream, uid, handler, rfl, _, running, rfl⟩ |
    ⟨number, connection, handler, rfl, found, _, _, rfl⟩
  · exact sound.register new free
  · exact sound.openConnection number uid running
  · exact sound.closeConnection found

/-! ## Where pushes go -/

/-- What a push needs, said of the two maps. -/
theorem reaches_iff : Reaches state ↔
    (∀ uid number stream, state.isOpenOf number uid stream → ∃ other holder,
      state.isOpenOf other uid holder ∧ state.server.registry.streamOf uid = some holder) ∧
    ∀ uid, (∀ number stream, ¬ state.isOpenOf number uid stream) →
      state.server.registry.streamOf uid = none := by
  constructor
  · intro reaches
    constructor
    · intro uid number stream held
      obtain ⟨other, holder, holds, pushed⟩ := reaches.online uid number stream held
      refine ⟨other, holder, holds, ?_⟩
      have written := pushed (fun _ => true) ""
      rw [GatewayRegistry.pushToUser_eq] at written
      split at written
      · cases written
      · rename_i found
        rw [found, (Push.mk.inj (Option.some.inj (Prod.mk.inj written).2)).1]
    · intro uid none
      have silent := reaches.offline uid none (fun _ => true) ""
      rw [GatewayRegistry.pushToUser_eq] at silent
      split at silent
      · assumption
      · cases silent
  · intro given
    obtain ⟨online, offline⟩ := given
    constructor
    · intro uid number stream held
      obtain ⟨other, holder, holds, found⟩ := online uid number stream held
      exact ⟨other, holder, holds, fun _ _ => by rw [GatewayRegistry.pushToUser_eq, found]⟩
    · intro uid none write payload
      rw [GatewayRegistry.pushToUser_eq, offline uid none]

theorem reaches_register (reaches : Reaches state) (sound : Sound state)
    (free : state.server.registry.gateways.lookup gatewayId = none) :
    Reaches (state.registerGateway stream gatewayId) := by
  have same (uid : Int) : (state.registerGateway stream gatewayId).server.registry.streamOf uid =
      state.server.registry.streamOf uid := by
    simp only [GatewayRegistry.streamOf, State.registerGateway, Server.receive, Server.call,
      GatewayRegistry.userToGateway_registerGateway]
    cases found : state.server.registry.userToGateway.lookup uid with
    | none => rfl
    | some id =>
        obtain ⟨holder, held⟩ := sound.mapped uid id found
        have different : id ≠ gatewayId := by
          rintro rfl
          rw [free] at held
          cases held
        simp only [Option.bind_some, GatewayRegistry.gateways_registerGateway, if_neg different]
  obtain ⟨online, offline⟩ := reaches_iff.mp reaches
  refine reaches_iff.mpr ⟨fun uid number holder held => ?_, fun uid none => ?_⟩
  · rw [same]
    exact online uid number holder held
  · rw [same]
    exact offline uid none

theorem isOpenOf_open (new : state.connections.lookup number = none) {holder : Nat} :
    (state.openConnection number stream uid handler).isOpenOf other user holder ↔
      (other = number ∧ user = uid ∧ holder = stream) ∨ state.isOpenOf other user holder := by
  simp only [State.isOpenOf, State.openConnection, Table.lookup_insert_ite]
  by_cases own : other = number
  · rw [if_pos own, own, new]
    simp [eq_comm, and_comm]
  · simp [own]

theorem streamOf_open (sound : Sound state) (running : state.server.running stream = some handler) :
    (state.openConnection number stream uid handler).server.registry.streamOf user =
      if user = uid then some stream else state.server.registry.streamOf user := by
  simp only [GatewayRegistry.streamOf, State.openConnection, Server.receive,
    GatewayRegistry.userToGateway_onUserOpen, GatewayRegistry.gateways_onUserOpen]
  split
  · rw [Option.bind_some]
    exact (sound.stored _ _).mpr ⟨handler, running, rfl⟩
  · rfl

theorem reaches_open (reaches : Reaches state) (sound : Sound state)
    (new : state.connections.lookup number = none) (running : state.server.running stream = some handler) :
    Reaches (state.openConnection number stream uid handler) := by
  obtain ⟨online, offline⟩ := reaches_iff.mp reaches
  refine reaches_iff.mpr ⟨fun user other holder held => ?_, fun user none => ?_⟩
  · rw [streamOf_open sound running]
    by_cases own : user = uid
    · exact ⟨number, stream, (isOpenOf_open new).mpr (.inl ⟨rfl, own, rfl⟩), if_pos own⟩
    · rcases (isOpenOf_open new).mp held with ⟨_, same, _⟩ | before
      · exact absurd same own
      · obtain ⟨reached, gateway, holds, written⟩ := online user other holder before
        exact ⟨reached, gateway, (isOpenOf_open new).mpr (.inr holds), by rw [if_neg own, written]⟩
  · have different : user ≠ uid := by
      intro same
      exact none number stream ((isOpenOf_open new).mpr (.inl ⟨rfl, same, rfl⟩))
    rw [streamOf_open sound running, if_neg different]
    exact offline user fun other holder held => none other holder ((isOpenOf_open new).mpr (.inr held))

theorem isOpenOf_close {holder : Nat} :
    (state.closeConnection number connection handler).isOpenOf other user holder ↔
      other ≠ number ∧ state.isOpenOf other user holder := by
  simp only [State.isOpenOf, State.closeConnection, Table.lookup_insert_ite]
  by_cases own : other = number
  · simp [own, Connection.close]
  · simp [own]

theorem streamOf_close :
    (state.closeConnection number connection handler).server.registry.streamOf user =
      if user = connection.uid ∧
          state.server.registry.userToGateway.lookup connection.uid = some handler.gatewayId then none
      else state.server.registry.streamOf user := by
  simp only [GatewayRegistry.streamOf, State.closeConnection, Server.receive,
    GatewayRegistry.userToGateway_onUserClose, GatewayRegistry.gateways_onUserClose]
  split
  · rfl
  · rfl

/-- A gateway that the table does not map the user to is not written to. -/
theorem ne_of_streamOf (sound : Sound state) (running : state.server.running stream = some handler)
    (unmapped : state.server.registry.userToGateway.lookup uid ≠ some handler.gatewayId)
    {holder : Nat} (written : state.server.registry.streamOf uid = some holder) : holder ≠ stream := by
  rintro rfl
  obtain ⟨id, mapped, held⟩ := Option.bind_eq_some_iff.mp written
  obtain ⟨known, alive, named⟩ := (sound.stored id holder).mp held
  cases running.symm.trans alive
  exact unmapped (by rw [mapped, named])

theorem reaches_close_iff (reaches : Reaches state) (sound : Sound state)
    (found : state.connections.lookup number = some connection) (isOpen : connection.isOpen = true)
    (running : state.server.running connection.stream = some handler) :
    Reaches (state.closeConnection number connection handler) ↔
      ClosesUnmappedOrLast state (.connClose number) := by
  have entry : state.isOpenOf number connection.uid connection.stream := by
    rw [State.isOpenOf, found, ← isOpen]
  obtain ⟨online, offline⟩ := reaches_iff.mp reaches
  constructor
  · intro kept uid stream known held alive
    cases Option.some.inj (found.symm.trans held)
    cases running.symm.trans alive
    by_contra breaks
    simp only [not_or, not_forall, not_not] at breaks
    obtain ⟨mapped, other, holder, holds, different⟩ := breaks
    obtain ⟨_, gateway, _, written⟩ :=
      (reaches_iff.mp kept).1 uid other holder (isOpenOf_close.mpr ⟨different, holds⟩)
    rw [streamOf_close, if_pos ⟨rfl, mapped⟩] at written
    cases written
  · intro safe
    refine reaches_iff.mpr ⟨fun user other holder held => ?_, fun user none => ?_⟩
    · obtain ⟨different, before⟩ := isOpenOf_close.mp held
      obtain ⟨reached, gateway, holds, written⟩ := online user other holder before
      have kept : ¬ (user = connection.uid ∧
          state.server.registry.userToGateway.lookup connection.uid = some handler.gatewayId) := by
        intro given
        obtain ⟨rfl, mapped⟩ := given
        rcases safe _ _ handler entry running with unmapped | last
        · exact unmapped mapped
        · exact different (last other holder before)
      refine ⟨reached, gateway, isOpenOf_close.mpr ⟨?_, holds⟩, by rw [streamOf_close, if_neg kept, written]⟩
      -- the connection written to is not the one that closes
      rintro rfl
      cases Option.some.inj (found.symm.trans holds)
      rcases safe _ _ handler entry running with unmapped | last
      · exact ne_of_streamOf sound running unmapped written rfl
      · exact different (last other holder before)
    · rw [streamOf_close]
      split
      · rfl
      · rename_i remains
        apply offline user
        intro other holder before
        by_cases same : other = number
        · rw [same] at before
          cases Option.some.inj (found.symm.trans before)
          obtain ⟨reached, gateway, holds, written⟩ := online user number holder before
          have unmapped : state.server.registry.userToGateway.lookup user ≠ some handler.gatewayId :=
            fun mapped => remains ⟨rfl, mapped⟩
          have elsewhere : reached ≠ number := by
            rintro rfl
            cases Option.some.inj (found.symm.trans holds)
            exact ne_of_streamOf sound running unmapped written rfl
          exact none reached gateway (isOpenOf_close.mpr ⟨elsewhere, holds⟩)
        · exact none other holder (isOpenOf_close.mpr ⟨same, before⟩)

/-- In a run every push reaches its user exactly if every connection that
closes is the last one of its user, or the table maps the user elsewhere. -/
theorem reaches_online_iff (events : List Event) :
    machine.Always Reaches {} events ↔ machine.Meets ClosesUnmappedOrLast {} events := by
  apply Machine.always_iff_meets Sound
  · refine reaches_iff.mpr ⟨fun uid number stream held => ?_, fun _ _ => rfl⟩
    cases held
  · exact sound_init
  · intro _ _ _ sound stepped
    exact sound.step stepped
  intro state event next sound reaches stepped
  rcases step_cases stepped with ⟨stream, gatewayId, rfl, new, free, rfl⟩ |
    ⟨number, stream, uid, handler, rfl, new, running, rfl⟩ |
    ⟨number, connection, handler, rfl, found, running, isOpen, rfl⟩
  · exact iff_of_true (reaches_register reaches sound free) trivial
  · exact iff_of_true (reaches_open reaches sound new running) trivial
  · exact reaches_close_iff reaches sound found isOpen running

/-- One of two devices at the same gateway closes. -/
theorem second_device_unreachable :
    ¬ ∀ events, machine.Always Reaches {} events := by
  intro always
  have closed := always [.register 1 "gw", .connOpen 1 1 7, .connOpen 2 1 7, .connClose 1]
  obtain ⟨_, holder, _, written⟩ := (reaches_iff.mp (closed.atEnd rfl)).1 7 2 1 rfl
  change none = some holder at written
  cases written

end MuduoIm.Logic.RegisterGateway.Presence
