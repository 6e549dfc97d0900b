import MuduoIm.Gateway.LogicClientPool
import MuduoIm.Registry.WatchReplay

namespace MuduoIm.Gateway.WatchMirror

open MuduoIm.Data MuduoIm.Transition MuduoIm.Registry

/-! # The pool against the registry

The gateway lists the logic endpoints once and then watches them, over one
stream after another.  What happens in the registry before a stream is opened
reaches the gateway only through the snapshot that the stream begins with, and
a snapshot has no removals.
-/

/-- `listed` holds the answer to the List of `bootstrap`. -/
inductive Phase where
  | starting
  | listed (eps : List Endpoint)
  | disconnected
  | watching (stream : Nat)
deriving DecidableEq, Repr

/-- `opened` counts the streams; it names the next one. -/
structure State where
  registry : Service := {}
  pool : LogicClientPool := {}
  phase : Phase := .starting
  opened : Nat := 0

/-- `read` takes the next event off the stream and handles it; events that are
on their way when a stream breaks count as still queued. -/
inductive Event where
  | registry (event : Registry.Event)
  | list
  | listFailed
  | bootstrap
  | openWatch
  | read
  | breakWatch
deriving DecidableEq, Repr

/-- The event that the stream delivers next. -/
def nextEvent (registry : Service) (stream : Nat) : Option WatchEvent :=
  (registry.watchers.find? (fun watcher => watcher.stream = stream)).bind
    (fun watcher => watcher.queue.head?)

def step (state : State) : Event → Option State
  | .registry event =>
      match event with
      -- the streams are opened, read and closed by the gateway
      | .watch .. => none
      | .write .. => none
      | .unwatch .. => none
      | event => some { state with registry := state.registry.after event }
  | .list =>
      match state.phase with
      | .starting => some { state with phase := .listed (state.registry.list "logic") }
      | _ => none
  | .listFailed =>
      match state.phase with
      | .starting => some { state with phase := .disconnected }
      | .listed _ => some { state with phase := .disconnected }
      | _ => none
  | .bootstrap =>
      match state.phase with
      | .listed eps => some { state with
          pool := eps.foldl (fun pool ep => pool.addEndpoint ep "") state.pool
          phase := .disconnected }
      | _ => none
  | .openWatch =>
      match state.phase with
      | .disconnected => some { state with
          registry := state.registry.watch state.opened "logic"
          phase := .watching state.opened
          opened := state.opened + 1 }
      | _ => none
  | .read =>
      match state.phase with
      | .watching stream =>
          (nextEvent state.registry stream).map fun event => { state with
            registry := state.registry.write stream
            pool := state.pool.handleEvent event }
      | _ => none
  | .breakWatch =>
      match state.phase with
      | .watching stream => some { state with
          registry := state.registry.unwatch stream
          phase := .disconnected }
      | _ => none

def machine : Machine State Event := ⟨step⟩

/-- While a stream is open and nothing is queued for it, the clients are for
the addresses that the registry has for `logic`. -/
def Mirrored (state : State) : Prop :=
  ∀ watcher ∈ state.registry.watchers, state.phase = .watching watcher.stream →
    watcher.queue = [] → ∀ addr, addr ∈ state.pool.clients ↔
      ∃ ep ∈ state.registry.list "logic", ep.addr = addr

/-- The endpoint is known to the pool under its address, or both its instance
and its address are new to it. -/
def Enters (pool : LogicClientPool) (ep : Endpoint) : Prop :=
  pool.instanceToAddr.lookup ep.instanceId = some ep.addr ∨
    pool.instanceToAddr.lookup ep.instanceId = none ∧ ep.addr ∉ pool.clients

/-- No step takes the pool where it loses track: a Register leaves no watched
service, the endpoints of the first List have different addresses, every
instance that the pool knows is still registered when a stream is opened, and
every endpoint that is added is known under its address or altogether new. -/
def KeepsTrack (state : State) : Event → Prop
  | .registry event => KeepsService state.registry event
  | .bootstrap => ∀ eps, state.phase = .listed eps → (eps.map Endpoint.addr).Nodup
  | .openWatch => ∀ id, id ∈ state.pool.instanceToAddr →
      ∃ ep ∈ state.registry.list "logic", ep.instanceId = id
  | .read => ∀ stream event, state.phase = .watching stream →
      nextEvent state.registry stream = some event → event.type ≠ .removed →
        Enters state.pool event.ep
  | _ => True

/-! ## Addresses along the events of a stream -/

def applyKnown (known : Addresses) (event : WatchEvent) : Addresses :=
  Function.update known event.ep.instanceId
    (match event.type with
      | .removed => none
      | _ => some event.ep.addr)

variable {known : Addresses} {watcher : Watcher} {event : WatchEvent} {pool : LogicClientPool}

theorem applyKnown_of_ne {id : String} (different : id ≠ event.ep.instanceId) :
    applyKnown known event id = known id :=
  Function.update_of_ne different _ _

/-- Replaying to endpoints and forgetting all but the addresses comes to the
same. -/
theorem applyKnown_replay (events : List WatchEvent) (table : Table String Endpoint) :
    events.foldl applyKnown (fun id => (table.lookup id).map Endpoint.addr) =
      fun id => ((events.foldl apply table).lookup id).map Endpoint.addr := by
  induction events generalizing table with
  | nil => rfl
  | cons event rest ih =>
      have head : applyKnown (fun id => (table.lookup id).map Endpoint.addr) event =
          fun id => ((apply table event).lookup id).map Endpoint.addr := by
        funext id
        simp only [applyKnown, apply, Function.update_apply]
        cases event.type <;> simp only [Table.lookup_erase_ite, Table.lookup_insert_ite] <;>
          split <;> rfl
      rw [List.foldl_cons, List.foldl_cons, head, ih]

/-- What was known of an instance before does not matter once an event is
about it. -/
theorem applyKnown_congr {events : List WatchEvent} {other : Addresses} {id : String}
    (agree : known id = other id ∨ ∃ event ∈ events, event.ep.instanceId = id) :
    events.foldl applyKnown known id = events.foldl applyKnown other id := by
  induction events generalizing known other with
  | nil =>
      rcases agree with same | ⟨event, member, _⟩
      · exact same
      · simp at member
  | cons event rest ih =>
      refine ih ?_
      by_cases about : id = event.ep.instanceId
      · left
        subst about
        simp only [applyKnown, Function.update_self]
      · rw [applyKnown_of_ne about, applyKnown_of_ne about]
        rcases agree with same | ⟨found, member, named⟩
        · exact .inl same
        · rcases List.mem_cons.mp member with rfl | later
          · exact absurd named.symm about
          · exact .inr ⟨found, later, named⟩

/-- The events still queued lead from what the pool knows to what the whole
stream says. -/
def Tracks (known : Addresses) (watcher : Watcher) : Prop :=
  watcher.queue.foldl applyKnown known =
    fun id => ((replay watcher.events).lookup id).map Endpoint.addr

theorem Tracks.push (tracks : Tracks known watcher) : Tracks known (watcher.push event) := by
  simp only [Tracks, push_events]
  by_cases told : passes watcher.service event.ep = true
  · have queued : (watcher.push event).queue = watcher.queue ++ [event] := by
      simp only [Watcher.push, told, if_true]
    have step := applyKnown_replay [event] (replay watcher.events)
    rw [if_pos told, queued, replay_append, List.foldl_append, show
      watcher.queue.foldl applyKnown known = _ from tracks]
    exact step
  · have unchanged : watcher.push event = watcher := by
      simp only [Watcher.push, told, Bool.false_eq_true, if_false]
    rw [if_neg told, unchanged]
    exact tracks

theorem tracks_broadcast {service : Service} {type : EventType} {ep : Endpoint}
    (tracks : ∀ watcher ∈ service.watchers, Tracks known watcher) :
    ∀ watcher ∈ (service.broadcastEvent type ep).watchers, Tracks known watcher := by
  intro pushed member
  obtain ⟨watcher, listed, rfl⟩ := List.mem_map.mp member
  exact (tracks watcher listed).push

theorem represents_handleEvent (represents : Represents pool known)
    (enters : event.type ≠ .removed → Enters pool event.ep) :
    Represents (pool.handleEvent event) (applyKnown known event) := by
  have added (kind : event.type ≠ .removed) :
      Represents (pool.addEndpoint event.ep "")
        (Function.update known event.ep.instanceId (some event.ep.addr)) := by
    rcases enters kind with same | ⟨new, free⟩
    · rw [represents.indexed] at same
      exact represents.add_known "" same
    · rw [represents.indexed] at new
      rw [represents.clients] at free
      exact represents.add "" new (fun id held => free ⟨id, held⟩)
  simp only [LogicClientPool.handleEvent, applyKnown]
  cases kind : event.type with
  | removed => exact represents.remove _
  | added => exact added (by rw [kind]; nofun)
  | updated => exact added (by rw [kind]; nofun)

/-! ## One step -/

/-- What holds in every run that keeps track. -/
structure Coupled (state : State) : Prop where
  keyed : Keyed state.registry
  mirrors : Mirrors state.registry
  known : ∃ known, Represents state.pool known ∧
    ∀ watcher ∈ state.registry.watchers, Tracks known watcher
  -- the only watcher is the gateway's
  watchers : state.registry.watchers.map (fun watcher => (watcher.stream, watcher.service)) =
    match state.phase with
    | .watching stream => [(stream, "logic")]
    | _ => []
  listed : ∀ eps, state.phase = .listed eps → (eps.map Endpoint.instanceId).Nodup
  blank : (state.phase = .starting ∨ ∃ eps, state.phase = .listed eps) → state.pool = {}

theorem coupled_init : Coupled {} where
  keyed := by simp [Keyed]
  mirrors := by simp [Mirrors]
  known := ⟨_, represents_init, by simp⟩
  watchers := rfl
  listed := nofun
  blank := fun _ => rfl

variable {state next : State}

/-- Without a stream of its own the gateway has no watcher. -/
theorem Coupled.unwatched (coupled : Coupled state)
    (closed : ∀ stream, state.phase ≠ .watching stream) : state.registry.watchers = [] := by
  have shape := coupled.watchers
  split at shape
  · rename_i stream phase
    exact absurd phase (closed stream)
  · exact List.map_eq_nil_iff.mp shape

theorem Coupled.onlyWatcher {stream : Nat} (coupled : Coupled state)
    (phase : state.phase = .watching stream) :
    ∃ watcher, state.registry.watchers = [watcher] ∧ watcher.stream = stream ∧
      watcher.service = "logic" := by
  have shape := coupled.watchers
  rw [phase] at shape
  obtain ⟨watcher, single, names⟩ := List.map_eq_singleton_iff.mp shape
  obtain ⟨named, service⟩ := Prod.mk.inj names
  exact ⟨watcher, single, named, service⟩

theorem Coupled.mirrored (coupled : Coupled state) : Mirrored state := by
  intro watcher listed watching processed addr
  obtain ⟨known, represents, tracks⟩ := coupled.known
  have current : known = fun id => ((replay watcher.events).lookup id).map Endpoint.addr := by
    have tracked := tracks watcher listed
    rwa [Tracks, processed, List.foldl_nil] at tracked
  obtain ⟨only, single, _, service⟩ := coupled.onlyWatcher watching
  have same : watcher = only := List.mem_singleton.mp (single ▸ listed)
  have replayed := coupled.keyed.replaysList_iff.mpr coupled.mirrors watcher listed
  rw [same, service, ← same] at replayed
  rw [represents.clients, current]
  simp only [Option.map_eq_some_iff]
  constructor
  · intro given
    obtain ⟨id, ep, found, named⟩ := given
    exact ⟨ep, ((replayed id ep).mp found).1, named⟩
  · intro given
    obtain ⟨ep, member, named⟩ := given
    exact ⟨ep.instanceId, ep, (replayed _ ep).mpr ⟨member, rfl⟩, named⟩

/-- The service and the stream of a watcher stay as they are. -/
theorem watchers_broadcast {service : Service} {type : EventType} {ep : Endpoint} :
    (service.broadcastEvent type ep).watchers.map (fun watcher => (watcher.stream, watcher.service)) =
      service.watchers.map (fun watcher => (watcher.stream, watcher.service)) := by
  simp only [Service.broadcastEvent, List.map_map]
  refine List.map_congr_left (fun watcher _ => ?_)
  simp only [Function.comp, Watcher.push]
  split <;> rfl

/-- What others do at the registry reaches the watchers as pushed events. -/
structure Told (before after : Service) : Prop where
  watchers : after.watchers.map (fun watcher => (watcher.stream, watcher.service)) =
    before.watchers.map (fun watcher => (watcher.stream, watcher.service))
  tracks : ∀ known, (∀ watcher ∈ before.watchers, Tracks known watcher) →
    ∀ watcher ∈ after.watchers, Tracks known watcher

theorem told_same {before after : Service} (same : after.watchers = before.watchers) :
    Told before after where
  watchers := by rw [same]
  tracks := by rw [same]; exact fun _ tracks => tracks

theorem told_removal {before service : Service} {id : String} (told : Told before service) :
    Told before (service.removeInstanceLocked id) := by
  cases found : service.endpoints.lookup id with
  | none =>
      rw [Service.removeInstanceLocked_absent found]
      exact told
  | some ep =>
      simp only [Service.removeInstanceLocked, found]
      exact {
        watchers := watchers_broadcast.trans told.watchers
        tracks := fun known tracks => tracks_broadcast (told.tracks known tracks) }

theorem told_after (service : Service) {event : Registry.Event}
    (others : (∀ stream filter, event ≠ .watch stream filter) ∧
      (∀ stream, event ≠ .write stream) ∧ ∀ stream, event ≠ .unwatch stream) :
    Told service (service.after event) := by
  cases event with
  | register ep now => exact ⟨watchers_broadcast, fun _ tracks => tracks_broadcast tracks⟩
  | deregister id => exact told_removal (told_same rfl)
  | keepAlive lease now =>
      refine told_same ?_
      simp only [Service.after, Service.keepAlive]
      split <;> rfl
  | gc now => exact Service.gc_of_removals (Told service) (told_same rfl) (fun _ _ told => told_removal told)
  | watch stream filter => exact absurd rfl (others.1 stream filter)
  | write stream => exact absurd rfl (others.2.1 stream)
  | unwatch stream => exact absurd rfl (others.2.2 stream)

theorem registry_eq_some {event : Registry.Event}
    (stepped : step state (.registry event) = some next) :
    ((∀ stream filter, event ≠ .watch stream filter) ∧
      (∀ stream, event ≠ .write stream) ∧ ∀ stream, event ≠ .unwatch stream) ∧
      next = { state with registry := state.registry.after event } := by
  cases event with
  | watch stream filter => contradiction
  | write stream => contradiction
  | unwatch stream => contradiction
  | register ep now => cases stepped; exact ⟨⟨nofun, nofun, nofun⟩, rfl⟩
  | deregister id => cases stepped; exact ⟨⟨nofun, nofun, nofun⟩, rfl⟩
  | keepAlive lease now => cases stepped; exact ⟨⟨nofun, nofun, nofun⟩, rfl⟩
  | gc now => cases stepped; exact ⟨⟨nofun, nofun, nofun⟩, rfl⟩

theorem list_eq_some (stepped : step state .list = some next) :
    state.phase = .starting ∧
      next = { state with phase := .listed (state.registry.list "logic") } := by
  simp only [step] at stepped
  split at stepped
  · rename_i phase
    cases stepped
    exact ⟨phase, rfl⟩
  · contradiction

theorem listFailed_eq_some (stepped : step state .listFailed = some next) :
    (state.phase = .starting ∨ ∃ eps, state.phase = .listed eps) ∧
      next = { state with phase := .disconnected } := by
  simp only [step] at stepped
  split at stepped
  · rename_i phase
    cases stepped
    exact ⟨.inl phase, rfl⟩
  · rename_i eps phase
    cases stepped
    exact ⟨.inr ⟨eps, phase⟩, rfl⟩
  · contradiction

theorem bootstrap_eq_some (stepped : step state .bootstrap = some next) :
    ∃ eps, state.phase = .listed eps ∧ next = { state with
      pool := eps.foldl (fun pool ep => pool.addEndpoint ep "") state.pool
      phase := .disconnected } := by
  simp only [step] at stepped
  split at stepped
  · rename_i eps phase
    cases stepped
    exact ⟨eps, phase, rfl⟩
  · contradiction

theorem openWatch_eq_some (stepped : step state .openWatch = some next) :
    state.phase = .disconnected ∧ next = { state with
      registry := state.registry.watch state.opened "logic"
      phase := .watching state.opened
      opened := state.opened + 1 } := by
  simp only [step] at stepped
  split at stepped
  · rename_i phase
    cases stepped
    exact ⟨phase, rfl⟩
  · contradiction

theorem read_eq_some (stepped : step state .read = some next) :
    ∃ stream event, state.phase = .watching stream ∧
      nextEvent state.registry stream = some event ∧ next = { state with
        registry := state.registry.write stream
        pool := state.pool.handleEvent event } := by
  simp only [step] at stepped
  split at stepped
  · rename_i stream phase
    obtain ⟨event, delivered, rfl⟩ := Option.map_eq_some_iff.mp stepped
    exact ⟨stream, event, phase, delivered, rfl⟩
  · contradiction

theorem breakWatch_eq_some (stepped : step state .breakWatch = some next) :
    ∃ stream, state.phase = .watching stream ∧ next = { state with
      registry := state.registry.unwatch stream
      phase := .disconnected } := by
  simp only [step] at stepped
  split at stepped
  · rename_i stream phase
    cases stepped
    exact ⟨stream, phase, rfl⟩
  · contradiction

theorem Coupled.registry {event : Registry.Event} (coupled : Coupled state)
    (keeps : KeepsService state.registry event)
    (stepped : step state (.registry event) = some next) : Coupled next := by
  obtain ⟨others, rfl⟩ := registry_eq_some stepped
  have told := told_after state.registry others
  obtain ⟨known, represents, tracks⟩ := coupled.known
  have mirrors : Mirrors (state.registry.after event) := by
    cases event with
    | register ep now => exact (mirrors_register_iff coupled.mirrors).mpr keeps
    | deregister id => exact coupled.mirrors.after coupled.keyed _ nofun
    | keepAlive lease now => exact coupled.mirrors.after coupled.keyed _ nofun
    | gc now => exact coupled.mirrors.after coupled.keyed _ nofun
    | watch stream filter => exact coupled.mirrors.after coupled.keyed _ nofun
    | write stream => exact coupled.mirrors.after coupled.keyed _ nofun
    | unwatch stream => exact coupled.mirrors.after coupled.keyed _ nofun
  exact { coupled with
    keyed := coupled.keyed.after event
    mirrors
    known := ⟨known, represents, told.tracks known tracks⟩
    watchers := told.watchers.trans coupled.watchers }

theorem Coupled.bootstrap {eps : List Endpoint} (coupled : Coupled state)
    (phase : state.phase = .listed eps) (addrs : (eps.map Endpoint.addr).Nodup) :
    Coupled { state with
      pool := eps.foldl (fun pool ep => pool.addEndpoint ep "") state.pool
      phase := .disconnected } := by
  have unwatched := coupled.unwatched (by simp [phase])
  have entered := represents_init.addAll (fun _ => "")
    (List.pairwise_map.mp (coupled.listed eps phase)) (List.pairwise_map.mp addrs)
    (fun _ _ => rfl) (fun _ _ _ => nofun)
  rw [coupled.blank (.inr ⟨eps, phase⟩)]
  exact { coupled with
    known := ⟨_, entered, by simp [unwatched]⟩
    watchers := by simp [unwatched]
    listed := nofun
    blank := by simp }

theorem Coupled.openWatch (coupled : Coupled state) (phase : state.phase = .disconnected)
    (registered : ∀ id, id ∈ state.pool.instanceToAddr →
      ∃ ep ∈ state.registry.list "logic", ep.instanceId = id) :
    Coupled { state with
      registry := state.registry.watch state.opened "logic"
      phase := .watching state.opened
      opened := state.opened + 1 } := by
  have unwatched := coupled.unwatched (by simp [phase])
  obtain ⟨known, represents, _⟩ := coupled.known
  refine { coupled with
    mirrors := coupled.mirrors.watch coupled.keyed state.opened "logic"
    known := ⟨known, represents, ?_⟩
    watchers := by simp [Service.watch, unwatched]
    listed := nofun
    blank := by simp }
  intro watcher member
  rw [Service.watch, unwatched, List.nil_append] at member
  rw [List.mem_singleton.mp member]
  -- the snapshot mentions every instance that the pool knows
  have start : (fun _ => none : Addresses) =
      fun id => ((∅ : Table String Endpoint).lookup id).map Endpoint.addr := by
    funext id
    rw [AList.lookup_empty]
    rfl
  have fresh := applyKnown_replay
    ((state.registry.list "logic").map (fun ep => ⟨.added, ep⟩)) ∅
  rw [← start] at fresh
  change ((state.registry.list "logic").map (fun ep => ⟨.added, ep⟩)).foldl applyKnown known = _
  refine Eq.trans (funext (fun id => applyKnown_congr ?_)) fresh
  cases held : known id with
  | none => exact .inl rfl
  | some addr =>
      have indexed : id ∈ state.pool.instanceToAddr := by
        rw [← AList.lookup_isSome, represents.indexed, held]
        rfl
      obtain ⟨ep, listed, named⟩ := registered id indexed
      exact .inr ⟨_, List.mem_map_of_mem listed, named⟩

theorem Coupled.read {stream : Nat} (coupled : Coupled state)
    (phase : state.phase = .watching stream)
    (delivered : nextEvent state.registry stream = some event)
    (enters : event.type ≠ .removed → Enters state.pool event.ep) :
    Coupled { state with
      registry := state.registry.write stream
      pool := state.pool.handleEvent event } := by
  obtain ⟨watcher, single, rfl, service⟩ := coupled.onlyWatcher phase
  obtain ⟨rest, queue⟩ : ∃ rest, watcher.queue = event :: rest := by
    have front : watcher.queue.head? = some event := by simpa [nextEvent, single] using delivered
    exact ⟨_, List.eq_cons_of_mem_head? front⟩
  obtain ⟨known, represents, tracks⟩ := coupled.known
  have tracked := tracks watcher (by rw [single]; exact List.mem_singleton_self _)
  refine { coupled with
    mirrors := coupled.mirrors.after coupled.keyed (.write watcher.stream) nofun
    known := ⟨_, represents_handleEvent represents enters, ?_⟩
    watchers := by simp [Service.write, single, phase, service]
    blank := by simp [phase] }
  intro written member
  simp only [Service.write, single, List.map_cons, List.map_nil, if_true, List.mem_singleton]
    at member
  have events : written.events = watcher.events := by
    simp [member, Watcher.events, queue]
  have remaining : written.queue = rest := by rw [member, queue, List.tail_cons]
  rw [Tracks, events, remaining, ← show watcher.queue.foldl applyKnown known = _ from tracked,
    queue, List.foldl_cons]

theorem Coupled.breakWatch {stream : Nat} (coupled : Coupled state)
    (phase : state.phase = .watching stream) :
    Coupled { state with
      registry := state.registry.unwatch stream
      phase := .disconnected } := by
  obtain ⟨watcher, single, named, _⟩ := coupled.onlyWatcher phase
  have unwatched : (state.registry.unwatch stream).watchers = [] := by
    simp [Service.unwatch, single, named]
  obtain ⟨known, represents, _⟩ := coupled.known
  exact { coupled with
    mirrors := by simp [Mirrors, unwatched]
    known := ⟨known, represents, by simp [unwatched]⟩
    watchers := by simp [unwatched]
    listed := nofun
    blank := by simp }

theorem Coupled.step {event : Event} (coupled : Coupled state) (keeps : KeepsTrack state event)
    (stepped : machine.step state event = some next) : Coupled next := by
  cases event with
  | registry event => exact coupled.registry keeps stepped
  | list =>
      obtain ⟨phase, rfl⟩ := list_eq_some stepped
      have unwatched := coupled.unwatched (by simp [phase])
      refine { coupled with
        watchers := by simp [unwatched]
        listed := ?_
        blank := fun _ => coupled.blank (.inl phase) }
      intro eps listed
      cases listed
      exact coupled.keyed.distinct
  | listFailed =>
      obtain ⟨phase, rfl⟩ := listFailed_eq_some stepped
      have unwatched := coupled.unwatched (by rcases phase with start | ⟨eps, listed⟩ <;> simp [*])
      exact { coupled with
        watchers := by simp [unwatched]
        listed := nofun
        blank := by simp }
  | bootstrap =>
      obtain ⟨eps, phase, rfl⟩ := bootstrap_eq_some stepped
      exact coupled.bootstrap phase (keeps eps phase)
  | openWatch =>
      obtain ⟨phase, rfl⟩ := openWatch_eq_some stepped
      exact coupled.openWatch phase keeps
  | read =>
      obtain ⟨stream, event, phase, delivered, rfl⟩ := read_eq_some stepped
      exact coupled.read phase delivered (keeps stream event phase delivered)
  | breakWatch =>
      obtain ⟨stream, phase, rfl⟩ := breakWatch_eq_some stepped
      exact coupled.breakWatch phase

/-! ## Runs -/

/-- In every run that keeps track of the instances, the clients are for the
addresses of the registry whenever an open stream has been read to its end. -/
theorem mirrored_of_keepsTrack {events : List Event}
    (met : machine.Meets KeepsTrack {} events) : machine.Always Mirrored {} events :=
  (Machine.always_of_meets Coupled coupled_init
    (fun _ _ _ coupled keeps stepped => coupled.step keeps stepped) met).mono
      fun _ coupled => coupled.mirrored

private def logicAt (instanceId addr : String) : Endpoint where
  instanceId := instanceId
  service := "logic"
  addr := addr

private def oneLogic : List Event :=
  [.list, .bootstrap, .openWatch, .registry (.register (logicAt "logic-1" "10.0.0.1:9000") 0), .read]

theorem one_logic_mirrored :
    ∃ state, machine.run {} oneLogic = some state ∧ state.pool.clients = {"10.0.0.1:9000"} ∧
      Mirrored state := by
  have met : machine.Meets KeepsTrack {} oneLogic :=
    .cons rfl trivial <| .cons rfl (fun eps same => by cases same; exact List.nodup_nil) <|
    .cons rfl (fun id member => absurd member (AList.notMem_empty id)) <|
    .cons rfl (fun _ _ old found => nomatch found) <| .cons rfl (fun stream event phase delivered _ => by
      cases phase
      cases delivered
      exact .inr ⟨rfl, by decide⟩) trivial
  exact ⟨_, rfl, by decide, (mirrored_of_keepsTrack met).atEnd rfl⟩

/-! ## A restart on the same address -/

/-- The process comes back under a new instance id before its old record is
removed; the removal takes the client away. -/
private def restartOnSameAddress : List Event :=
  [.list, .bootstrap, .openWatch, .registry (.register (logicAt "logic-1" "10.0.0.1:9000") 0), .read,
    .registry (.register (logicAt "logic-2" "10.0.0.1:9000") 1), .read,
    .registry (.deregister "logic-1"), .read]

theorem restarted_logic_has_no_client :
    ∃ state, machine.run {} restartOnSameAddress = some state ∧ state.pool.clients = ∅ ∧
      state.registry.list "logic" = [logicAt "logic-2" "10.0.0.1:9000"] ∧ ¬ Mirrored state := by
  refine ⟨_, rfl, by decide, by decide, fun mirrored => ?_⟩
  have connected := (mirrored _ (List.mem_singleton_self _) rfl rfl "10.0.0.1:9000").mpr
    ⟨_, List.mem_singleton_self _, rfl⟩
  exact absurd connected (by decide)

end MuduoIm.Gateway.WatchMirror
