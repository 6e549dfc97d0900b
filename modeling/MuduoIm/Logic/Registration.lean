import MuduoIm.Registry.Leases
import MuduoIm.Registry.WatchReplay

namespace MuduoIm.Logic.Registration

open MuduoIm.Transition MuduoIm.Registry

/-! # The registration thread of a logic process

The thread registers its instance, keeps the lease alive and deregisters when
the process shuts down.  A call is sent, served and answered in three steps, or
it fails; between them the registry serves others, scans, or restarts with an
empty memory.
-/

structure Config where
  instanceId : String
  advertised : String
deriving DecidableEq, Repr

def Config.endpoint (config : Config) : Endpoint where
  instanceId := config.instanceId
  service := "logic"
  addr := config.advertised
  weight := 1

/-- Where the thread stands.  `sleeping` is the pause of the KeepAlive loop. -/
inductive Phase where
  | registering
  | registerSent
  | registerAnswered (leaseId : Int)
  | sleeping (leaseId : Int)
  | keepAliveSent (leaseId : Int)
  | keepAliveAnswered (leaseId : Int) (response : KeepAliveResponse)
  | deregistering
  | stopped
deriving DecidableEq, Repr

/-- `running` is `g_regRunning`; `received` is history: the last step brought
the reply to a KeepAlive. -/
structure State where
  registry : History := {}
  running : Bool := true
  phase : Phase := .registering
  received : Bool := false

/-- `registry` stands for what others ask of the registry, other processes
with the same instance id among them, and for its scans. -/
inductive Event where
  | sendRegister
  | serveRegister (now : Int)
  | receiveRegister
  | failRegister
  | sendKeepAlive
  | serveKeepAlive (now : Int)
  | receiveKeepAlive
  | failKeepAlive
  | shutdown
  | leaveLoop
  | deregister (served : Bool)
  | registry (event : Registry.Event)
  | restart
deriving DecidableEq, Repr

/-- Where the event leaves the thread; none if the thread does not offer it. -/
def nextPhase (config : Config) (state : State) (event : Event) : Option Phase :=
  match event, state.phase with
  | .sendRegister, .registering => if state.running then some .registerSent else none
  | .serveRegister now, .registerSent =>
      some (.registerAnswered (state.registry.service.register config.endpoint now).1)
  | .receiveRegister, .registerAnswered leaseId =>
      some (if leaseId = 0 then .deregistering else .sleeping leaseId)
  | .failRegister, .registerSent => some .registering
  | .failRegister, .registerAnswered _ => some .registering
  | .sendKeepAlive, .sleeping leaseId => if state.running then some (.keepAliveSent leaseId) else none
  | .serveKeepAlive now, .keepAliveSent leaseId =>
      some (.keepAliveAnswered leaseId (state.registry.service.keepAlive leaseId now).1)
  -- neither the status of the call nor its response is looked at
  | .receiveKeepAlive, .keepAliveAnswered leaseId _ => some (.sleeping leaseId)
  | .failKeepAlive, .keepAliveSent leaseId => some (.sleeping leaseId)
  | .failKeepAlive, .keepAliveAnswered leaseId _ => some (.sleeping leaseId)
  | .leaveLoop, .registering => if state.running then none else some .deregistering
  | .leaveLoop, .sleeping _ => if state.running then none else some .deregistering
  | .deregister _, .deregistering => some .stopped
  | .shutdown, phase => some phase
  | .registry _, phase => some phase
  | .restart, phase => some phase
  | _, _ => none

/-- The registry after the event. -/
def served (config : Config) (state : State) (event : Event) : History :=
  match event, state.phase with
  | .serveRegister now, _ => state.registry.after (.register config.endpoint now)
  | .serveKeepAlive now, .keepAliveSent leaseId => state.registry.after (.keepAlive leaseId now)
  | .deregister true, _ => state.registry.after (.deregister config.instanceId)
  | .registry event, _ => state.registry.after event
  | .restart, _ => {}
  | _, _ => state.registry

def step (config : Config) (state : State) (event : Event) : Option State :=
  (nextPhase config state event).map (fun phase => {
    registry := served config state event
    running := state.running && event ≠ .shutdown
    phase
    received := event = .receiveKeepAlive })

def machine (config : Config) : Machine State Event := ⟨step config⟩

/-- List, asked for all services, has the instance id. -/
def Listed (config : Config) (state : State) : Prop :=
  ∃ ep ∈ state.registry.service.list "", ep.instanceId = config.instanceId

/-- A Register is sent before the first KeepAlive. -/
def RegisterFirst : List Event → Prop
  | [] => True
  | .sendRegister :: _ => True
  | .sendKeepAlive :: _ => False
  | _ :: rest => RegisterFirst rest

/-- However the run goes on, the process sends a new Register before its next
KeepAlive. -/
def Reregisters (config : Config) (state : State) : Prop :=
  ∀ events final, (machine config).run state events = some final → RegisterFirst events

/-- A process that has received the reply to a KeepAlive and is not shutting
down is listed or about to register. -/
def StaysRegistered (config : Config) (state : State) : Prop :=
  state.received = true → state.running = true → Listed config state ∨ Reregisters config state

/-- When the reply comes in, the last that happened to the instance id since
the registry started is a Register. -/
def RegisteredAtReply (config : Config) (state : State) : Event → Prop
  | .receiveKeepAlive =>
      state.running = true → ∃ lease, Current state.registry.log config.instanceId lease
  | _ => True

/-! ## The registry in a run -/

/-- What holds of the registry in every run. -/
structure Sound (state : State) : Prop where
  logged : Logged state.registry
  keyed : Keyed state.registry.service

variable {config : Config} {state next : State} {event : Event}

theorem after_service (history : History) (event : Registry.Event) :
    (history.after event).service = history.service.after event := by
  cases event with
  | keepAlive lease now =>
      simp only [History.after]
      split <;> rfl
  | register ep now => rfl
  | deregister id => rfl
  | gc now => rfl
  | watch stream filter => rfl
  | write stream => rfl
  | unwatch stream => rfl

theorem step_eq_some (stepped : step config state event = some next) :
    ∃ phase, nextPhase config state event = some phase ∧
      next = {
        registry := served config state event
        running := state.running && event ≠ .shutdown
        phase
        received := event = .receiveKeepAlive } := by
  obtain ⟨phase, offered, rfl⟩ := Option.map_eq_some_iff.mp stepped
  exact ⟨phase, offered, rfl⟩

/-- An event is at most one call to the registry, or its restart. -/
theorem served_cases (config : Config) (state : State) (event : Event) :
    served config state event = state.registry ∨ served config state event = {} ∨
      ∃ call, served config state event = state.registry.after call := by
  simp only [served]
  split
  · exact .inr (.inr ⟨_, rfl⟩)
  · exact .inr (.inr ⟨_, rfl⟩)
  · exact .inr (.inr ⟨_, rfl⟩)
  · exact .inr (.inr ⟨_, rfl⟩)
  · exact .inr (.inl rfl)
  · exact .inl rfl

theorem sound_init : Sound {} where
  logged := logged_init
  keyed := by simp [Keyed]

theorem Sound.step (sound : Sound state)
    (stepped : (machine config).step state event = some next) : Sound next := by
  obtain ⟨phase, _, rfl⟩ := step_eq_some stepped
  rcases served_cases config state event with same | emptied | ⟨call, called⟩
  · exact ⟨same.symm ▸ sound.logged, same.symm ▸ sound.keyed⟩
  · exact ⟨emptied.symm ▸ sound_init.logged, emptied.symm ▸ sound_init.keyed⟩
  · refine ⟨called.symm ▸ sound.logged.after call, ?_⟩
    change Keyed (served config state event).service
    rw [called, after_service]
    exact sound.keyed.after call

/-- The registry lists the instance exactly if the last that happened to it is
a Register. -/
theorem Sound.listed_iff (sound : Sound state) :
    Listed config state ↔ ∃ lease, Current state.registry.log config.instanceId lease := by
  have unfiltered (ep : Endpoint) : passes "" ep = true := by simp [passes]
  simp only [Listed, sound.keyed.mem_list, Option.filter_eq_some_iff, unfiltered, and_true,
    ← sound.logged.current]
  rw [← Option.isSome_iff_exists, ← Option.isSome_iff_exists, AList.lookup_isSome,
    AList.lookup_isSome, sound.logged.invariant.leased]

/-! ## Replies -/

theorem nextPhase_receiveKeepAlive {phase : Phase}
    (offered : nextPhase config state .receiveKeepAlive = some phase) :
    ∃ leaseId, phase = .sleeping leaseId := by
  simp only [nextPhase] at offered
  cases current : state.phase <;> simp [current] at offered
  exact ⟨_, offered.symm⟩

/-- In the KeepAlive loop a running process sends a KeepAlive next. -/
theorem not_reregisters (leaseId : Int) (running : state.running = true)
    (phase : state.phase = .sleeping leaseId) : ¬ Reregisters config state := by
  intro reregisters
  have sends : (machine config).run state [.sendKeepAlive] =
      some { state with phase := .keepAliveSent leaseId, received := false } := by
    simp [Machine.run, machine, step, nextPhase, served, phase, running]
  exact reregisters _ _ sends

theorem staysRegistered_iff (sound : Sound state)
    (stepped : (machine config).step state event = some next) :
    StaysRegistered config next ↔ RegisteredAtReply config state event := by
  obtain ⟨phase, offered, rfl⟩ := step_eq_some stepped
  by_cases receipt : event = .receiveKeepAlive
  · subst receipt
    obtain ⟨leaseId, rfl⟩ := nextPhase_receiveKeepAlive offered
    have running : (state.running && decide (Event.receiveKeepAlive ≠ .shutdown)) = state.running := by
      simp
    simp only [StaysRegistered, RegisteredAtReply, decide_true, forall_const, running,
      ← sound.listed_iff]
    refine forall_congr' (fun active => ?_)
    exact or_iff_left (not_reregisters leaseId active rfl)
  · refine iff_of_true (fun given => absurd (of_decide_eq_true given) receipt) ?_
    cases event with
    | receiveKeepAlive => exact absurd rfl receipt
    | _ => trivial

/-- A running logic process is listed or re-registers after each reply to a
KeepAlive exactly if, at each reply, its instance has not been removed, nor
forgotten in a restart, since its latest Register. -/
theorem stays_registered_iff (config : Config) (events : List Event) :
    (machine config).Always (StaysRegistered config) {} events ↔
      (machine config).Meets (RegisteredAtReply config) {} events :=
  Machine.always_iff_meets Sound nofun sound_init
    (fun _ _ _ sound stepped => sound.step stepped)
    (fun _ _ _ sound _ stepped => staysRegistered_iff sound stepped)

/-! ## A restart of the registry -/

private def logic1 : Config := ⟨"logic-1", "10.0.0.1:9000"⟩

/-- The KeepAlive after the restart is rejected, and the process carries on. -/
private def registryRestarts : List Event :=
  [.sendRegister, .serveRegister 0, .receiveRegister, .restart, .sendKeepAlive,
    .serveKeepAlive 10000000000, .receiveKeepAlive]

theorem restart_unregisters_logic :
    ∃ state, (machine logic1).run {} registryRestarts = some state ∧
      state.registry.service.list "" = [] ∧ state.running = true ∧
      ¬ StaysRegistered logic1 state := by
  refine ⟨_, rfl, by decide, rfl, fun stays => ?_⟩
  rcases stays rfl rfl with ⟨ep, listed, _⟩ | reregisters
  · exact absurd listed List.not_mem_nil
  · exact not_reregisters 1 rfl rfl reregisters

end MuduoIm.Logic.Registration
