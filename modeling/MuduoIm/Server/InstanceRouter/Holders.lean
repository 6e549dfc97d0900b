import MuduoIm.Server.InstanceRouter
import Mathlib.Logic.Function.Basic

namespace MuduoIm.Server.InstanceRouter

open MuduoIm.Data MuduoIm.Server MuduoIm.Server.OnlineManager

/-! # Instances of the server over one Redis -/

/-- The ids that the instances are configured with. -/
structure Fleet (Instance : Type) where
  instanceId : Instance → String
  distinct : Function.Injective instanceId

structure State (Instance Session : Type) where
  managers : Instance → OnlineManager Session
  redis : Keyspace

/-- A chat server gives its online table the Redis pool only; the configured id
goes to its router. -/
def State.init (Instance Session : Type) : State Instance Session where
  managers := fun _ => {}
  redis := ∅

inductive Call (Instance Session : Type) where
  | addDevice (server : Instance) (userId : Int) (deviceId : String) (session : Session)
  | removeDevice (server : Instance) (userId : Int) (deviceId : String)

variable {Instance Session : Type}

namespace State

def perform [DecidableEq Instance] (state : State Instance Session) (server : Instance)
    (performed : OnlineManager Session × List KeyCommand) : State Instance Session where
  managers := Function.update state.managers server performed.1
  redis := state.redis.executeAll performed.2

def after [DecidableEq Instance] (state : State Instance Session) : Call Instance Session → State Instance Session
  | .addDevice server userId deviceId session =>
      state.perform server ((state.managers server).addDevice userId deviceId session)
  | .removeDevice server userId deviceId =>
      state.perform server ((state.managers server).removeDevice userId deviceId)

def afterAll [DecidableEq Instance] (state : State Instance Session)
    (calls : List (Call Instance Session)) : State Instance Session :=
  calls.foldl after state

/-- The instance has an entry for a device of the user. -/
def Holds (state : State Instance Session) (server : Instance) (uid : Int) : Prop :=
  ∃ dev session, (state.managers server).sessions.find uid dev = some session

/-- The instance has an entry with an open session. -/
def HoldsOpen (state : State Instance Session) (isOpen : Session → Bool) (server : Instance)
    (uid : Int) : Prop :=
  ∃ dev session, (state.managers server).sessions.find uid dev = some session ∧
    isOpen session = true

/-- What the router of the instance publishes. -/
def published (state : State Instance Session) (fleet : Fleet Instance) (server : Instance)
    (uid : Int) (payload : String) : List Publication :=
  (publishToUser (fleet.instanceId server) state.redis uid payload).1

end State

/-- The payload goes once to every other instance that holds a device of the
user and to no other channel, and the user is online exactly if some instance
holds an open device. -/
structure FindsHolders (fleet : Fleet Instance) (state : State Instance Session)
    (isOpen : Session → Bool) (server : Instance) (uid : Int) (payload : String) : Prop where
  reaches : ∀ other, other ≠ server → state.Holds other uid →
    (state.published fleet server uid payload).count
      ⟨channel (fleet.instanceId other), payload⟩ = 1
  only : ∀ sent ∈ state.published fleet server uid payload, ∃ other, other ≠ server ∧
    state.Holds other uid ∧ sent = ⟨channel (fleet.instanceId other), payload⟩
  online : (state.managers server).isOnline isOpen state.redis uid = true ↔
    ∃ other, state.HoldsOpen isOpen other uid

/-! ## What the instances write -/

/-- What holds after every sequence of calls. -/
structure Announced (state : State Instance Session) : Prop where
  named : ∀ server, (state.managers server).instanceId = "instance-0"
  presence : Presence state.redis

variable {fleet : Fleet Instance} {state : State Instance Session} {server : Instance}
variable {isOpen : Session → Bool} {uid : Int} {payload : String}

theorem announced_init : Announced (State.init Instance Session) where
  named := fun _ => rfl
  presence := by
    intro key value stored
    cases stored

theorem isOnline_presence (presence : Presence state.redis) :
    (state.managers server).isOnline isOpen state.redis uid = true ↔
      state.HoldsOpen isOpen server uid := by
  rw [isOnline, exist_presence presence, Bool.or_false, Bool.not_eq_true', List.isEmpty_eq_false_iff,
    getSessions_ne_nil]
  rfl

theorem published_presence (presence : Presence state.redis) :
    state.published fleet server uid payload = [] := by
  rw [State.published, publishToUser_presence presence]

variable [DecidableEq Instance]

theorem Announced.perform {performed : OnlineManager Session × List KeyCommand}
    (announced : Announced state) (kept : performed.1.instanceId = "instance-0")
    (sets : ∀ key value ttl, .set key value ttl ∈ performed.2 →
      value = "instance-0" ∧ ∃ userId dev, key = keyOnline userId dev) :
    Announced (state.perform server performed) where
  named := by
    intro other
    by_cases same : other = server
    · simp only [State.perform, same, Function.update_self]
      exact kept
    · simp only [State.perform, Function.update_of_ne same]
      exact announced.named other
  presence := Keyspace.executeAll_written announced.presence sets

theorem Announced.after (announced : Announced state) (call : Call Instance Session) :
    Announced (state.after call) := by
  cases call with
  | addDevice server userId deviceId session =>
      refine announced.perform (announced.named server) ?_
      intro key value ttl member
      obtain ⟨rfl, rfl, _⟩ := KeyCommand.set.inj (List.mem_singleton.mp member)
      exact ⟨announced.named server, userId, device deviceId, rfl⟩
  | removeDevice server userId deviceId =>
      refine announced.perform (announced.named server) ?_
      intro key value ttl member
      simp only [removeDevice, List.mem_cons, reduceCtorEq, false_or] at member
      split at member
      · simp at member
      · simp at member

theorem Announced.afterAll (announced : Announced state) (calls : List (Call Instance Session)) :
    Announced (state.afterAll calls) := by
  induction calls generalizing state with
  | nil => exact announced
  | cons call calls ih => exact ih (announced.after call)

/-- After any calls the holders are found exactly if no other instance holds a
device of the user. -/
theorem finds_holders_iff (fleet : Fleet Instance) (calls : List (Call Instance Session))
    (isOpen : Session → Bool) (server : Instance) (uid : Int) (payload : String) :
    FindsHolders fleet ((State.init Instance Session).afterAll calls) isOpen server uid payload ↔
      ∀ other, other ≠ server → ¬ ((State.init Instance Session).afterAll calls).Holds other uid := by
  have announced : Announced ((State.init Instance Session).afterAll calls) :=
    announced_init.afterAll calls
  have presence := announced.presence
  generalize (State.init Instance Session).afterAll calls = state at presence
  constructor
  · intro finds other remote holds
    have once := finds.reaches other remote holds
    rw [published_presence presence] at once
    cases once
  · intro alone
    refine ⟨fun other remote holds => absurd holds (alone other remote), ?_, ?_⟩
    · rw [published_presence presence]
      intro sent member
      cases member
    · rw [isOnline_presence presence]
      constructor
      · intro holds
        exact ⟨server, holds⟩
      · intro given
        obtain ⟨other, dev, session, found, isOpen⟩ := given
        by_cases same : other = server
        · exact same ▸ ⟨dev, session, found, isOpen⟩
        · exact absurd ⟨dev, session, found⟩ (alone other same)

def twoServers : Fleet Bool where
  instanceId := fun second => bif second then "im-2" else "im-1"
  distinct := by
    unfold Function.Injective
    decide

/-- The second instance holds the device of a user, and the first finds neither
that instance nor the user. -/
theorem remote_holder_not_found :
    ¬ ∀ (calls : List (Call Bool Nat)) (isOpen : Nat → Bool) (server : Bool) (uid : Int)
        (payload : String),
      FindsHolders twoServers ((State.init Bool Nat).afterAll calls) isOpen server uid payload := by
  intro always
  have finds := always [.addDevice true 7 "web" 1] (fun _ => true) false 7 "hello"
  have online := finds.online.mpr ⟨true, "web", 1, rfl, rfl⟩
  rw [isOnline_presence (announced_init.afterAll _).presence] at online
  obtain ⟨dev, session, found, _⟩ := online
  cases found

end MuduoIm.Server.InstanceRouter
