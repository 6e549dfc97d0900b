import MuduoIm.Data.Table
import MuduoIm.Transition.Machine

namespace MuduoIm.Registry

open MuduoIm.Data MuduoIm.Transition

/-! # The registry service

The in-memory registry: endpoints with leases, a scan that removes the
endpoints which have not been kept alive, and watchers that are sent every
change.  All operations hold one mutex, so each is a step.
-/

structure Endpoint where
  instanceId : String
  service : String
  addr : String
  weight : Nat := 1
  labels : List (String × String) := []
deriving DecidableEq, Repr

inductive EventType where
  | added
  | removed
  | updated
deriving DecidableEq, Repr

structure WatchEvent where
  type : EventType
  ep : Endpoint
deriving DecidableEq, Repr

/-- An open Watch call.  `written` is history: what was taken off the queue and
written to the stream. -/
structure Watcher where
  stream : Nat
  service : String
  queue : List WatchEvent := []
  written : List WatchEvent := []
deriving DecidableEq, Repr

/-- The filter of List, of Watch and of the broadcast: an empty service stands
for all. -/
def passes (service : String) (ep : Endpoint) : Bool :=
  service = "" ∨ ep.service = service

/-- All events ever queued for the watcher. -/
def Watcher.events (watcher : Watcher) : List WatchEvent := watcher.written ++ watcher.queue

def Watcher.push (watcher : Watcher) (event : WatchEvent) : Watcher :=
  if passes watcher.service event.ep then { watcher with queue := watcher.queue ++ [event] }
  else watcher

/-- The times of `lastSeen` are those of the steady clock, in nanoseconds. -/
structure Service where
  endpoints : Table String Endpoint := ∅
  lastSeen : Table String Int := ∅
  leaseToInstance : Table Int String := ∅
  instanceToLease : Table String Int := ∅
  watchers : List Watcher := []
  leaseSeq : Int := 0

def ttlSec : Int := 30

inductive StatusCode where
  | ok
  | notFound
deriving DecidableEq, Repr

structure KeepAliveResponse where
  code : StatusCode
  msg : String := ""
  ttlRemaining : Int
deriving DecidableEq, Repr

namespace Service

def broadcastEvent (service : Service) (type : EventType) (ep : Endpoint) : Service :=
  { service with watchers := service.watchers.map (fun watcher => watcher.push ⟨type, ep⟩) }

/-- `leaseToInstance` once the lease that the instance holds is erased. -/
def leasesWithout (service : Service) (instanceId : String) : Table Int String :=
  match service.instanceToLease.lookup instanceId with
  | some oldLease => service.leaseToInstance.erase oldLease
  | none => service.leaseToInstance

/-- The response carries the lease that is returned. -/
def register (service : Service) (ep : Endpoint) (now : Int) : Int × Service :=
  let leaseId := service.leaseSeq + 1
  let registered := { service with
    endpoints := service.endpoints.insert ep.instanceId ep
    lastSeen := service.lastSeen.insert ep.instanceId now
    leaseSeq := leaseId
    leaseToInstance := (service.leasesWithout ep.instanceId).insert leaseId ep.instanceId
    instanceToLease := service.instanceToLease.insert ep.instanceId leaseId }
  (leaseId, registered.broadcastEvent .added ep)

def removeInstanceLocked (service : Service) (instanceId : String) : Service :=
  match service.endpoints.lookup instanceId with
  | none => service
  | some ep =>
      { service.broadcastEvent .removed ep with
        endpoints := service.endpoints.erase instanceId
        lastSeen := service.lastSeen.erase instanceId
        leaseToInstance := service.leasesWithout instanceId
        -- without a lease there is nothing to erase
        instanceToLease := service.instanceToLease.erase instanceId }

def deregister (service : Service) (instanceId : String) : Service :=
  service.removeInstanceLocked instanceId

def keepAlive (service : Service) (leaseId now : Int) : KeepAliveResponse × Service :=
  match service.leaseToInstance.lookup leaseId with
  | none => ({ code := .notFound, msg := "lease not found", ttlRemaining := 0 }, service)
  | some instanceId =>
      ({ code := .ok, ttlRemaining := ttlSec },
        { service with lastSeen := service.lastSeen.insert instanceId now })

def list (service : Service) (filter : String) : List Endpoint :=
  service.endpoints.select (passes filter)

/-- The start of a Watch call: the watcher is entered, and the current entries
are queued for it. -/
def watch (service : Service) (stream : Nat) (filter : String) : Service :=
  { service with watchers := service.watchers ++ [{
      stream, service := filter
      queue := (service.list filter).map (fun ep => ⟨.added, ep⟩) }] }

/-- One turn of the loop of a Watch call: the front of the queue is written. -/
def write (service : Service) (stream : Nat) : Service :=
  { service with watchers := service.watchers.map (fun watcher =>
      if watcher.stream = stream then
        { watcher with
          queue := watcher.queue.tail
          written := watcher.written ++ watcher.queue.head?.toList }
      else watcher) }

/-- The end of a Watch call. -/
def unwatch (service : Service) (stream : Nat) : Service :=
  { service with watchers := service.watchers.filter (fun watcher => watcher.stream ≠ stream) }

/-- What the scan of `gcLoop` collects; a duration in seconds is truncated. -/
def dead (service : Service) (now : Int) : List String :=
  (service.lastSeen.entries.filter
    (fun entry => (now - entry.2).tdiv 1000000000 > ttlSec)).map Sigma.fst

/-- One scan of `gcLoop`; `now` is read before the mutex is taken. -/
def gc (service : Service) (now : Int) : Service :=
  (service.dead now).foldl removeInstanceLocked service

end Service

inductive Event where
  | register (ep : Endpoint) (now : Int)
  | deregister (instanceId : String)
  | keepAlive (leaseId now : Int)
  | gc (now : Int)
  | watch (stream : Nat) (filter : String)
  | write (stream : Nat)
  | unwatch (stream : Nat)
deriving DecidableEq, Repr

namespace Service

/-- The service after the event; List and the responses change nothing. -/
def after (service : Service) : Event → Service
  | .register ep now => (service.register ep now).2
  | .deregister instanceId => service.deregister instanceId
  | .keepAlive leaseId now => (service.keepAlive leaseId now).2
  | .gc now => service.gc now
  | .watch stream filter => service.watch stream filter
  | .write stream => service.write stream
  | .unwatch stream => service.unwatch stream

variable {service : Service} {ep : Endpoint} {instanceId : String} {now : Int}

/-! ## What a removal and a scan leave -/

theorem removeInstanceLocked_absent (absent : service.endpoints.lookup instanceId = none) :
    service.removeInstanceLocked instanceId = service := by
  simp only [removeInstanceLocked, absent]

theorem removeInstanceLocked_endpoints (other : String) :
    (service.removeInstanceLocked instanceId).endpoints.lookup other =
      if other = instanceId then none else service.endpoints.lookup other := by
  cases found : service.endpoints.lookup instanceId with
  | none =>
      rw [removeInstanceLocked_absent found]
      split
      · rename_i same
        rw [same, found]
      · rfl
  | some ep =>
      simp only [removeInstanceLocked, found]
      exact Table.lookup_erase_ite

theorem removeInstanceLocked_leaseSeq :
    (service.removeInstanceLocked instanceId).leaseSeq = service.leaseSeq := by
  simp only [removeInstanceLocked]
  split <;> rfl

theorem removeInstanceLocked_instanceToLease
    (leased : ∀ id, id ∈ service.endpoints ↔ id ∈ service.instanceToLease) (other : String) :
    (service.removeInstanceLocked instanceId).instanceToLease.lookup other =
      if other = instanceId then none else service.instanceToLease.lookup other := by
  cases found : service.endpoints.lookup instanceId with
  | none =>
      have unleased : service.instanceToLease.lookup instanceId = none := by
        rw [AList.lookup_eq_none, ← leased, ← AList.lookup_eq_none, found]
      rw [removeInstanceLocked_absent found]
      split
      · rename_i same
        rw [same, unleased]
      · rfl
  | some ep =>
      simp only [removeInstanceLocked, found]
      exact Table.lookup_erase_ite

/-- A property that every removal keeps is kept by a scan. -/
theorem gc_of_removals (property : Service → Prop) (holds : property service)
    (kept : ∀ (current : Service) (id : String), property current →
      property (current.removeInstanceLocked id)) : property (service.gc now) := by
  simp only [gc]
  induction service.dead now generalizing service with
  | nil => exact holds
  | cons id rest ih => exact ih (kept service id holds)

end Service

end MuduoIm.Registry
