import MuduoIm.Registry.Service

namespace MuduoIm.Registry

open MuduoIm.Data MuduoIm.Transition

/-! # Leases

Four maps describe the registered instances.  KeepAlive writes `lastSeen`
without a look at `endpoints`, which is right only while the maps agree.
-/

structure LeaseInvariant (service : Service) : Prop where
  seen : ∀ id, id ∈ service.endpoints ↔ id ∈ service.lastSeen
  leased : ∀ id, id ∈ service.endpoints ↔ id ∈ service.instanceToLease
  inverse : ∀ lease id, service.leaseToInstance.lookup lease = some id ↔
    service.instanceToLease.lookup id = some lease
  bounds : ∀ lease id, service.leaseToInstance.lookup lease = some id →
    1 ≤ lease ∧ lease ≤ service.leaseSeq
  counted : 0 ≤ service.leaseSeq

theorem leaseInvariant_init : LeaseInvariant {} where
  seen := by simp
  leased := by simp
  inverse := by simp
  bounds := by simp
  counted := Int.le_refl 0

variable {service : Service} {ep : Endpoint} {id : String} {lease now : Int}

theorem LeaseInvariant.lookup_leasesWithout (invariant : LeaseInvariant service) :
    (service.leasesWithout id).lookup lease =
      if service.leaseToInstance.lookup lease = some id then none
      else service.leaseToInstance.lookup lease := by
  simp only [Service.leasesWithout]
  cases held : service.instanceToLease.lookup id with
  | none =>
      have free : service.leaseToInstance.lookup lease ≠ some id := by
        intro taken
        rw [invariant.inverse, held] at taken
        contradiction
      rw [if_neg free]
  | some old =>
      have owner : service.leaseToInstance.lookup lease = some id ↔ lease = old := by
        rw [invariant.inverse, held, Option.some.injEq, eq_comm]
      simp only [owner]
      exact Table.lookup_erase_ite

/-- Without the lease of one instance, the leases of the others are as before. -/
theorem LeaseInvariant.leasesWithout_eq_some (invariant : LeaseInvariant service) {other : String} :
    (service.leasesWithout id).lookup lease = some other ↔
      other ≠ id ∧ service.instanceToLease.lookup other = some lease := by
  rw [invariant.lookup_leasesWithout, ← invariant.inverse]
  by_cases held : service.leaseToInstance.lookup lease = some id
  · rw [if_pos held, held, Option.some.injEq]
    constructor
    · intro absurdly
      contradiction
    · intro given
      exact absurd given.2.symm given.1
  · rw [if_neg held]
    constructor
    · intro found
      exact ⟨fun same => held (same ▸ found), found⟩
    · exact And.right

theorem LeaseInvariant.register (invariant : LeaseInvariant service) :
    LeaseInvariant (service.register ep now).2 := by
  refine { seen := ?_, leased := ?_, inverse := ?_, bounds := ?_, counted := ?_ }
  · intro id
    simp [Service.register, Service.broadcastEvent, invariant.seen]
  · intro id
    simp [Service.register, Service.broadcastEvent, invariant.leased]
  · intro lease id
    simp only [Service.register, Service.broadcastEvent, Table.lookup_insert_ite]
    have unissued : service.instanceToLease.lookup id ≠ some (service.leaseSeq + 1) := by
      intro held
      have bound := (invariant.bounds _ _ ((invariant.inverse _ _).mpr held)).2
      omega
    by_cases new : lease = service.leaseSeq + 1
    · by_cases same : id = ep.instanceId
      · simp [new, same]
      · simp [new, same, unissued, Ne.symm same]
    · have other : service.leaseSeq + 1 ≠ lease := fun equal => new equal.symm
      rw [if_neg new, invariant.leasesWithout_eq_some]
      by_cases same : id = ep.instanceId
      · simp [same, other]
      · simp [same]
  · intro lease id
    have counted := invariant.counted
    simp only [Service.register, Service.broadcastEvent, Table.lookup_insert_ite]
    intro held
    by_cases new : lease = service.leaseSeq + 1
    · omega
    · rw [if_neg new, invariant.leasesWithout_eq_some, ← invariant.inverse] at held
      have bound := invariant.bounds lease id held.2
      omega
  · have counted := invariant.counted
    change 0 ≤ service.leaseSeq + 1
    omega

theorem LeaseInvariant.removeInstanceLocked (invariant : LeaseInvariant service) :
    LeaseInvariant (service.removeInstanceLocked id) := by
  cases found : service.endpoints.lookup id with
  | none =>
      rw [Service.removeInstanceLocked_absent found]
      exact invariant
  | some ep =>
      simp only [Service.removeInstanceLocked, found]
      refine { seen := ?_, leased := ?_, inverse := ?_, bounds := ?_, counted := invariant.counted }
      · intro other
        simp [invariant.seen]
      · intro other
        simp [invariant.leased]
      · intro lease other
        simp only [invariant.leasesWithout_eq_some, Table.lookup_erase_ite]
        by_cases same : other = id <;> simp [same]
      · intro lease other
        simp only [invariant.leasesWithout_eq_some, ← invariant.inverse]
        intro held
        exact invariant.bounds lease other held.2

theorem LeaseInvariant.keepAlive (invariant : LeaseInvariant service) :
    LeaseInvariant (service.keepAlive lease now).2 := by
  simp only [Service.keepAlive]
  cases held : service.leaseToInstance.lookup lease with
  | none => exact invariant
  | some id =>
      have registered : id ∈ service.endpoints := by
        have found := (invariant.inverse lease id).mp held
        rw [invariant.leased, ← AList.lookup_isSome, found]
        rfl
      refine { invariant with seen := ?_ }
      intro other
      rw [AList.mem_insert, ← invariant.seen]
      constructor
      · exact Or.inr
      · intro given
        rcases given with rfl | present
        · exact registered
        · exact present

theorem LeaseInvariant.after (invariant : LeaseInvariant service) (event : Event) :
    LeaseInvariant (service.after event) := by
  cases event with
  | register ep now => exact invariant.register
  | deregister id => exact invariant.removeInstanceLocked
  | keepAlive lease now => exact invariant.keepAlive
  | gc now => exact Service.gc_of_removals LeaseInvariant invariant (fun _ _ held => held.removeInstanceLocked)
  | watch stream filter => exact { invariant with }
  | write stream => exact { invariant with }
  | unwatch stream => exact { invariant with }

/-! ## Which leases are accepted -/

/-- What happened to an instance, by the calls that concern it. -/
inductive LogEntry where
  | registered (instanceId : String) (lease : Int)
  | removed (instanceId : String)
deriving DecidableEq, Repr

def LogEntry.instanceId : LogEntry → String
  | .registered instanceId _ => instanceId
  | .removed instanceId => instanceId

def LogEntry.leased : LogEntry → Option Int
  | .registered _ lease => some lease
  | .removed _ => none

/-- The registry with its history: the log, newest entry first, and the leases
that KeepAlive has rejected after they had been issued. -/
structure History where
  service : Service := {}
  log : List LogEntry := []
  rejected : List Int := []

/-- Some Register has returned the lease. -/
def Issued (log : List LogEntry) (lease : Int) : Prop :=
  ∃ entry ∈ log, entry.leased = some lease

instance (log : List LogEntry) (lease : Int) : Decidable (Issued log lease) := by
  unfold Issued; infer_instance

/-- The last that happened to the instance is the Register that returned the
lease. -/
def Current (log : List LogEntry) (instanceId : String) (lease : Int) : Prop :=
  log.find? (fun entry => entry.instanceId = instanceId) = some (.registered instanceId lease)

namespace History

def after (history : History) (event : Event) : History :=
  let service := history.service.after event
  match event with
  | .register ep now =>
      let lease := (history.service.register ep now).1
      { history with service, log := .registered ep.instanceId lease :: history.log }
  | .deregister instanceId =>
      { history with service, log := .removed instanceId :: history.log }
  | .gc now =>
      let log := (history.service.dead now).foldl (fun log id => .removed id :: log) history.log
      { history with service, log }
  | .keepAlive lease now =>
      if (history.service.keepAlive lease now).1.code = .notFound ∧ Issued history.log lease then
        { history with service, rejected := lease :: history.rejected }
      else { history with service }
  | _ => { history with service }

def machine : Machine History Event := ⟨fun history event => some (history.after event)⟩

end History

/-- KeepAlive accepts a lease exactly if it is the one that the latest Register
of an instance returned which has not been removed since, and a lease once
rejected stays rejected. -/
structure AcceptsCurrent (history : History) : Prop where
  invariant : LeaseInvariant history.service
  accepts : ∀ lease now, (history.service.keepAlive lease now).1.code = .ok ↔
    ∃ id, Current history.log id lease
  rejects : ∀ lease ∈ history.rejected, ∀ now,
    (history.service.keepAlive lease now).1.code = .notFound

/-- The maps against the log. -/
structure Logged (history : History) : Prop where
  invariant : LeaseInvariant history.service
  current : ∀ id lease, history.service.instanceToLease.lookup id = some lease ↔
    Current history.log id lease
  issued : ∀ lease, Issued history.log lease → lease ≤ history.service.leaseSeq
  gone : ∀ lease ∈ history.rejected, lease ≤ history.service.leaseSeq ∧
    history.service.leaseToInstance.lookup lease = none

theorem logged_init : Logged {} where
  invariant := leaseInvariant_init
  current := by simp [Current]
  issued := by simp [Issued]
  gone := by simp

theorem keepAlive_code : (service.keepAlive lease now).1.code =
    if (service.leaseToInstance.lookup lease).isSome then .ok else .notFound := by
  simp only [Service.keepAlive]
  cases service.leaseToInstance.lookup lease <;> rfl

variable {history next : History}

theorem Logged.acceptsCurrent (logged : Logged history) : AcceptsCurrent history where
  invariant := logged.invariant
  accepts := by
    intro lease now
    rw [keepAlive_code]
    simp only [← logged.current, ← logged.invariant.inverse]
    cases history.service.leaseToInstance.lookup lease <;> simp
  rejects := by
    intro lease member now
    rw [keepAlive_code, (logged.gone lease member).2]
    rfl

theorem current_registered {log : List LogEntry} {other : String} {issued : Int} :
    Current (.registered other issued :: log) id lease ↔
      if id = other then issued = lease else Current log id lease := by
  by_cases same : id = other
  · simp [Current, LogEntry.instanceId, same]
  · simp [Current, LogEntry.instanceId, same, Ne.symm same]

theorem current_removed {log : List LogEntry} {other : String} :
    Current (.removed other :: log) id lease ↔ id ≠ other ∧ Current log id lease := by
  by_cases same : id = other
  · simp [Current, LogEntry.instanceId, same]
  · simp [Current, LogEntry.instanceId, same, Ne.symm same]

theorem Logged.register (logged : Logged history) (ep : Endpoint) (now : Int) :
    Logged { history with
      service := (history.service.register ep now).2
      log := .registered ep.instanceId (history.service.leaseSeq + 1) :: history.log } where
  invariant := logged.invariant.register
  current := by
    intro id lease
    rw [current_registered]
    simp only [Service.register, Service.broadcastEvent, Table.lookup_insert_ite]
    by_cases same : id = ep.instanceId
    · simp [same]
    · rw [if_neg same, if_neg same]
      exact logged.current id lease
  issued := by
    intro lease issued
    change lease ≤ history.service.leaseSeq + 1
    obtain ⟨entry, member, returned⟩ := issued
    rcases List.mem_cons.mp member with rfl | earlier
    · cases returned
      exact Int.le_refl _
    · have bound := logged.issued lease ⟨entry, earlier, returned⟩
      omega
  gone := by
    intro lease member
    obtain ⟨bound, absent⟩ := logged.gone lease member
    have old : lease ≠ history.service.leaseSeq + 1 := by omega
    simp only [Service.register, Service.broadcastEvent, Table.lookup_insert_ite, if_neg old]
    refine ⟨by omega, ?_⟩
    rw [logged.invariant.lookup_leasesWithout, absent]
    rfl

theorem Logged.removed (logged : Logged history) (id : String) :
    Logged { history with
      service := history.service.removeInstanceLocked id
      log := .removed id :: history.log } where
  invariant := logged.invariant.removeInstanceLocked
  current := by
    intro other lease
    rw [current_removed, Service.removeInstanceLocked_instanceToLease logged.invariant.leased]
    by_cases same : other = id
    · simp [same]
    · simp only [same, if_false, ne_eq, not_false_eq_true, true_and]
      exact logged.current other lease
  issued := by
    intro lease issued
    rw [Service.removeInstanceLocked_leaseSeq]
    obtain ⟨entry, member, returned⟩ := issued
    rcases List.mem_cons.mp member with rfl | earlier
    · contradiction
    · exact logged.issued lease ⟨entry, earlier, returned⟩
  gone := by
    intro lease member
    obtain ⟨bound, absent⟩ := logged.gone lease member
    refine ⟨by rwa [Service.removeInstanceLocked_leaseSeq], ?_⟩
    cases found : history.service.endpoints.lookup id with
    | none => rwa [Service.removeInstanceLocked_absent found]
    | some ep =>
        simp only [Service.removeInstanceLocked, found]
        rw [logged.invariant.lookup_leasesWithout, absent]
        rfl

theorem Logged.gc (logged : Logged history) (ids : List String) :
    Logged { history with
      service := ids.foldl Service.removeInstanceLocked history.service
      log := ids.foldl (fun log id => .removed id :: log) history.log } := by
  induction ids generalizing history with
  | nil => exact logged
  | cons id rest ih => exact ih (logged.removed id)

theorem Logged.keepAlive (logged : Logged history) (lease now : Int) :
    Logged { history with service := (history.service.keepAlive lease now).2 } := by
  have others : (history.service.keepAlive lease now).2.instanceToLease =
        history.service.instanceToLease ∧
      (history.service.keepAlive lease now).2.leaseToInstance =
        history.service.leaseToInstance ∧
      (history.service.keepAlive lease now).2.leaseSeq = history.service.leaseSeq := by
    simp only [Service.keepAlive]
    cases history.service.leaseToInstance.lookup lease <;> exact ⟨rfl, rfl, rfl⟩
  obtain ⟨instanceToLease, leaseToInstance, leaseSeq⟩ := others
  exact {
    invariant := logged.invariant.keepAlive
    current := by
      rw [instanceToLease]
      exact logged.current
    issued := by
      rw [leaseSeq]
      exact logged.issued
    gone := by
      rw [leaseSeq, leaseToInstance]
      exact logged.gone }

theorem Logged.after (logged : Logged history) (event : Event) : Logged (history.after event) := by
  cases event with
  | register ep now => exact logged.register ep now
  | deregister id => exact logged.removed id
  | gc now => exact logged.gc _
  | keepAlive lease now =>
      have kept := logged.keepAlive lease now
      simp only [History.after]
      split
      · rename_i rejected
        refine { kept with gone := ?_ }
        intro other member
        rcases List.mem_cons.mp member with rfl | earlier
        · have absent : history.service.leaseToInstance.lookup other = none := by
            cases held : history.service.leaseToInstance.lookup other with
            | none => rfl
            | some id => simp [keepAlive_code, held] at rejected
          simp only [Service.after, Service.keepAlive, absent]
          exact ⟨logged.issued other rejected.2, trivial⟩
        · exact kept.gone other earlier
      · exact kept
  | watch stream filter => exact { logged with invariant := { logged.invariant with } }
  | write stream => exact { logged with invariant := { logged.invariant with } }
  | unwatch stream => exact { logged with invariant := { logged.invariant with } }

theorem Logged.step {event : Event} (logged : Logged history)
    (stepped : History.machine.step history event = some next) : Logged next := by
  cases stepped
  exact logged.after event

/-- In every state that the registry reaches, the four maps agree, KeepAlive
accepts the current leases and no others, and rejected leases stay rejected. -/
theorem lease_invariant_always (events : List Event) :
    History.machine.Always AcceptsCurrent {} events :=
  (Machine.always_of_step Logged logged_init (fun _ _ _ logged stepped => logged.step stepped)).mono
    (fun _ logged => logged.acceptsCurrent)

end MuduoIm.Registry
