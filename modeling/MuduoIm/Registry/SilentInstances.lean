import MuduoIm.Registry.Leases

namespace MuduoIm.Registry

open MuduoIm.Data MuduoIm.Transition

/-! # A scan removes the silent instances

The clock value of a scan is read before the mutex is taken, so it may be older
than what is heard of an instance in between.  The times of the events are in
no order here.
-/

/-- The registry with what it heard of each instance, newest first: the time of
a Register, or of a KeepAlive that was accepted. -/
structure Hearing where
  service : Service := {}
  heard : List (String × Int) := []

namespace Hearing

def lastHeard (hearing : Hearing) (id : String) : Option Int :=
  (hearing.heard.find? (fun entry => entry.1 = id)).map Prod.snd

def after (hearing : Hearing) (event : Event) : Hearing where
  service := hearing.service.after event
  heard :=
    match event with
    | .register ep now => (ep.instanceId, now) :: hearing.heard
    | .keepAlive lease now =>
        match hearing.service.leaseToInstance.lookup lease with
        | some id => (id, now) :: hearing.heard
        | none => hearing.heard
    | _ => hearing.heard

def machine : Machine Hearing Event := ⟨fun hearing event => some (hearing.after event)⟩

/-- The instance is registered and was last heard of more than 30 whole seconds
before the scan. -/
def Silent (hearing : Hearing) (now : Int) (id : String) : Prop :=
  id ∈ hearing.service.endpoints ∧
    ∃ time, hearing.lastHeard id = some time ∧ ttlSec < (now - time).tdiv 1000000000

end Hearing

/-- The watcher with a REMOVED event for each of the endpoints that pass its
filter. -/
def Watcher.pushRemoved (watcher : Watcher) (eps : List Endpoint) : Watcher :=
  { watcher with queue := watcher.queue ++ (eps.filter (passes watcher.service)).map (WatchEvent.mk .removed) }

/-- What a scan with this clock value does.  `ids` are the removed instances in
the order of the scan, each of them once. -/
structure RemovesSilent (hearing : Hearing) (now : Int) : Prop where
  removed : ∀ id, hearing.Silent now id → id ∉ (hearing.service.gc now).endpoints ∧
    id ∉ (hearing.service.gc now).lastSeen ∧ id ∉ (hearing.service.gc now).instanceToLease
  rejected : ∀ id, hearing.Silent now id → ∀ lease, hearing.service.instanceToLease.lookup id = some lease →
    ∀ time, ((hearing.service.gc now).keepAlive lease time).1.code = .notFound
  kept : ∀ id, ¬ hearing.Silent now id →
    (hearing.service.gc now).endpoints.lookup id = hearing.service.endpoints.lookup id ∧
      (hearing.service.gc now).lastSeen.lookup id = hearing.service.lastSeen.lookup id ∧
      (hearing.service.gc now).instanceToLease.lookup id = hearing.service.instanceToLease.lookup id ∧
      ∀ lease, (hearing.service.gc now).leaseToInstance.lookup lease = some id ↔
        hearing.service.leaseToInstance.lookup lease = some id
  leaseSeq : (hearing.service.gc now).leaseSeq = hearing.service.leaseSeq
  queued : ∃ ids : List String, ids.Nodup ∧ (∀ id, id ∈ ids ↔ hearing.Silent now id) ∧
    (hearing.service.gc now).watchers = hearing.service.watchers.map fun watcher =>
      watcher.pushRemoved (ids.filterMap fun id => hearing.service.endpoints.lookup id)

/-- The instance is not deregistered, and each scan comes less than 31 seconds
after it was last heard of. -/
def HeardInTime (id : String) (hearing : Hearing) : Event → Prop
  | .deregister instanceId => instanceId ≠ id
  | .gc now => ∀ time, hearing.lastHeard id = some time → now - time < 31 * 1000000000
  | _ => True

/-- Once it has been heard of, the instance is registered. -/
def StaysRegistered (id : String) (hearing : Hearing) : Prop :=
  hearing.lastHeard id ≠ none → id ∈ hearing.service.endpoints

variable {service : Service} {ep : Endpoint} {id other : String} {ids : List String} {lease now : Int}

/-! ## One removal -/

namespace Service

theorem removeInstanceLocked_lastSeen (seen : ∀ id, id ∈ service.endpoints ↔ id ∈ service.lastSeen) (other : String) :
    (service.removeInstanceLocked id).lastSeen.lookup other =
      if other = id then none else service.lastSeen.lookup other := by
  cases found : service.endpoints.lookup id with
  | none =>
      have unseen : service.lastSeen.lookup id = none := by
        rw [AList.lookup_eq_none, ← seen, ← AList.lookup_eq_none, found]
      rw [removeInstanceLocked_absent found]
      split
      · rename_i same
        rw [same, unseen]
      · rfl
  | some ep =>
      simp only [removeInstanceLocked, found]
      exact Table.lookup_erase_ite

theorem removeInstanceLocked_watchers : (service.removeInstanceLocked id).watchers =
    service.watchers.map fun watcher => watcher.pushRemoved (service.endpoints.lookup id).toList := by
  cases found : service.endpoints.lookup id with
  | none =>
      rw [removeInstanceLocked_absent found]
      simp only [Option.toList_none, Watcher.pushRemoved, List.filter_nil, List.map_nil, List.append_nil, List.map_id']
  | some ep =>
      simp only [removeInstanceLocked, found, broadcastEvent, Option.toList_some]
      refine List.map_congr_left fun watcher _ => ?_
      rw [Watcher.push, Watcher.pushRemoved, List.filter_singleton]
      cases passes watcher.service ep with
      | true => rfl
      | false => simp only [Bool.false_eq_true, if_false, cond_false, List.map_nil, List.append_nil]

end Service

/-! ## A list of removals -/

theorem LeaseInvariant.foldl (invariant : LeaseInvariant service) :
    LeaseInvariant (ids.foldl Service.removeInstanceLocked service) := by
  induction ids generalizing service with
  | nil => exact invariant
  | cons first rest ih => exact ih invariant.removeInstanceLocked

/-- What each removal takes out of a map for its own instance only is taken out
for the listed ones. -/
theorem foldl_lookup {α : Type} (table : Service → String → Option α)
    (removal : ∀ service, LeaseInvariant service → ∀ id other,
      table (service.removeInstanceLocked id) other = if other = id then none else table service other)
    (invariant : LeaseInvariant service) :
    table (ids.foldl Service.removeInstanceLocked service) id = if id ∈ ids then none else table service id := by
  induction ids generalizing service with
  | nil => rw [List.foldl_nil, if_neg List.not_mem_nil]
  | cons first rest ih =>
      rw [List.foldl_cons, ih invariant.removeInstanceLocked, removal service invariant]
      by_cases later : id ∈ rest
      · rw [if_pos later, if_pos (List.mem_cons_of_mem _ later)]
      · simp only [later, if_false, List.mem_cons, or_false]

theorem pushRemoved_append (watcher : Watcher) (first second : List Endpoint) :
    (watcher.pushRemoved first).pushRemoved second = watcher.pushRemoved (first ++ second) := by
  simp only [Watcher.pushRemoved, List.filter_append, List.map_append, List.append_assoc]

theorem foldl_watchers (nodup : ids.Nodup) : (ids.foldl Service.removeInstanceLocked service).watchers =
    service.watchers.map fun watcher => watcher.pushRemoved (ids.filterMap fun id => service.endpoints.lookup id) := by
  induction ids generalizing service with
  | nil => simp only [List.foldl_nil, List.filterMap_nil, Watcher.pushRemoved, List.filter_nil, List.map_nil,
      List.append_nil, List.map_id']
  | cons first rest ih =>
      obtain ⟨absent, distinct⟩ := List.nodup_cons.mp nodup
      have others : (rest.filterMap fun id => (service.removeInstanceLocked first).endpoints.lookup id) =
          rest.filterMap fun id => service.endpoints.lookup id := by
        refine List.filterMap_congr fun id member => ?_
        have different : id ≠ first := fun same => absent (same ▸ member)
        rw [Service.removeInstanceLocked_endpoints, if_neg different]
      rw [List.foldl_cons, ih distinct, others, Service.removeInstanceLocked_watchers, List.map_map]
      refine List.map_congr_left fun watcher _ => ?_
      rw [Function.comp_apply, pushRemoved_append]
      congr 1
      rw [List.filterMap_cons]
      cases service.endpoints.lookup first with
      | none => rfl
      | some ep => rfl

/-! ## The scan -/

namespace Service

theorem mem_dead : id ∈ service.dead now ↔
    ∃ time, service.lastSeen.lookup id = some time ∧ ttlSec < (now - time).tdiv 1000000000 := by
  rw [dead, List.mem_map]
  constructor
  · rintro ⟨⟨key, time⟩, member, rfl⟩
    obtain ⟨listed, expired⟩ := List.mem_filter.mp member
    exact ⟨time, AList.mem_lookup_iff.mpr listed, of_decide_eq_true expired⟩
  · rintro ⟨time, found, expired⟩
    exact ⟨⟨id, time⟩, List.mem_filter.mpr ⟨AList.mem_lookup_iff.mp found, decide_eq_true expired⟩, rfl⟩

theorem nodup_dead : (service.dead now).Nodup := by
  refine List.Nodup.sublist (List.filter_sublist.map Sigma.fst) ?_
  exact service.lastSeen.nodupKeys

end Service

/-- The maps agree, and `lastSeen` is what was last heard of the registered
instances. -/
structure HeardInvariant (hearing : Hearing) : Prop where
  leases : LeaseInvariant hearing.service
  heard : ∀ id, id ∈ hearing.service.endpoints → hearing.service.lastSeen.lookup id = hearing.lastHeard id

variable {hearing next : Hearing}

theorem HeardInvariant.mem_dead (invariant : HeardInvariant hearing) :
    id ∈ hearing.service.dead now ↔ hearing.Silent now id := by
  rw [Service.mem_dead, Hearing.Silent]
  constructor
  · rintro ⟨time, found, expired⟩
    have registered : id ∈ hearing.service.endpoints := by
      rw [invariant.leases.seen, ← AList.lookup_isSome, found]
      rfl
    exact ⟨registered, time, (invariant.heard id registered).symm.trans found, expired⟩
  · rintro ⟨registered, time, heard, expired⟩
    exact ⟨time, (invariant.heard id registered).trans heard, expired⟩

theorem HeardInvariant.gc_endpoints (invariant : HeardInvariant hearing) :
    (hearing.service.gc now).endpoints.lookup id =
      if id ∈ hearing.service.dead now then none else hearing.service.endpoints.lookup id :=
  foldl_lookup (fun service id => service.endpoints.lookup id)
    (fun _ _ _ other => Service.removeInstanceLocked_endpoints other) invariant.leases

theorem HeardInvariant.gc_lastSeen (invariant : HeardInvariant hearing) :
    (hearing.service.gc now).lastSeen.lookup id =
      if id ∈ hearing.service.dead now then none else hearing.service.lastSeen.lookup id :=
  foldl_lookup (fun service id => service.lastSeen.lookup id)
    (fun _ leases _ other => Service.removeInstanceLocked_lastSeen leases.seen other) invariant.leases

theorem HeardInvariant.gc_instanceToLease (invariant : HeardInvariant hearing) :
    (hearing.service.gc now).instanceToLease.lookup id =
      if id ∈ hearing.service.dead now then none else hearing.service.instanceToLease.lookup id :=
  foldl_lookup (fun service id => service.instanceToLease.lookup id)
    (fun _ leases _ other => Service.removeInstanceLocked_instanceToLease leases.leased other) invariant.leases

theorem HeardInvariant.gc_leaseToInstance (invariant : HeardInvariant hearing) :
    (hearing.service.gc now).leaseToInstance.lookup lease = some id ↔
      id ∉ hearing.service.dead now ∧ hearing.service.leaseToInstance.lookup lease = some id := by
  have after : LeaseInvariant (hearing.service.gc now) := invariant.leases.foldl
  rw [after.inverse, invariant.gc_instanceToLease, invariant.leases.inverse]
  by_cases dead : id ∈ hearing.service.dead now
  · rw [if_pos dead]
    exact iff_of_false nofun fun given => given.1 dead
  · rw [if_neg dead]
    exact (and_iff_right dead).symm

theorem HeardInvariant.removesSilent (invariant : HeardInvariant hearing) (now : Int) : RemovesSilent hearing now := by
  constructor
  · intro id silent
    have dead := invariant.mem_dead.mpr silent
    refine ⟨?_, ?_, ?_⟩
    · rw [← AList.lookup_eq_none, invariant.gc_endpoints, if_pos dead]
    · rw [← AList.lookup_eq_none, invariant.gc_lastSeen, if_pos dead]
    · rw [← AList.lookup_eq_none, invariant.gc_instanceToLease, if_pos dead]
  · intro id silent lease held time
    have dead := invariant.mem_dead.mpr silent
    have erased : (hearing.service.gc now).leaseToInstance.lookup lease = none := by
      refine Option.eq_none_iff_forall_ne_some.mpr fun other found => ?_
      obtain ⟨alive, before⟩ := invariant.gc_leaseToInstance.mp found
      rw [(invariant.leases.inverse lease id).mpr held] at before
      cases before
      exact alive dead
    rw [keepAlive_code, erased]
    rfl
  · intro id alive
    have notDead : id ∉ hearing.service.dead now := fun dead => alive (invariant.mem_dead.mp dead)
    refine ⟨?_, ?_, ?_, fun lease => ?_⟩
    · rw [invariant.gc_endpoints, if_neg notDead]
    · rw [invariant.gc_lastSeen, if_neg notDead]
    · rw [invariant.gc_instanceToLease, if_neg notDead]
    · exact invariant.gc_leaseToInstance.trans (and_iff_right notDead)
  · exact Service.gc_of_removals (fun service => service.leaseSeq = hearing.service.leaseSeq) rfl
      fun _ _ same => Service.removeInstanceLocked_leaseSeq.trans same
  · exact ⟨hearing.service.dead now, Service.nodup_dead, fun _ => invariant.mem_dead, foldl_watchers Service.nodup_dead⟩

/-! ## Runs -/

theorem lastHeard_cons {service : Service} {heard : List (String × Int)} :
    Hearing.lastHeard { service, heard := (other, now) :: heard } id =
      if id = other then some now else Hearing.lastHeard { service, heard } id := by
  by_cases same : id = other
  · subst same
    simp only [Hearing.lastHeard, List.find?_cons_of_pos, decide_true, Option.map_some, if_true]
  · simp only [Hearing.lastHeard, List.find?_cons, Ne.symm same, decide_false, if_neg same]

theorem HeardInvariant.after (invariant : HeardInvariant hearing) (event : Event) :
    HeardInvariant (hearing.after event) := by
  refine ⟨invariant.leases.after event, fun id registered => ?_⟩
  cases event with
  | register ep time =>
      refine Eq.trans ?_ lastHeard_cons.symm
      refine Table.lookup_insert_ite.trans ?_
      by_cases same : id = ep.instanceId
      · rw [if_pos same, if_pos same]
      · rw [if_neg same, if_neg same]
        exact invariant.heard id ((AList.mem_insert _).mp registered |>.resolve_left same)
  | keepAlive lease time =>
      simp only [Hearing.after, Service.after, Service.keepAlive] at registered ⊢
      cases held : hearing.service.leaseToInstance.lookup lease with
      | none =>
          simp only [held] at registered ⊢
          exact invariant.heard id registered
      | some owner =>
          simp only [held] at registered ⊢
          rw [Table.lookup_insert_ite, lastHeard_cons]
          split
          · rfl
          · exact invariant.heard id registered
  | deregister instanceId =>
      have present : ((hearing.service.removeInstanceLocked instanceId).endpoints.lookup id).isSome :=
        AList.lookup_isSome.mpr registered
      rw [Service.removeInstanceLocked_endpoints] at present
      by_cases same : id = instanceId
      · rw [if_pos same] at present
        cases present
      · rw [if_neg same] at present
        refine Eq.trans ?_ (invariant.heard id (AList.lookup_isSome.mp present))
        refine (Service.removeInstanceLocked_lastSeen invariant.leases.seen id).trans (if_neg same)
  | gc time =>
      have present : ((hearing.service.gc time).endpoints.lookup id).isSome := AList.lookup_isSome.mpr registered
      rw [invariant.gc_endpoints] at present
      by_cases dead : id ∈ hearing.service.dead time
      · rw [if_pos dead] at present
        cases present
      · rw [if_neg dead] at present
        refine Eq.trans ?_ (invariant.heard id (AList.lookup_isSome.mp present))
        exact invariant.gc_lastSeen.trans (if_neg dead)
  | watch stream filter => exact invariant.heard id registered
  | write stream => exact invariant.heard id registered
  | unwatch stream => exact invariant.heard id registered

/-- More than 30 whole seconds are at least 31. -/
theorem expired_iff {elapsed : Int} : ttlSec < elapsed.tdiv 1000000000 ↔ 31 * 1000000000 ≤ elapsed := by
  rw [ttlSec]
  rcases Int.le_total 0 elapsed with past | future
  · rw [Int.tdiv_eq_ediv_of_nonneg past]
    omega
  · have truncated : 0 ≤ (-elapsed).tdiv 1000000000 := Int.tdiv_nonneg (Int.neg_nonneg_of_nonpos future) (by decide)
    rw [Int.neg_tdiv] at truncated
    omega

theorem StaysRegistered.after {event : Event} (stays : StaysRegistered id hearing) (invariant : HeardInvariant hearing)
    (heardInTime : HeardInTime id hearing event) : StaysRegistered id (hearing.after event) := by
  intro heard
  cases event with
  | register ep time =>
      refine (AList.mem_insert _).mpr ?_
      by_cases same : id = ep.instanceId
      · exact .inl same
      · exact .inr (stays fun unheard => heard (lastHeard_cons.trans ((if_neg same).trans unheard)))
  | keepAlive lease time =>
      simp only [Hearing.after, Service.after, Service.keepAlive] at heard ⊢
      cases held : hearing.service.leaseToInstance.lookup lease with
      | none =>
          simp only [held] at heard ⊢
          exact stays heard
      | some owner =>
          simp only [held] at heard ⊢
          by_cases same : id = owner
          · rw [same, invariant.leases.leased, ← AList.lookup_isSome, (invariant.leases.inverse lease owner).mp held]
            rfl
          · exact stays fun unheard => heard (lastHeard_cons.trans ((if_neg same).trans unheard))
  | deregister instanceId =>
      have registered := AList.lookup_isSome.mpr (stays heard)
      rw [← AList.lookup_isSome]
      refine Eq.trans (congrArg Option.isSome ?_) registered
      exact (Service.removeInstanceLocked_endpoints id).trans (if_neg (Ne.symm heardInTime))
  | gc time =>
      have alive : ¬ hearing.Silent time id := by
        rintro ⟨_, last, lastHeard, expired⟩
        have late := expired_iff.mp expired
        have early := heardInTime last lastHeard
        omega
      have registered := AList.lookup_isSome.mpr (stays heard)
      rw [← AList.lookup_isSome]
      exact (congrArg Option.isSome ((invariant.removesSilent time).kept id alive).1).trans registered
  | watch stream filter => exact stays heard
  | write stream => exact stays heard
  | unwatch stream => exact stays heard

/-- In every state that is reached a scan removes the silent instances and
nothing else, and an instance that is heard in time before every scan stays. -/
theorem gc_removes_silent (events : List Event) :
    Hearing.machine.Always (fun hearing => ∀ now, RemovesSilent hearing now) {} events ∧
      ∀ id, Hearing.machine.Meets (HeardInTime id) {} events →
        Hearing.machine.Always (StaysRegistered id) {} events := by
  have initial : HeardInvariant {} :=
    ⟨leaseInvariant_init, fun id registered => absurd registered (AList.notMem_empty id)⟩
  constructor
  · have always : Hearing.machine.Always HeardInvariant {} events := by
      refine Machine.always_of_step _ initial fun hearing event next invariant stepped => ?_
      cases stepped
      exact invariant.after event
    exact always.mono fun hearing invariant now => invariant.removesSilent now
  · intro id met
    have always :
        Hearing.machine.Always (fun hearing => HeardInvariant hearing ∧ StaysRegistered id hearing) {} events := by
      refine Machine.always_of_meets _ ⟨initial, fun heard => absurd rfl heard⟩ ?_ met
      rintro hearing event next ⟨invariant, stays⟩ heardInTime stepped
      cases stepped
      exact ⟨invariant.after event, stays.after invariant heardInTime⟩
    exact always.mono fun hearing held => held.2

/-- A scan that reads the clock, and waits for the mutex while the instance is
heard of. -/
private def keptAlive : List Event :=
  [.register { instanceId := "a", service := "gateway", addr := "10.0.0.1:9000" } 0, .gc 30999999999,
    .keepAlive 1 31000000000, .gc 30000000000, .gc 61999999999]

theorem kept_alive_stays : Hearing.machine.Always (StaysRegistered "a") {} keptAlive := by
  refine (gc_removes_silent keptAlive).2 "a" ?_
  refine .cons rfl trivial <| .cons rfl ?_ <| .cons rfl trivial <| .cons rfl ?_ <| .cons rfl ?_ trivial
  · intro time heard
    cases heard
    decide
  · intro time heard
    cases heard
    decide
  · intro time heard
    cases heard
    decide

end MuduoIm.Registry
