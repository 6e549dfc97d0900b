import MuduoIm.Registry.Service

namespace MuduoIm.Registry

open MuduoIm.Data MuduoIm.Transition

/-! # Replaying a Watch

A watcher that applies its events in order should hold what List returns.  A
Register that overwrites an entry is announced to the watchers of the new
service only.
-/

def apply (table : Table String Endpoint) (event : WatchEvent) : Table String Endpoint :=
  match event.type with
  | .removed => table.erase event.ep.instanceId
  | _ => table.insert event.ep.instanceId event.ep

def replay (events : List WatchEvent) : Table String Endpoint := events.foldl apply ∅

def machine : Machine Service Event := ⟨fun service event => some (service.after event)⟩

/-- Each watcher's events replay to the endpoints that List returns for its
service, each under its instance id. -/
def ReplaysList (service : Service) : Prop :=
  ∀ watcher ∈ service.watchers, ∀ id ep,
    (replay watcher.events).lookup id = some ep ↔
      ep ∈ service.list watcher.service ∧ ep.instanceId = id

/-- A Register that reuses an instance id does not take the entry out of the
service of an open watcher. -/
def KeepsService (service : Service) : Event → Prop
  | .register ep _ => ∀ watcher ∈ service.watchers, ∀ old,
      service.endpoints.lookup ep.instanceId = some old →
        passes watcher.service old = true → passes watcher.service ep = true
  | _ => True

/-! ## Events of a watcher -/

variable {watcher : Watcher} {event : WatchEvent} {ep : Endpoint} {id : String} {now : Int}

theorem push_service : (watcher.push event).service = watcher.service := by
  simp only [Watcher.push]
  split <;> rfl

theorem push_events : (watcher.push event).events =
    if passes watcher.service event.ep then watcher.events ++ [event] else watcher.events := by
  simp only [Watcher.push]
  split
  · exact (List.append_assoc _ _ _).symm
  · rfl

theorem replay_append {events : List WatchEvent} :
    replay (events ++ [event]) = apply (replay events) event := by
  simp only [replay, List.foldl_append, List.foldl_cons, List.foldl_nil]

/-- The snapshot that a new watcher is sent. -/
theorem lookup_snapshot {eps : List Endpoint} {table : Table String Endpoint}
    (distinct : (eps.map Endpoint.instanceId).Nodup) :
    ((eps.map (fun ep => ⟨.added, ep⟩)).foldl apply table).lookup id = some ep ↔
      ep ∈ eps ∧ ep.instanceId = id ∨
        table.lookup id = some ep ∧ ∀ other ∈ eps, other.instanceId ≠ id := by
  induction eps generalizing table with
  | nil => simp
  | cons first rest ih =>
      obtain ⟨fresh, later⟩ := List.nodup_cons.mp distinct
      have unrepeated : ∀ other ∈ rest, other.instanceId ≠ first.instanceId :=
        fun other member same => fresh (same ▸ List.mem_map_of_mem member)
      simp only [List.map_cons, List.foldl_cons, ih later, apply, Table.lookup_insert_ite,
        List.mem_cons, forall_eq_or_imp]
      by_cases same : id = first.instanceId
      · subst same
        simp only [if_true, Option.some.injEq, ne_eq, not_true_eq_false, false_and, and_false,
          or_false]
        constructor
        · intro given
          rcases given with ⟨member, named⟩ | ⟨rfl, _⟩
          · exact absurd named (unrepeated ep member)
          · exact ⟨.inl rfl, rfl⟩
        · intro given
          obtain ⟨rfl | member, named⟩ := given
          · exact .inr ⟨rfl, unrepeated⟩
          · exact absurd named (unrepeated ep member)
      · have other : first.instanceId ≠ id := Ne.symm same
        rw [if_neg same]
        constructor
        · intro given
          rcases given with ⟨member, named⟩ | ⟨found, absent⟩
          · exact .inl ⟨.inr member, named⟩
          · exact .inr ⟨found, other, absent⟩
        · intro given
          rcases given with ⟨rfl | member, named⟩ | ⟨found, _, absent⟩
          · exact absurd named other
          · exact .inl ⟨member, named⟩
          · exact .inr ⟨found, absent⟩

/-! ## The replay against the map -/

/-- Every entry lies under its own instance id. -/
def Keyed (service : Service) : Prop :=
  ∀ id ep, service.endpoints.lookup id = some ep → ep.instanceId = id

/-- The replay of each watcher is the map of the endpoints, filtered. -/
def Mirrors (service : Service) : Prop :=
  ∀ watcher ∈ service.watchers, ∀ id,
    (replay watcher.events).lookup id =
      (service.endpoints.lookup id).filter (passes watcher.service)

variable {service : Service}

theorem Keyed.mem_list (keyed : Keyed service) {filter : String} :
    ep ∈ service.list filter ∧ ep.instanceId = id ↔
      (service.endpoints.lookup id).filter (passes filter) = some ep := by
  rw [Service.list, Table.mem_select, Option.filter_eq_some_iff]
  constructor
  · intro given
    obtain ⟨⟨⟨key, found⟩, passed⟩, named⟩ := given
    have same : key = id := (keyed key ep found).symm.trans named
    exact ⟨same ▸ found, passed⟩
  · intro given
    exact ⟨⟨⟨id, given.1⟩, given.2⟩, keyed id ep given.1⟩

theorem Keyed.replaysList_iff (keyed : Keyed service) :
    ReplaysList service ↔ Mirrors service := by
  simp only [ReplaysList, Mirrors, keyed.mem_list]
  refine forall₂_congr (fun watcher _ => forall_congr' (fun id => ?_))
  exact ⟨Option.ext, fun same ep => by rw [same]⟩

theorem Keyed.distinct (keyed : Keyed service) {filter : String} :
    ((service.list filter).map Endpoint.instanceId).Nodup := by
  have named : (service.endpoints.entries.map Sigma.snd).map Endpoint.instanceId =
      service.endpoints.keys := by
    rw [List.map_map, AList.keys, List.keys]
    refine List.map_congr_left (fun entry member => ?_)
    exact keyed entry.1 entry.2 (AList.mem_lookup_iff.mpr member)
  have whole : ((service.endpoints.entries.map Sigma.snd).map Endpoint.instanceId).Nodup := by
    rw [named]
    exact service.endpoints.keys_nodup
  exact whole.sublist ((List.filter_sublist).map Endpoint.instanceId)

theorem Keyed.register (keyed : Keyed service) : Keyed (service.register ep now).2 := by
  intro id other found
  simp only [Service.register, Service.broadcastEvent, Table.lookup_insert_ite] at found
  split at found
  · rename_i same
    cases found
    exact same.symm
  · exact keyed id other found

theorem Keyed.removeInstanceLocked (keyed : Keyed service) :
    Keyed (service.removeInstanceLocked id) := by
  intro other ep found
  rw [Service.removeInstanceLocked_endpoints] at found
  split at found
  · contradiction
  · exact keyed other ep found

theorem Keyed.after (keyed : Keyed service) (event : Event) : Keyed (service.after event) := by
  cases event with
  | register ep now => exact keyed.register
  | deregister id => exact keyed.removeInstanceLocked
  | gc now => exact Service.gc_of_removals Keyed keyed (fun _ _ held => held.removeInstanceLocked)
  | keepAlive lease now =>
      simp only [Service.after, Service.keepAlive]
      split <;> exact keyed
  | watch stream filter => exact keyed
  | write stream => exact keyed
  | unwatch stream => exact keyed

/-- A removal is announced to the watchers that hold the entry. -/
theorem Mirrors.removeInstanceLocked (mirrors : Mirrors service) (keyed : Keyed service) :
    Mirrors (service.removeInstanceLocked id) := by
  cases found : service.endpoints.lookup id with
  | none =>
      rw [Service.removeInstanceLocked_absent found]
      exact mirrors
  | some ep =>
      have named := keyed id ep found
      intro pushed member other
      rw [Service.removeInstanceLocked_endpoints]
      simp only [Service.removeInstanceLocked, found, Service.broadcastEvent] at member
      obtain ⟨watcher, listed, rfl⟩ := List.mem_map.mp member
      have before := mirrors watcher listed other
      rw [push_service, push_events]
      by_cases told : passes watcher.service ep = true
      · rw [if_pos told, replay_append]
        simp only [apply, Table.lookup_erase_ite, named]
        split
        · rfl
        · exact before
      · rw [if_neg told, before]
        split
        · rename_i same
          rw [same, found, Option.filter_some, if_neg told, Option.filter_none]
        · rfl

/-- Register keeps the replays exact for the watchers whose service the entry
does not leave, and for no others. -/
theorem mirrors_register_iff (mirrors : Mirrors service) :
    Mirrors (service.register ep now).2 ↔ KeepsService service (.register ep now) := by
  have exactly (watcher : Watcher) (listed : watcher ∈ service.watchers) (id : String) :
      (replay (watcher.push ⟨.added, ep⟩).events).lookup id =
          ((service.register ep now).2.endpoints.lookup id).filter
            (passes (watcher.push ⟨.added, ep⟩).service) ↔
        (id = ep.instanceId → ∀ old, service.endpoints.lookup ep.instanceId = some old →
          passes watcher.service old = true → passes watcher.service ep = true) := by
    have before := mirrors watcher listed id
    simp only [push_service, push_events, Service.register, Service.broadcastEvent,
      Table.lookup_insert_ite]
    by_cases told : passes watcher.service ep = true
    · rw [if_pos told, replay_append]
      simp only [apply, Table.lookup_insert_ite, told, implies_true, iff_true]
      split
      · rw [Option.filter_some, if_pos told]
      · exact before
    · rw [if_neg told, before]
      by_cases same : id = ep.instanceId
      · subst same
        simp [Option.filter_some, told]
      · simp [same]
  constructor
  · intro after watcher listed old found passed
    have pushed := List.mem_map_of_mem (f := fun watcher => watcher.push ⟨.added, ep⟩) listed
    exact (exactly watcher listed ep.instanceId).mp (after _ pushed ep.instanceId) rfl old found passed
  · intro keeps pushed member id
    obtain ⟨watcher, listed, rfl⟩ := List.mem_map.mp member
    exact (exactly watcher listed id).mpr (fun _ => keeps watcher listed)

theorem Mirrors.watch (mirrors : Mirrors service) (keyed : Keyed service) (stream : Nat)
    (filter : String) : Mirrors (service.watch stream filter) := by
  intro watcher member id
  rcases List.mem_append.mp member with earlier | opened
  · exact mirrors watcher earlier id
  · rw [List.mem_singleton.mp opened]
    refine Option.ext (fun ep => ?_)
    change (((service.list filter).map (fun ep => ⟨.added, ep⟩)).foldl apply ∅).lookup id =
      some ep ↔ (service.endpoints.lookup id).filter (passes filter) = some ep
    rw [lookup_snapshot keyed.distinct, keyed.mem_list]
    simp

theorem write_events {stream : Nat} (member : watcher ∈ (service.write stream).watchers) :
    ∃ before ∈ service.watchers,
      watcher.service = before.service ∧ watcher.events = before.events := by
  obtain ⟨before, listed, rfl⟩ := List.mem_map.mp member
  refine ⟨before, listed, ?_⟩
  split
  · refine ⟨rfl, ?_⟩
    simp only [Watcher.events]
    cases before.queue <;> simp
  · exact ⟨rfl, rfl⟩

theorem Mirrors.after (mirrors : Mirrors service) (keyed : Keyed service) (event : Event)
    (other : ∀ ep now, event ≠ .register ep now) : Mirrors (service.after event) := by
  cases event with
  | register ep now => exact absurd rfl (other ep now)
  | deregister id => exact mirrors.removeInstanceLocked keyed
  | gc now =>
      have both : Mirrors (service.gc now) ∧ Keyed (service.gc now) :=
        Service.gc_of_removals (fun current => Mirrors current ∧ Keyed current)
          ⟨mirrors, keyed⟩ (fun _ _ held =>
            ⟨held.1.removeInstanceLocked held.2, held.2.removeInstanceLocked⟩)
      exact both.1
  | keepAlive lease now =>
      simp only [Service.after, Service.keepAlive]
      split <;> exact mirrors
  | watch stream filter => exact mirrors.watch keyed stream filter
  | write stream =>
      intro watcher member id
      obtain ⟨before, listed, service, events⟩ := write_events member
      rw [service, events]
      exact mirrors before listed id
  | unwatch stream =>
      exact fun watcher member => mirrors watcher (List.mem_filter.mp member).1

/-- Every watcher's events replay to List throughout a run exactly if no
Register of the run takes an entry out of the service of an open watcher. -/
theorem replays_list_iff (events : List Event) :
    machine.Always ReplaysList {} events ↔ machine.Meets KeepsService {} events := by
  refine Machine.always_iff_meets Keyed (by simp [ReplaysList]) (by simp [Keyed]) ?_ ?_
  · intro service event next keyed stepped
    cases stepped
    exact keyed.after event
  · intro service event next keyed replays stepped
    cases stepped
    have mirrors := keyed.replaysList_iff.mp replays
    change ReplaysList (service.after event) ↔ _
    rw [(keyed.after event).replaysList_iff]
    cases event with
    | register ep now => exact mirrors_register_iff mirrors
    | deregister id => exact iff_of_true (mirrors.after keyed _ nofun) trivial
    | keepAlive lease now => exact iff_of_true (mirrors.after keyed _ nofun) trivial
    | gc now => exact iff_of_true (mirrors.after keyed _ nofun) trivial
    | watch stream filter => exact iff_of_true (mirrors.after keyed _ nofun) trivial
    | write stream => exact iff_of_true (mirrors.after keyed _ nofun) trivial
    | unwatch stream => exact iff_of_true (mirrors.after keyed _ nofun) trivial

/-! ## An instance that changes its service -/

private def changesService : List Event :=
  [.watch 0 "logic",
    .register { instanceId := "i1", service := "logic", addr := "10.0.0.1:9000" } 0,
    .register { instanceId := "i1", service := "gateway", addr := "10.0.0.1:9000" } 1]

theorem changed_service_stays_in_replay :
    ∃ service, machine.run {} changesService = some service ∧ service.list "logic" = [] ∧
      ¬ ReplaysList service := by
  refine ⟨_, rfl, by decide, fun replays => ?_⟩
  have listed := (replays _ (List.mem_singleton_self _) "i1"
    { instanceId := "i1", service := "logic", addr := "10.0.0.1:9000" }).mp (by decide)
  exact absurd listed.1 (by decide)

end MuduoIm.Registry
