import Mathlib.Data.Finset.Filter
import MuduoIm.Gateway.ConsistentHashRing
import MuduoIm.Gateway.Retry

namespace MuduoIm.Gateway

open MuduoIm.Data MuduoIm.Registry ConsistentHashRing

/-! # The rings of the logic client pool

The rings follow the clients: one ring has all of them, and one for each zone
has those with its tag.  They choose the client that a frame is sent to first.
-/

/-- The tables together with `ring_` and `ringByAz_`. -/
structure RoutedPool where
  tables : LogicClientPool := {}
  ring : Ring := OrderedMap.empty
  ringByAz : Table String Ring := ∅

namespace RoutedPool

variable (hash : String → Hash)

/-- The ring of a zone; `ringByAz_[az]` makes an empty one where there is none. -/
def zoneRing (pool : RoutedPool) (az : String) : Ring :=
  (pool.ringByAz.lookup az).getD OrderedMap.empty

def addEndpoint (pool : RoutedPool) (ep : Endpoint) (az : String) : RoutedPool :=
  if ep.addr ∈ pool.tables.clients then pool
  else {
    tables := pool.tables.addEndpoint ep az
    ring := addNode hash 200 pool.ring ep.addr
    ringByAz :=
      if az ≠ "" then pool.ringByAz.insert az (addNode hash 200 (pool.zoneRing az) ep.addr)
      else pool.ringByAz }

def removeEndpoint (pool : RoutedPool) (instanceId : String) : RoutedPool :=
  match pool.tables.instanceToAddr.lookup instanceId with
  | none => pool
  | some addr =>
      let tables := pool.tables.removeEndpoint instanceId
      if addr ∈ pool.tables.clients then {
        tables
        ring := removeNode pool.ring addr
        ringByAz :=
          match pool.tables.addrToAz.lookup addr with
          | none => pool.ringByAz
          | some az =>
              match pool.ringByAz.lookup az with
              | none => pool.ringByAz
              | some ring => pool.ringByAz.insert az (removeNode ring addr) }
      else { pool with tables }

/-- The address that the rings give for a key, none if there is no instance. -/
def primaryAddr (pool : RoutedPool) (localAz routingKey : String) : Option String :=
  let near :=
    if localAz ≠ "" ∧ (pool.zoneRing localAz).entries ≠ [] then
      get hash (pool.zoneRing localAz) routingKey
    else ""
  if near = "" then
    if pool.ring.entries = [] then none else some (get hash pool.ring routingKey)
  else some near

/-- What a frame meets before its first attempt. -/
inductive Selection where
  | noInstance
  | noClient (addr : String)
  | client (addr : String)
deriving DecidableEq

def select (pool : RoutedPool) (localAz routingKey : String) : Selection :=
  match pool.primaryAddr hash localAz routingKey with
  | none => .noInstance
  | some addr => if addr ∈ pool.tables.clients then .client addr else .noClient addr

inductive Call where
  | add (ep : Endpoint) (az : String)
  | remove (instanceId : String)

def apply (pool : RoutedPool) : Call → RoutedPool
  | .add ep az => pool.addEndpoint hash ep az
  | .remove instanceId => pool.removeEndpoint instanceId

def run (calls : List Call) : RoutedPool := calls.foldl (apply hash) {}

/-- The addresses whose labels have been in use. -/
def usedAddrs (calls : List Call) : Finset String :=
  (calls.filterMap (fun call =>
    match call with
    | .add ep _ => some ep.addr
    | .remove _ => none)).toFinset

/-- The clients with the tag of a zone. -/
def zone (tables : LogicClientPool) (az : String) : Finset String :=
  tables.clients.filter (fun addr => tables.addrToAz.lookup addr = some az)

/-- The rings have the nodes of the tables, and each instance a client of its own. -/
structure Consistent (pool : RoutedPool) : Prop where
  ring : ConsistentHashRing.Represents hash 200 pool.ring pool.tables.clients
  zones : ∀ az, ConsistentHashRing.Represents hash 200 (pool.zoneRing az) (zone pool.tables az)
  tagged : ∀ addr az, pool.tables.addrToAz.lookup addr = some az →
    addr ∈ pool.tables.clients ∧ az ≠ ""
  instances : ∀ id addr, pool.tables.instanceToAddr.lookup id = some addr →
    addr ∈ pool.tables.clients
  injective : ∀ first second addr, pool.tables.instanceToAddr.lookup first = some addr →
    pool.tables.instanceToAddr.lookup second = some addr → first = second

variable {hash} {pool : RoutedPool} {ep : Endpoint} {az : String}

theorem consistent_empty : Consistent hash {} where
  ring := represents_empty
  zones := by
    intro az
    exact represents_empty
  tagged := by simp
  instances := by simp
  injective := by simp

/-- An assignment to `ringByAz` changes the ring of that zone only. -/
theorem zoneRing_insert {ring : Ring} {other : String} (tables : LogicClientPool) (whole : Ring) :
    zoneRing { tables, ring := whole, ringByAz := pool.ringByAz.insert az ring } other =
      if other = az then ring else pool.zoneRing other := by
  rw [zoneRing, Table.lookup_insert_ite]
  split
  · rfl
  · rfl

section

variable {tables : LogicClientPool}

/-! ## What an addition changes -/

theorem clients_add (fresh : ep.addr ∉ tables.clients) :
    (tables.addEndpoint ep az).clients = insert ep.addr tables.clients := by
  rw [LogicClientPool.addEndpoint, if_neg fresh]

theorem instanceToAddr_add (fresh : ep.addr ∉ tables.clients) (id : String) :
    (tables.addEndpoint ep az).instanceToAddr.lookup id =
      if id = ep.instanceId then some ep.addr else tables.instanceToAddr.lookup id := by
  rw [LogicClientPool.addEndpoint, if_neg fresh, Table.lookup_insert_ite]

theorem addrToAz_add (fresh : ep.addr ∉ tables.clients) (addr : String) :
    (tables.addEndpoint ep az).addrToAz.lookup addr =
      if az ≠ "" ∧ addr = ep.addr then some az else tables.addrToAz.lookup addr := by
  rw [LogicClientPool.addEndpoint, if_neg fresh]
  by_cases blind : az = ""
  · simp [blind]
  · simp [blind, Table.lookup_insert_ite]

theorem zone_add (fresh : ep.addr ∉ tables.clients) (untagged : tables.addrToAz.lookup ep.addr = none)
    (other : String) : zone (tables.addEndpoint ep az) other =
      if az ≠ "" ∧ other = az then insert ep.addr (zone tables other) else zone tables other := by
  ext addr
  simp only [zone, clients_add fresh, addrToAz_add fresh]
  by_cases same : addr = ep.addr
  · subst same
    by_cases here : az ≠ "" ∧ other = az
    · simp [here]
    · rw [if_neg here]
      simp [fresh, untagged]
      tauto
  · by_cases here : az ≠ "" ∧ other = az
    · simp [here, same]
    · rw [if_neg here]
      simp [same]

/-! ## What a removal changes -/

/-- The tables without an instance and its address. -/
def without (tables : LogicClientPool) (instanceId addr : String) : LogicClientPool where
  clients := tables.clients.erase addr
  instanceToAddr := tables.instanceToAddr.erase instanceId
  addrToAz := tables.addrToAz.erase addr

theorem removeEndpoint_eq {instanceId addr : String} (held : tables.instanceToAddr.lookup instanceId = some addr)
    (member : addr ∈ tables.clients) : tables.removeEndpoint instanceId = without tables instanceId addr := by
  simp only [LogicClientPool.removeEndpoint, held, if_pos member, without]

theorem zone_without (instanceId addr other : String) :
    zone (without tables instanceId addr) other = (zone tables other).erase addr := by
  ext client
  simp only [zone, without, Finset.mem_filter, Finset.mem_erase, Table.lookup_erase_ite]
  by_cases same : client = addr
  · simp [same]
  · simp [same]

end

theorem Consistent.untagged (consistent : Consistent hash pool) (fresh : ep.addr ∉ pool.tables.clients) :
    pool.tables.addrToAz.lookup ep.addr = none := by
  rw [Option.eq_none_iff_forall_ne_some]
  intro az tag
  exact fresh (consistent.tagged _ _ tag).1

theorem Consistent.addEndpoint (consistent : Consistent hash pool) (ep : Endpoint) (az : String)
    (collisionFree : Set.InjOn hash (labels 200 (insert ep.addr pool.tables.clients))) :
    Consistent hash (pool.addEndpoint hash ep az) := by
  rw [RoutedPool.addEndpoint]
  split
  next => exact consistent
  next fresh =>
    constructor
    case ring =>
      show ConsistentHashRing.Represents hash 200 _ (pool.tables.addEndpoint ep az).clients
      rw [clients_add fresh]
      exact consistent.ring.addNode collisionFree
    case zones =>
      intro other
      show ConsistentHashRing.Represents hash 200 _ (zone (pool.tables.addEndpoint ep az) other)
      rw [zone_add fresh (consistent.untagged fresh)]
      by_cases blind : az = ""
      · simp only [blind, ne_eq, not_true_eq_false, false_and, if_false]
        exact consistent.zones other
      · simp only [ne_eq, blind, not_false_eq_true, true_and, if_true]
        rw [zoneRing_insert]
        split
        next same =>
          rw [same]
          apply (consistent.zones az).addNode
          exact collisionFree.mono (labels_mono
            (Finset.insert_subset_insert _ (Finset.filter_subset _ _)))
        next => exact consistent.zones other
    case tagged =>
      intro addr other tagged
      rw [addrToAz_add fresh] at tagged
      rw [clients_add fresh, Finset.mem_insert]
      split at tagged
      next named =>
        cases tagged
        exact ⟨.inl named.2, named.1⟩
      next =>
        obtain ⟨member, named⟩ := consistent.tagged addr other tagged
        exact ⟨.inr member, named⟩
    case instances =>
      intro id addr held
      rw [instanceToAddr_add fresh] at held
      rw [clients_add fresh, Finset.mem_insert]
      split at held
      · exact .inl (Option.some.inj held).symm
      · exact .inr (consistent.instances id addr held)
    case injective =>
      intro first second addr held held'
      rw [instanceToAddr_add fresh] at held held'
      split at held
      next same =>
        split at held'
        next same' => exact same.trans same'.symm
        next =>
          cases held
          exact absurd (consistent.instances _ _ held') fresh
      next =>
        split at held'
        next =>
          cases held'
          exact absurd (consistent.instances _ _ held) fresh
        next => exact consistent.injective first second addr held held'

/-- A tagged client is on the ring of its zone, so that zone has one. -/
theorem Consistent.ringByAz_isSome (consistent : Consistent hash pool) {addr : String}
    (member : addr ∈ pool.tables.clients) (tag : pool.tables.addrToAz.lookup addr = some az) :
    ∃ ring, pool.ringByAz.lookup az = some ring := by
  cases found : pool.ringByAz.lookup az with
  | some ring => exact ⟨ring, rfl⟩
  | none =>
      have missing : pool.zoneRing az = OrderedMap.empty := by rw [zoneRing, found]; rfl
      have placed := (consistent.zones az (hash (label addr 0), addr)).mpr
        ⟨Finset.mem_filter.mpr ⟨member, tag⟩, 0, by decide, rfl⟩
      rw [missing] at placed
      cases placed

theorem Consistent.removeEndpoint (consistent : Consistent hash pool) (instanceId : String) :
    Consistent hash (pool.removeEndpoint instanceId) := by
  rw [RoutedPool.removeEndpoint]
  cases held : pool.tables.instanceToAddr.lookup instanceId with
  | none => exact consistent
  | some addr =>
      have member := consistent.instances _ _ held
      simp only [if_pos member, removeEndpoint_eq held member]
      have remaining (other : String) : addr ∉ zone pool.tables other →
          (zone pool.tables other).erase addr = zone pool.tables other :=
        Finset.erase_eq_of_notMem
      constructor
      case ring => exact consistent.ring.removeNode addr
      case zones =>
        intro other
        rw [zone_without]
        cases tag : pool.tables.addrToAz.lookup addr with
        | none =>
            rw [remaining other (by simp [zone, tag])]
            exact consistent.zones other
        | some az =>
            obtain ⟨ring, found⟩ := consistent.ringByAz_isSome member tag
            have current : pool.zoneRing az = ring := by rw [zoneRing, found]; rfl
            simp only [found]
            rw [zoneRing_insert]
            split
            next same =>
              rw [same, ← current]
              exact (consistent.zones az).removeNode addr
            next different =>
              rw [remaining other (by simp [zone, tag, Ne.symm different])]
              exact consistent.zones other
      case tagged =>
        intro client az tagged
        rw [without, Table.lookup_erase_ite] at tagged
        split at tagged
        next => cases tagged
        next different =>
          obtain ⟨listed, named⟩ := consistent.tagged client az tagged
          exact ⟨Finset.mem_erase.mpr ⟨different, listed⟩, named⟩
      case instances =>
        intro id client kept
        rw [without, Table.lookup_erase_ite] at kept
        split at kept
        next => cases kept
        next different =>
          refine Finset.mem_erase.mpr ⟨?_, consistent.instances id client kept⟩
          intro same
          rw [← same] at held
          exact different (consistent.injective id instanceId client kept held)
      case injective =>
        intro first second client kept kept'
        rw [without, Table.lookup_erase_ite] at kept kept'
        split at kept
        next => cases kept
        next =>
          split at kept'
          next => cases kept'
          next => exact consistent.injective first second client kept kept'

theorem clients_addEndpoint (pool : RoutedPool) (ep : Endpoint) (az : String) :
    (pool.addEndpoint hash ep az).tables.clients ⊆ insert ep.addr pool.tables.clients := by
  rw [RoutedPool.addEndpoint]
  split
  next => exact Finset.subset_insert _ _
  next fresh =>
    rw [LogicClientPool.addEndpoint, if_neg fresh]

theorem clients_removeEndpoint (pool : RoutedPool) (instanceId : String) :
    (pool.removeEndpoint instanceId).tables.clients ⊆ pool.tables.clients := by
  rw [RoutedPool.removeEndpoint]
  cases held : pool.tables.instanceToAddr.lookup instanceId with
  | none => exact Finset.Subset.refl _
  | some addr =>
      simp only [LogicClientPool.removeEndpoint, held]
      split
      next => exact Finset.erase_subset _ _
      next => exact Finset.Subset.refl _

theorem usedAddrs_append (calls : List Call) (call : Call) :
    usedAddrs calls ⊆ usedAddrs (calls ++ [call]) := by
  intro addr
  simp only [usedAddrs, List.filterMap_append, List.mem_toFinset, List.mem_append]
  exact Or.inl

theorem clients_run_subset (calls : List Call) :
    (run hash calls).tables.clients ⊆ usedAddrs calls := by
  induction calls using List.reverseRecOn with
  | nil => exact Finset.empty_subset _
  | append_singleton calls call ih =>
      rw [run, List.foldl_append]
      cases call with
      | add ep az =>
          refine (clients_addEndpoint _ ep az).trans (Finset.insert_subset ?_ ?_)
          · simp [usedAddrs]
          · exact ih.trans (usedAddrs_append calls _)
      | remove instanceId =>
          exact (clients_removeEndpoint _ instanceId).trans (ih.trans (usedAddrs_append calls _))

theorem consistent_run {calls : List Call}
    (collisionFree : Set.InjOn hash (labels 200 (usedAddrs calls))) :
    Consistent hash (run hash calls) := by
  induction calls using List.reverseRecOn with
  | nil => exact consistent_empty
  | append_singleton calls call ih =>
      have consistent := ih (collisionFree.mono (labels_mono (usedAddrs_append calls call)))
      rw [run, List.foldl_append]
      cases call with
      | add ep az =>
          apply consistent.addEndpoint
          apply collisionFree.mono (labels_mono (Finset.insert_subset ?_ ?_))
          · simp [usedAddrs]
          · exact (clients_run_subset calls).trans (usedAddrs_append calls _)
      | remove instanceId => exact consistent.removeEndpoint instanceId

/-! ## The first attempt -/

/-- A node has some entry on the ring. -/
def OnRing (ring : Ring) (node : String) : Prop := ∃ entry ∈ ring.entries, entry.2 = node

theorem onRing_iff {ring : Ring} {nodes : Finset String}
    (represents : ConsistentHashRing.Represents hash 200 ring nodes) (node : String) :
    OnRing ring node ↔ node ∈ nodes := by
  constructor
  · rintro ⟨entry, member, rfl⟩
    exact ((represents entry).mp member).1
  · intro member
    exact ⟨(hash (label node 0), node),
      (represents _).mpr ⟨member, 0, by decide, rfl⟩, rfl⟩

theorem entries_eq_nil_iff {ring : Ring} {nodes : Finset String}
    (represents : ConsistentHashRing.Represents hash 200 ring nodes) :
    ring.entries = [] ↔ nodes = ∅ := by
  rw [Finset.eq_empty_iff_forall_notMem, List.eq_nil_iff_forall_not_mem]
  constructor
  · intro empty node member
    obtain ⟨entry, listed, _⟩ := (onRing_iff represents node).mpr member
    exact empty entry listed
  · intro empty entry listed
    exact empty _ ((represents entry).mp listed).1

theorem get_mem_nodes {ring : Ring} {nodes : Finset String}
    (represents : ConsistentHashRing.Represents hash 200 ring nodes) (nonempty : nodes ≠ ∅)
    (key : String) : get hash ring key ∈ nodes := by
  rcases represents.get_mem key with member | ⟨_, empty | absurdly⟩
  · exact member
  · exact absurd empty nonempty
  · cases absurdly

/-- Without a node of the zone to try, the choice is that of the whole ring. -/
theorem Consistent.select_any (consistent : Consistent hash pool) {localAz routingKey : String}
    (fallback : pool.primaryAddr hash localAz routingKey =
      if pool.ring.entries = [] then none else some (get hash pool.ring routingKey)) :
    (pool.tables.clients = ∅ ∧ pool.select hash localAz routingKey = .noInstance) ∨
      ∃ addr ∈ pool.tables.clients, pool.select hash localAz routingKey = .client addr := by
  rw [select, fallback]
  by_cases empty : pool.tables.clients = ∅
  · rw [if_pos ((entries_eq_nil_iff consistent.ring).mpr empty)]
    exact .inl ⟨empty, rfl⟩
  · have member := get_mem_nodes consistent.ring empty routingKey
    rw [if_neg (fun none => empty ((entries_eq_nil_iff consistent.ring).mp none))]
    exact .inr ⟨_, member, if_pos member⟩

/-- A frame is sent to some client, in the zone if it has clients and no nameless one. -/
theorem Consistent.select_spec (consistent : Consistent hash pool) (localAz routingKey : String) :
    (pool.tables.clients = ∅ ∧ pool.select hash localAz routingKey = .noInstance) ∨
      ∃ addr ∈ pool.tables.clients, pool.select hash localAz routingKey = .client addr ∧
        (zone pool.tables localAz ≠ ∅ → "" ∉ zone pool.tables localAz →
          addr ∈ zone pool.tables localAz) := by
  have untagged : zone pool.tables "" = ∅ := by
    rw [Finset.eq_empty_iff_forall_notMem]
    intro addr member
    exact (consistent.tagged _ _ (Finset.mem_filter.mp member).2).2 rfl
  have zoneEmpty := entries_eq_nil_iff (consistent.zones localAz)
  by_cases tried : localAz ≠ "" ∧ (pool.zoneRing localAz).entries ≠ []
  · have member := get_mem_nodes (consistent.zones localAz)
      (fun empty => tried.2 (zoneEmpty.mpr empty)) routingKey
    by_cases nameless : get hash (pool.zoneRing localAz) routingKey = ""
    · have fallback : pool.primaryAddr hash localAz routingKey =
          if pool.ring.entries = [] then none else some (get hash pool.ring routingKey) := by
        simp only [primaryAddr, if_pos tried, if_pos nameless]
      refine (consistent.select_any fallback).imp_right ?_
      rintro ⟨addr, listed, selected⟩
      exact ⟨addr, listed, selected, fun _ absent => absurd (nameless ▸ member) absent⟩
    · have listed := (Finset.mem_filter.mp member).1
      refine .inr ⟨_, listed, ?_, fun _ _ => member⟩
      simp only [select, primaryAddr, if_pos tried, if_neg nameless, if_pos listed]
  · have fallback : pool.primaryAddr hash localAz routingKey =
        if pool.ring.entries = [] then none else some (get hash pool.ring routingKey) := by
      simp only [primaryAddr, if_neg tried, if_true]
    refine (consistent.select_any fallback).imp_right ?_
    rintro ⟨addr, listed, selected⟩
    refine ⟨addr, listed, selected, fun some _ => ?_⟩
    rw [not_and_or, not_not, not_not, zoneEmpty] at tried
    rcases tried with rfl | empty
    · exact absurd untagged some
    · exact absurd empty some

/-- Along any history, the rings have the nodes of the tables, and a frame is
first sent to a client of the local zone where there is one, unless one of them
has the empty address. -/
theorem routing_follows_clients {calls : List Call}
    (collisionFree : Set.InjOn hash (labels 200 (usedAddrs calls))) :
    (∀ addr, OnRing (run hash calls).ring addr ↔ addr ∈ (run hash calls).tables.clients) ∧
    (∀ az addr, OnRing ((run hash calls).zoneRing az) addr ↔
      addr ∈ (run hash calls).tables.clients ∧
        (run hash calls).tables.addrToAz.lookup addr = some az) ∧
    (∀ id addr, (run hash calls).tables.instanceToAddr.lookup id = some addr →
      addr ∈ (run hash calls).tables.clients) ∧
    (∀ first second addr, (run hash calls).tables.instanceToAddr.lookup first = some addr →
      (run hash calls).tables.instanceToAddr.lookup second = some addr → first = second) ∧
    ∀ localAz routingKey,
      ((run hash calls).tables.clients = ∅ ∧
          (run hash calls).select hash localAz routingKey = .noInstance) ∨
        ∃ addr ∈ (run hash calls).tables.clients,
          (run hash calls).select hash localAz routingKey = .client addr ∧
            (zone (run hash calls).tables localAz ≠ ∅ →
              "" ∉ zone (run hash calls).tables localAz →
                addr ∈ zone (run hash calls).tables localAz) := by
  have consistent := consistent_run collisionFree
  refine ⟨onRing_iff consistent.ring, ?_, consistent.instances, consistent.injective,
    consistent.select_spec⟩
  intro az addr
  rw [onRing_iff (consistent.zones az), zone, Finset.mem_filter]

def sampleCalls : List Call :=
  [.add ⟨"one", "logic", "a", 1, []⟩ "east", .add ⟨"two", "logic", "bb", 1, []⟩ "",
    .remove "two"]

theorem routing_follows_clients_sample :
    Set.InjOn sampleHash (labels 200 (usedAddrs sampleCalls)) ∧
      ∀ routingKey, (run sampleHash sampleCalls).select sampleHash "east" routingKey =
        .client "a" := by
  have collisionFree : Set.InjOn sampleHash (labels 200 (usedAddrs sampleCalls)) :=
    sampleHash_injOn (by decide) (by decide) (by decide)
  refine ⟨collisionFree, fun routingKey => ?_⟩
  have left : (run sampleHash sampleCalls).tables.clients = {"a"} := by decide
  rcases (routing_follows_clients collisionFree).2.2.2.2 "east" routingKey with
    ⟨empty, _⟩ | ⟨addr, listed, selected, _⟩
  · rw [left] at empty
    exact absurd empty (by decide)
  · rw [left, Finset.mem_singleton] at listed
    rw [selected, listed]

def namelessCalls : List Call :=
  [.add ⟨"one", "logic", "", 1, []⟩ "east", .add ⟨"two", "logic", "b", 1, []⟩ "west"]

/-- The client with the empty address is in the local zone, but its address
counts as none, so that a client of another zone is tried first. -/
theorem nameless_client_is_passed_over :
    Set.InjOn sampleHash (labels 200 (usedAddrs namelessCalls)) ∧
      "" ∈ zone (run sampleHash namelessCalls).tables "east" ∧
      (run sampleHash namelessCalls).select sampleHash "east" (label "b" 0) = .client "b" ∧
      "b" ∉ zone (run sampleHash namelessCalls).tables "east" := by
  have collisionFree : Set.InjOn sampleHash (labels 200 (usedAddrs namelessCalls)) :=
    sampleHash_injOn (by decide) (by decide) (by decide)
  have consistent := consistent_run collisionFree
  have near : zone (run sampleHash namelessCalls).tables "east" = {""} := by decide
  have clients : (run sampleHash namelessCalls).tables.clients = {"", "b"} := by decide
  have nameless : get sampleHash ((run sampleHash namelessCalls).zoneRing "east") (label "b" 0) = "" := by
    have member := get_mem_nodes (consistent.zones "east") (by rw [near]; decide) (label "b" 0)
    rw [near, Finset.mem_singleton] at member
    exact member
  have member : "b" ∈ (run sampleHash namelessCalls).tables.clients := by
    rw [clients]
    decide
  have whole : get sampleHash (run sampleHash namelessCalls).ring (label "b" 0) = "b" :=
    consistent.ring.get_label member (by decide)
  refine ⟨collisionFree, by rw [near]; decide, ?_, by rw [near]; decide⟩
  have filled : (run sampleHash namelessCalls).ring.entries ≠ [] := by
    rw [ne_eq, entries_eq_nil_iff consistent.ring, clients]
    exact Finset.insert_ne_empty _ _
  have fallback : (run sampleHash namelessCalls).primaryAddr sampleHash "east" (label "b" 0) =
      some "b" := by
    rw [primaryAddr, nameless, ite_self, if_pos rfl, if_neg filled, whole]
  rw [select, fallback]
  exact if_pos member

/-! ## The call of a frame -/

section

variable (codec : JsonCodec) (registries : String → Logic.GatewayRegistry)
variable (uid : Int) (payload : String)

variable (hash) in
/-- `handleMessage` with the choice of the rings. -/
def handleMessage (pool : RoutedPool) (localAz routingKey : String)
    (environment : Retry.Environment) (effects : Retry.Effects) : Retry.Result :=
  Retry.handleMessage codec registries uid payload pool.tables localAz
    { environment with primaryAddr := pool.primaryAddr hash localAz routingKey } effects

variable {codec registries uid payload}

/-- Without a client the call ends at once; otherwise the first attempt is made
at a client, and is the only one unless it is to be retried. -/
theorem Consistent.handleMessage_spec (consistent : Consistent hash pool)
    (localAz routingKey : String) (environment : Retry.Environment) (effects : Retry.Effects) :
    (pool.tables.clients = ∅ ∧
      pool.handleMessage hash codec registries uid payload localAz routingKey environment effects =
        { status := { code := .unavailable, message := "no logic instance" }, effects }) ∨
    ∃ addr ∈ pool.tables.clients, pool.select hash localAz routingKey = .client addr ∧
      ((environment.primary.status addr).retried = false →
        pool.handleMessage hash codec registries uid payload localAz routingKey environment effects =
          { status := environment.primary.status addr
            reply := Retry.replyOf codec registries uid payload addr environment.primary effects
            effects := Retry.serve codec registries uid payload addr environment.primary effects }) := by
  rcases consistent.select_spec localAz routingKey with ⟨empty, selected⟩ | ⟨addr, member, selected, _⟩
  · refine .inl ⟨empty, ?_⟩
    rw [select] at selected
    cases given : pool.primaryAddr hash localAz routingKey with
    | none => rw [handleMessage, given, Retry.handleMessage]
    | some addr =>
        rw [given] at selected
        simp only at selected
        split at selected <;> cases selected
  · refine .inr ⟨addr, member, selected, fun final => ?_⟩
    rw [select] at selected
    cases given : pool.primaryAddr hash localAz routingKey with
    | none =>
        rw [given] at selected
        cases selected
    | some first =>
        rw [given] at selected
        simp only at selected
        split at selected
        next =>
          cases selected
          rw [handleMessage, given, Retry.handleMessage]
          simp only [if_pos member, final, Bool.false_eq_true, if_false]
        next => cases selected

end

end RoutedPool

end MuduoIm.Gateway
