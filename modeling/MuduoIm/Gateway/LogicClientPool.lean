import Mathlib.Data.Finset.Insert
import Mathlib.Data.Finset.Erase
import MuduoIm.Registry.Service

namespace MuduoIm.Gateway

open MuduoIm.Data MuduoIm.Registry

/-! # The tables of the logic client pool

The clients are keyed by address, removals name an instance, and one table
leads from the instance to the address.  The hash rings follow the clients in a
model on top of this one.
-/

structure LogicClientPool where
  clients : Finset String := ∅
  instanceToAddr : Table String String := ∅
  addrToAz : Table String String := ∅

namespace LogicClientPool

/-- An address that has a client already is not entered again. -/
def addEndpoint (pool : LogicClientPool) (ep : Endpoint) (az : String) : LogicClientPool :=
  if ep.addr ∈ pool.clients then pool
  else {
    clients := insert ep.addr pool.clients
    instanceToAddr := pool.instanceToAddr.insert ep.instanceId ep.addr
    addrToAz := if az ≠ "" then pool.addrToAz.insert ep.addr az else pool.addrToAz }

def removeEndpoint (pool : LogicClientPool) (instanceId : String) : LogicClientPool :=
  match pool.instanceToAddr.lookup instanceId with
  | none => pool
  | some addr =>
      let pool := { pool with instanceToAddr := pool.instanceToAddr.erase instanceId }
      if addr ∈ pool.clients then
        { pool with clients := pool.clients.erase addr, addrToAz := pool.addrToAz.erase addr }
      else pool

/-- The switch in `watchLoop`. -/
def handleEvent (pool : LogicClientPool) (event : WatchEvent) : LogicClientPool :=
  match event.type with
  | .added => pool.addEndpoint event.ep ""
  | .removed => pool.removeEndpoint event.ep.instanceId
  | .updated => pool.addEndpoint event.ep ""

end LogicClientPool

/-! ## What the pool stands for -/

/-- Which address each instance is known under. -/
abbrev Addresses := String → Option String

/-- The tables hold these instances under these addresses, no two of them under
one, and there is a client for each. -/
structure Represents (pool : LogicClientPool) (known : Addresses) : Prop where
  indexed : ∀ id, pool.instanceToAddr.lookup id = known id
  clients : ∀ addr, addr ∈ pool.clients ↔ ∃ id, known id = some addr
  apart : ∀ first second addr, known first = some addr → known second = some addr → first = second

theorem represents_init : Represents {} (fun _ => none) where
  indexed := by simp
  clients := by simp
  apart := by simp

variable {pool : LogicClientPool} {known : Addresses} {ep : Endpoint} {id : String}

/-- An endpoint that is new, under an address that is free, is entered. -/
theorem Represents.add (represents : Represents pool known) (az : String) (new : known ep.instanceId = none)
    (free : ∀ id, known id ≠ some ep.addr) :
    Represents (pool.addEndpoint ep az) (Function.update known ep.instanceId (some ep.addr)) := by
  have unconnected : ep.addr ∉ pool.clients := by
    rw [represents.clients]
    exact fun given => free _ given.choose_spec
  have others (id : String) (different : id ≠ ep.instanceId) :
      Function.update known ep.instanceId (some ep.addr) id = known id :=
    Function.update_of_ne different _ _
  rw [LogicClientPool.addEndpoint, if_neg unconnected]
  refine { indexed := ?_, clients := ?_, apart := ?_ }
  · intro id
    rw [Table.lookup_insert_ite, Function.update_apply, represents.indexed]
  · intro addr
    rw [Finset.mem_insert, represents.clients]
    constructor
    · intro given
      rcases given with rfl | ⟨id, held⟩
      · exact ⟨ep.instanceId, Function.update_self _ _ _⟩
      · have different : id ≠ ep.instanceId := by
          rintro rfl
          rw [new] at held
          contradiction
        exact ⟨id, by rw [others id different, held]⟩
    · intro given
      obtain ⟨id, held⟩ := given
      by_cases same : id = ep.instanceId
      · rw [same, Function.update_self, Option.some.injEq] at held
        exact .inl held.symm
      · exact .inr ⟨id, by rw [← others id same, held]⟩
  · intro first second addr firstHeld secondHeld
    by_cases firstNew : first = ep.instanceId
    · by_cases secondNew : second = ep.instanceId
      · rw [firstNew, secondNew]
      · rw [firstNew, Function.update_self, Option.some.injEq] at firstHeld
        rw [others second secondNew, ← firstHeld] at secondHeld
        exact absurd secondHeld (free second)
    · by_cases secondNew : second = ep.instanceId
      · rw [secondNew, Function.update_self, Option.some.injEq] at secondHeld
        rw [others first firstNew, ← secondHeld] at firstHeld
        exact absurd firstHeld (free first)
      · rw [others first firstNew] at firstHeld
        rw [others second secondNew] at secondHeld
        exact represents.apart first second addr firstHeld secondHeld

/-- Adding an instance again under its address changes nothing. -/
theorem Represents.add_known (represents : Represents pool known) (az : String)
    (same : known ep.instanceId = some ep.addr) :
    Represents (pool.addEndpoint ep az)
      (Function.update known ep.instanceId (some ep.addr)) := by
  have connected : ep.addr ∈ pool.clients := (represents.clients _).mpr ⟨_, same⟩
  rw [LogicClientPool.addEndpoint, if_pos connected, ← same, Function.update_eq_self]
  exact represents

theorem Represents.remove (represents : Represents pool known) (id : String) :
    Represents (pool.removeEndpoint id) (Function.update known id none) := by
  cases held : known id with
  | none =>
      have absent : pool.instanceToAddr.lookup id = none := by rw [represents.indexed, held]
      simp only [LogicClientPool.removeEndpoint, absent]
      rw [← held, Function.update_eq_self]
      exact represents
  | some addr =>
      have present : pool.instanceToAddr.lookup id = some addr := by rw [represents.indexed, held]
      have connected : addr ∈ pool.clients := (represents.clients addr).mpr ⟨id, held⟩
      simp only [LogicClientPool.removeEndpoint, present, connected, if_true]
      refine { indexed := ?_, clients := ?_, apart := ?_ }
      · intro other
        rw [Table.lookup_erase_ite, Function.update_apply, represents.indexed]
      · intro kept
        rw [Finset.mem_erase, represents.clients]
        constructor
        · intro given
          obtain ⟨different, other, found⟩ := given
          have elsewhere : other ≠ id := by
            rintro rfl
            rw [held, Option.some.injEq] at found
            exact different found.symm
          exact ⟨other, by rw [Function.update_of_ne elsewhere, found]⟩
        · intro given
          obtain ⟨other, found⟩ := given
          by_cases same : other = id
          · rw [same, Function.update_self] at found
            contradiction
          · rw [Function.update_of_ne same] at found
            refine ⟨?_, other, found⟩
            rintro rfl
            exact same (represents.apart other id kept found held)
      · intro first second kept firstHeld secondHeld
        have lasting (other : String)
            (found : Function.update known id none other = some kept) : known other = some kept := by
          by_cases same : other = id
          · rw [same, Function.update_self] at found
            contradiction
          · rwa [Function.update_of_ne same] at found
        exact represents.apart first second kept (lasting first firstHeld) (lasting second secondHeld)

/-! ## Lists of endpoints -/

variable {Entry : Type} {endpoint : Entry → Endpoint} {entries : List Entry}

/-- No two entries of the list are under one instance id. -/
def IdsApart (endpoint : Entry → Endpoint) (entries : List Entry) : Prop :=
  entries.Pairwise (fun first second => (endpoint first).instanceId ≠ (endpoint second).instanceId)

/-- No two entries of the list have one address. -/
def AddrsApart (endpoint : Entry → Endpoint) (entries : List Entry) : Prop :=
  entries.Pairwise (fun first second => (endpoint first).addr ≠ (endpoint second).addr)

/-- What is known once one entry is added. -/
def enter (endpoint : Entry → Endpoint) (known : Addresses) (entry : Entry) : Addresses :=
  Function.update known (endpoint entry).instanceId (some (endpoint entry).addr)

/-- What is known once the entries are added, one after the other. -/
def enterAll (endpoint : Entry → Endpoint) (known : Addresses) (entries : List Entry) : Addresses :=
  entries.foldl (enter endpoint) known

theorem enter_self (entry : Entry) :
    enter endpoint known entry (endpoint entry).instanceId = some (endpoint entry).addr :=
  Function.update_self _ _ _

theorem enter_of_ne {entry : Entry} (different : id ≠ (endpoint entry).instanceId) :
    enter endpoint known entry id = known id :=
  Function.update_of_ne different _ _

theorem enterAll_absent (absent : ∀ entry ∈ entries, (endpoint entry).instanceId ≠ id) :
    enterAll endpoint known entries id = known id := by
  induction entries generalizing known with
  | nil => rfl
  | cons first rest ih =>
      refine (ih (fun entry member => absent entry (List.mem_cons_of_mem _ member))).trans ?_
      exact enter_of_ne (absent first List.mem_cons_self).symm

theorem enterAll_member {entry : Entry} (known : Addresses) (ids : IdsApart endpoint entries)
    (member : entry ∈ entries) :
    enterAll endpoint known entries (endpoint entry).instanceId = some (endpoint entry).addr := by
  induction entries generalizing known with
  | nil => simp at member
  | cons first rest ih =>
      obtain ⟨firstId, ids⟩ := List.pairwise_cons.mp ids
      rcases List.mem_cons.mp member with rfl | later
      · exact (enterAll_absent (fun other listed => (firstId other listed).symm)).trans
          (enter_self entry)
      · exact ih _ ids later

/-- Endpoints that are new and apart from each other are all entered. -/
theorem Represents.addAll (represents : Represents pool known) (az : Entry → String)
    (ids : IdsApart endpoint entries) (addrs : AddrsApart endpoint entries)
    (new : ∀ entry ∈ entries, known (endpoint entry).instanceId = none)
    (free : ∀ entry ∈ entries, ∀ id, known id ≠ some (endpoint entry).addr) :
    Represents (entries.foldl (fun pool entry => pool.addEndpoint (endpoint entry) (az entry)) pool)
      (enterAll endpoint known entries) := by
  induction entries generalizing pool known with
  | nil => exact represents
  | cons first rest ih =>
      obtain ⟨firstId, ids⟩ := List.pairwise_cons.mp ids
      obtain ⟨firstAddr, addrs⟩ := List.pairwise_cons.mp addrs
      have entered := represents.add (az first) (new first List.mem_cons_self)
        (free first List.mem_cons_self)
      refine ih entered ids addrs ?_ ?_
      · intro entry member
        refine (enter_of_ne (firstId entry member).symm).trans ?_
        exact new entry (List.mem_cons_of_mem _ member)
      · intro entry member id held
        by_cases same : id = (endpoint first).instanceId
        · rw [same] at held
          have equal := (enter_self first).symm.trans held
          exact firstAddr entry member (Option.some.inj equal)
        · exact free entry (List.mem_cons_of_mem _ member) id ((enter_of_ne same).symm.trans held)

theorem Represents.removeAll (represents : Represents pool known) (ids : List String) :
    Represents (ids.foldl LogicClientPool.removeEndpoint pool)
      (fun id => if id ∈ ids then none else known id) := by
  induction ids generalizing pool known with
  | nil => simpa using represents
  | cons first rest ih =>
      have removed := ih (represents.remove first)
      have same : (fun id => if id ∈ first :: rest then none else known id) =
          fun id => if id ∈ rest then none else Function.update known first none id := by
        funext id
        by_cases here : id = first
        · simp [here]
        · simp [here]
      rw [same]
      exact removed

/-- Endpoints that replace known ones are entered when each finds its address
free: no endpoint outside the list has it, nor one later in the list, as yet. -/
theorem Represents.replaceAll (represents : Represents pool known) (az : Entry → String)
    (ids : IdsApart endpoint entries) (addrs : AddrsApart endpoint entries)
    (later : entries.Pairwise (fun first second =>
      known (endpoint second).instanceId ≠ some (endpoint first).addr))
    (outside : ∀ entry ∈ entries, ∀ id, (∀ other ∈ entries, (endpoint other).instanceId ≠ id) →
      known id ≠ some (endpoint entry).addr) :
    Represents
      (entries.foldl (fun pool entry =>
        (pool.removeEndpoint (endpoint entry).instanceId).addEndpoint (endpoint entry) (az entry)) pool)
      (enterAll endpoint known entries) := by
  induction entries generalizing pool known with
  | nil => exact represents
  | cons first rest ih =>
      obtain ⟨firstId, ids⟩ := List.pairwise_cons.mp ids
      obtain ⟨firstAddr, addrs⟩ := List.pairwise_cons.mp addrs
      obtain ⟨firstLater, later⟩ := List.pairwise_cons.mp later
      have beyond (id : String) (different : id ≠ (endpoint first).instanceId)
          (absent : ∀ other ∈ rest, (endpoint other).instanceId ≠ id) :
          ∀ other ∈ first :: rest, (endpoint other).instanceId ≠ id := by
        intro other listed
        rcases List.mem_cons.mp listed with rfl | inRest
        · exact different.symm
        · exact absent other inRest
      have free (id : String) :
          Function.update known (endpoint first).instanceId none id ≠ some (endpoint first).addr := by
        by_cases same : id = (endpoint first).instanceId
        · rw [same, Function.update_self]
          nofun
        · rw [Function.update_of_ne same]
          by_cases listed : ∃ entry ∈ rest, (endpoint entry).instanceId = id
          · obtain ⟨entry, member, rfl⟩ := listed
            exact firstLater entry member
          · refine outside first List.mem_cons_self id (beyond id same ?_)
            exact fun other member named => listed ⟨other, member, named⟩
      have entered := (represents.remove (endpoint first).instanceId).add (az first)
        (Function.update_self _ _ _) free
      rw [Function.update_idem] at entered
      refine ih entered ids addrs ?_ ?_
      · refine later.imp_of_mem (fun _ member unheld held => unheld ?_)
        exact (enter_of_ne (firstId _ member).symm).symm.trans held
      · intro entry member id absent held
        by_cases same : id = (endpoint first).instanceId
        · rw [same] at held
          have equal := (enter_self first).symm.trans held
          exact firstAddr entry member (Option.some.inj equal)
        · exact outside entry (List.mem_cons_of_mem _ member) id (beyond id same absent)
            ((enter_of_ne same).symm.trans held)

end MuduoIm.Gateway
