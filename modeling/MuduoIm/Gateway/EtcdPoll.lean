import Mathlib.Data.List.Perm.Basic
import MuduoIm.Data.Json
import MuduoIm.Gateway.LogicClientPool
import MuduoIm.Transition.Machine

namespace MuduoIm.Gateway.EtcdPoll

open MuduoIm.Data MuduoIm.Transition MuduoIm.Registry

/-! # Polling etcd

The other way to the logic endpoints: the pool reads all keys under a prefix
once and then polls for differences.  `EtcdClient` fetches the snapshots and
computes the differences; its order within each of the three lists is open.
-/

/-- `parse` is the parser of JSON texts; it gives nothing for a text that is
none. -/
structure Config where
  etcdPrefix : String := "services/logic/"
  parse : String → Option Json

/-- The value is the text that etcd holds. -/
structure KV where
  key : String
  value : String
deriving DecidableEq, Repr

/-- `malformed` is answered with false, `thrown` leaves the function. -/
inductive ParseError where
  | malformed
  | thrown
deriving DecidableEq, Repr

def orThrow {α : Type} : Option α → Except ParseError α
  | some value => .ok value
  | none => .error .thrown

def instanceIdFromKey (config : Config) (key : String) : String :=
  if key.length ≤ config.etcdPrefix.length then ""
  else if config.etcdPrefix.toList.isPrefixOf key.toList then
    String.ofList (key.toList.drop config.etcdPrefix.length)
  else ""

/-- The endpoint and its availability zone. -/
def parseEndpoint (config : Config) (kv : KV) : Except ParseError (Endpoint × String) :=
  match config.parse kv.value with
  | some (.object members) =>
      match members.lookup "addr" with
      | none => .error .malformed
      | some addr => do
          let json := Json.object members
          let instanceId ← orThrow (json.valueString "instance" (instanceIdFromKey config kv.key))
          let service ← orThrow (json.valueString "service" "logic")
          let addr ← match addr with
            | .string text => .ok text
            | _ => .error .thrown
          let weight ← orThrow (json.valueInt "weight" 1)
          let az ← orThrow (json.valueString "az" "")
          .ok ({ instanceId, service, addr, weight := (weight % 2 ^ 32).toNat }, az)
  | _ => .error .malformed

/-- A pair of `added`; none when the exception leaves the callback. -/
def addKV (config : Config) (pool : LogicClientPool) (kv : KV) : Option LogicClientPool :=
  match parseEndpoint config kv with
  | .ok (ep, az) => some (pool.addEndpoint ep az)
  | .error .malformed => some pool
  | .error .thrown => none

def removeKey (config : Config) (pool : LogicClientPool) (key : String) : LogicClientPool :=
  let instId := instanceIdFromKey config key
  if instId ≠ "" then pool.removeEndpoint instId else pool

def updateKV (config : Config) (pool : LogicClientPool) (kv : KV) : Option LogicClientPool :=
  match parseEndpoint config kv with
  | .ok (ep, az) => some ((pool.removeEndpoint ep.instanceId).addEndpoint ep az)
  | .error .malformed => some pool
  | .error .thrown => none

/-- The callback of `pollOnce`. -/
def cb (config : Config) (pool : LogicClientPool) (added : List KV) (removedKeys : List String)
    (updated : List KV) : Option LogicClientPool := do
  let pool ← added.foldlM (addKV config) pool
  let pool := removedKeys.foldl (removeKey config) pool
  updated.foldlM (updateKV config) pool

/-! ## Snapshots and differences -/

abbrev Snapshot := Table String String

def pairs (snapshot : Snapshot) : List KV := snapshot.entries.map (fun entry => ⟨entry.1, entry.2⟩)

def addedPairs (previous snapshot : Snapshot) : List KV :=
  (pairs snapshot).filter (fun kv => previous.lookup kv.key = none)

def removedKeys (previous snapshot : Snapshot) : List String :=
  previous.keys.filter (fun key => snapshot.lookup key = none)

def updatedPairs (previous snapshot : Snapshot) : List KV :=
  (pairs snapshot).filter (fun kv =>
    previous.lookup kv.key ≠ none ∧ previous.lookup kv.key ≠ some kv.value)

/-- The three lists are the exact difference, in some order. -/
structure Difference (previous snapshot : Snapshot) (added : List KV) (removed : List String)
    (updated : List KV) : Prop where
  added : added.Perm (addedPairs previous snapshot)
  removed : removed.Perm (removedKeys previous snapshot)
  updated : updated.Perm (updatedPairs previous snapshot)

instance (previous snapshot : Snapshot) (added : List KV) (removed : List String)
    (updated : List KV) : Decidable (Difference previous snapshot added removed updated) :=
  decidable_of_iff (added.Perm (addedPairs previous snapshot) ∧
      removed.Perm (removedKeys previous snapshot) ∧ updated.Perm (updatedPairs previous snapshot))
    ⟨fun given => ⟨given.1, given.2.1, given.2.2⟩, fun given => ⟨given.1, given.2, given.3⟩⟩

/-- Every value is an endpoint object. -/
def WellFormed (config : Config) (snapshot : Snapshot) : Prop :=
  ∀ kv ∈ pairs snapshot, (parseEndpoint config kv).toOption.isSome = true

instance (config : Config) (snapshot : Snapshot) : Decidable (WellFormed config snapshot) := by
  unfold WellFormed; infer_instance

/-- How far `etcdPollLoop` is, with the last snapshot fetched. -/
inductive Phase where
  | starting
  | listed (snapshot : Snapshot)
  | polled (snapshot : Snapshot)

structure State where
  pool : LogicClientPool := {}
  phase : Phase := .starting

inductive Event where
  | getPrefix (snapshot : Snapshot)
  | firstPollOnce (snapshot : Snapshot)
  | pollOnce (snapshot : Snapshot) (added : List KV) (removed : List String) (updated : List KV)

def step (config : Config) (state : State) : Event → Option State
  | .getPrefix snapshot =>
      match state.phase with
      | .starting =>
          if WellFormed config snapshot then
            ((pairs snapshot).foldlM (addKV config) state.pool).map fun pool =>
              { pool, phase := .listed snapshot }
          else none
      | _ => none
  -- the callback of the first poll drops its arguments
  | .firstPollOnce snapshot =>
      match state.phase with
      | .listed _ =>
          if WellFormed config snapshot then some { state with phase := .polled snapshot } else none
      | _ => none
  | .pollOnce snapshot added removed updated =>
      match state.phase with
      | .polled previous =>
          if WellFormed config snapshot ∧ Difference previous snapshot added removed updated then
            (cb config state.pool added removed updated).map fun pool =>
              { pool, phase := .polled snapshot }
          else none
      | _ => none

def machine (config : Config) : Machine State Event := ⟨step config⟩

/-! ## What each step does -/

variable {config : Config} {state next : State} {previous snapshot : Snapshot}
variable {added updated : List KV} {removed : List String}

theorem getPrefix_eq_some (stepped : step config state (.getPrefix snapshot) = some next) :
    state.phase = .starting ∧ WellFormed config snapshot ∧
      ∃ pool, (pairs snapshot).foldlM (addKV config) state.pool = some pool ∧
        next = { pool, phase := .listed snapshot } := by
  simp only [step] at stepped
  split at stepped
  · rename_i phase
    split at stepped
    · rename_i wellFormed
      obtain ⟨pool, entered, rfl⟩ := Option.map_eq_some_iff.mp stepped
      exact ⟨phase, wellFormed, pool, entered, rfl⟩
    · contradiction
  · contradiction

theorem firstPollOnce_eq_some (stepped : step config state (.firstPollOnce snapshot) = some next) :
    ∃ listed, state.phase = .listed listed ∧
      next = { state with phase := .polled snapshot } := by
  simp only [step] at stepped
  split at stepped
  · rename_i listed phase
    split at stepped
    · cases stepped
      exact ⟨listed, phase, rfl⟩
    · contradiction
  · contradiction

theorem pollOnce_eq_some
    (stepped : step config state (.pollOnce snapshot added removed updated) = some next) :
    ∃ previous pool, state.phase = .polled previous ∧ WellFormed config snapshot ∧
      Difference previous snapshot added removed updated ∧
      cb config state.pool added removed updated = some pool ∧
        next = { pool, phase := .polled snapshot } := by
  simp only [step] at stepped
  split at stepped
  · rename_i previous phase
    split at stepped
    · rename_i fetched
      obtain ⟨pool, called, rfl⟩ := Option.map_eq_some_iff.mp stepped
      exact ⟨previous, pool, phase, fetched.1, fetched.2, called, rfl⟩
    · contradiction
  · contradiction

/-! ## Members of a difference -/

theorem mem_pairs {kv : KV} : kv ∈ pairs snapshot ↔ snapshot.lookup kv.key = some kv.value := by
  constructor
  · intro member
    obtain ⟨entry, listed, rfl⟩ := List.mem_map.mp member
    exact AList.mem_lookup_iff.mpr listed
  · intro found
    exact List.mem_map_of_mem (f := fun entry : (_ : String) × String => KV.mk entry.1 entry.2)
      (AList.mem_lookup_iff.mp found)

theorem Difference.mem_added (difference : Difference previous snapshot added removed updated)
    {kv : KV} : kv ∈ added ↔
      snapshot.lookup kv.key = some kv.value ∧ previous.lookup kv.key = none := by
  rw [difference.added.mem_iff, addedPairs, List.mem_filter, mem_pairs, decide_eq_true_iff]

theorem Difference.mem_removed (difference : Difference previous snapshot added removed updated)
    {key : String} : key ∈ removed ↔
      previous.lookup key ≠ none ∧ snapshot.lookup key = none := by
  rw [difference.removed.mem_iff, removedKeys, List.mem_filter, decide_eq_true_iff, ← AList.mem_keys,
    ← AList.lookup_isSome, Option.isSome_iff_ne_none]

theorem Difference.mem_updated (difference : Difference previous snapshot added removed updated)
    {kv : KV} : kv ∈ updated ↔
      snapshot.lookup kv.key = some kv.value ∧
        previous.lookup kv.key ≠ none ∧ previous.lookup kv.key ≠ some kv.value := by
  rw [difference.updated.mem_iff, updatedPairs, List.mem_filter, mem_pairs, decide_eq_true_iff]

theorem pairs_keys : (pairs snapshot).Pairwise (fun first second => first.key ≠ second.key) :=
  List.pairwise_map.mpr (List.pairwise_map.mp snapshot.keys_nodup)

theorem Difference.added_keys (difference : Difference previous snapshot added removed updated) :
    added.Pairwise (fun first second => first.key ≠ second.key) :=
  (difference.added.pairwise_iff Ne.symm).mpr (pairs_keys.filter _)

theorem Difference.updated_keys (difference : Difference previous snapshot added removed updated) :
    updated.Pairwise (fun first second => first.key ≠ second.key) :=
  (difference.updated.pairwise_iff Ne.symm).mpr (pairs_keys.filter _)

end MuduoIm.Gateway.EtcdPoll
