import MuduoIm.Gateway.EtcdPoll

namespace MuduoIm.Gateway.EtcdPoll

open MuduoIm.Data MuduoIm.Transition MuduoIm.Registry

/-! # The pool against the snapshots of etcd

The callback goes through the added, the removed and the updated pairs in this
order, and an address that still has a client is not entered again.  It follows
the snapshots as long as every address it adds is free at that moment.
-/

/-- The endpoint that a well-formed pair holds. -/
def endpointOf (config : Config) (kv : KV) : Endpoint :=
  match parseEndpoint config kv with
  | .ok (ep, _) => ep
  | .error _ => { instanceId := "", service := "", addr := "" }

def azOf (config : Config) (kv : KV) : String :=
  match parseEndpoint config kv with
  | .ok (_, az) => az
  | .error _ => ""

/-- The address that a snapshot has under a key. -/
def addrAt (config : Config) (snapshot : Snapshot) (key : String) : Option String :=
  (snapshot.lookup key).map (fun value => (endpointOf config ⟨key, value⟩).addr)

/-- After a poll the clients are for the addresses in the snapshot it saw. -/
def Mirrored (config : Config) (state : State) : Prop :=
  ∀ snapshot, state.phase = .polled snapshot → ∀ addr,
    addr ∈ state.pool.clients ↔ ∃ kv ∈ pairs snapshot, (endpointOf config kv).addr = addr

/-- Every value bears the instance id that its key ends in. -/
def Named (config : Config) (snapshot : Snapshot) : Prop :=
  ∀ kv ∈ pairs snapshot, (endpointOf config kv).instanceId = instanceIdFromKey config kv.key ∧
    instanceIdFromKey config kv.key ≠ ""

/-- No two keys have one address. -/
def Apart (config : Config) (snapshot : Snapshot) : Prop :=
  ∀ first ∈ pairs snapshot, ∀ second ∈ pairs snapshot,
    (endpointOf config first).addr = (endpointOf config second).addr → first.key = second.key

/-- The snapshots name every key's instance after it and give no address
twice; the first poll sees the addresses that were listed; and no address moves
to an added key, or to an updated one from a key that is updated later. -/
def KeepsTrack (config : Config) (state : State) : Event → Prop
  | .getPrefix snapshot => Named config snapshot ∧ Apart config snapshot
  | .firstPollOnce snapshot => ∀ listed, state.phase = .listed listed →
      ∀ key, addrAt config snapshot key = addrAt config listed key
  | .pollOnce snapshot added _ updated => Named config snapshot ∧ Apart config snapshot ∧
      ∀ previous, state.phase = .polled previous →
        (∀ kv ∈ added, ∀ key, addrAt config previous key ≠ some (endpointOf config kv).addr) ∧
          updated.Pairwise (fun first second =>
            addrAt config previous second.key ≠ some (endpointOf config first).addr)

/-! ## Keys and instance ids -/

variable {config : Config} {key id : String}

theorem instanceIdFromKey_eq_iff (named : id ≠ "") :
    instanceIdFromKey config key = id ↔ key = config.etcdPrefix ++ id := by
  constructor
  · intro found
    simp only [instanceIdFromKey] at found
    split at found
    · exact absurd found.symm named
    · split at found
      · rename_i isPrefix
        obtain ⟨rest, whole⟩ := List.isPrefixOf_iff_prefix.mp isPrefix
        rw [← whole, ← String.length_toList, List.drop_left] at found
        rw [← String.toList_inj, String.toList_append, ← found, String.toList_ofList, whole]
      · exact absurd found.symm named
  · rintro rfl
    have longer : ¬ (config.etcdPrefix ++ id).length ≤ config.etcdPrefix.length := by
      have positive : id.length ≠ 0 := by simpa [String.length_eq_zero_iff] using named
      rw [String.length_append]
      omega
    have isPrefix : config.etcdPrefix.toList.isPrefixOf (config.etcdPrefix ++ id).toList = true := by
      rw [List.isPrefixOf_iff_prefix, String.toList_append]
      exact List.prefix_append _ _
    rw [instanceIdFromKey, if_neg longer, if_pos isPrefix, String.toList_append,
      ← String.length_toList, List.drop_left, String.ofList_toList]

theorem instanceIdFromKey_inj {other : String} (named : instanceIdFromKey config key ≠ "")
    (same : instanceIdFromKey config key = instanceIdFromKey config other) : key = other := by
  rw [(instanceIdFromKey_eq_iff named).mp rfl]
  exact ((instanceIdFromKey_eq_iff named).mp same.symm).symm

variable {snapshot previous : Snapshot} {added updated : List KV} {removed : List String} {kv : KV}

/-- What the pool knows when it follows the snapshot. -/
def addresses (config : Config) (snapshot : Snapshot) : Addresses :=
  fun id => if id = "" then none else addrAt config snapshot (config.etcdPrefix ++ id)

theorem addresses_key (named : instanceIdFromKey config key ≠ "") :
    addresses config snapshot (instanceIdFromKey config key) = addrAt config snapshot key := by
  rw [addresses, if_neg named, ← (instanceIdFromKey_eq_iff named).mp rfl]

theorem addrAt_pair (member : kv ∈ pairs snapshot) :
    addrAt config snapshot kv.key = some (endpointOf config kv).addr := by
  rw [addrAt, mem_pairs.mp member]
  rfl

theorem addrAt_eq_some {addr : String} (held : addrAt config snapshot key = some addr) :
    ∃ kv ∈ pairs snapshot, kv.key = key ∧ (endpointOf config kv).addr = addr := by
  obtain ⟨value, found, same⟩ := Option.map_eq_some_iff.mp held
  exact ⟨⟨key, value⟩, mem_pairs.mpr found, rfl, same⟩

/-- Every key of the snapshot leads to an instance id. -/
def KeysNamed (config : Config) (snapshot : Snapshot) : Prop :=
  ∀ key, snapshot.lookup key ≠ none → instanceIdFromKey config key ≠ ""

theorem Named.keysNamed (named : Named config snapshot) : KeysNamed config snapshot := by
  intro key present
  obtain ⟨value, found⟩ := Option.ne_none_iff_exists'.mp present
  exact (named ⟨key, value⟩ (mem_pairs.mpr found)).2

theorem mem_addresses (keys : KeysNamed config snapshot) {addr : String} :
    (∃ id, addresses config snapshot id = some addr) ↔
      ∃ kv ∈ pairs snapshot, (endpointOf config kv).addr = addr := by
  constructor
  · intro given
    obtain ⟨id, held⟩ := given
    simp only [addresses] at held
    split at held
    · contradiction
    · obtain ⟨kv, member, _, same⟩ := addrAt_eq_some held
      exact ⟨kv, member, same⟩
  · intro given
    obtain ⟨kv, member, rfl⟩ := given
    have named := keys kv.key (by rw [mem_pairs.mp member]; nofun)
    exact ⟨_, (addresses_key named).trans (addrAt_pair member)⟩

/-! ## One callback -/

/-- A difference between two snapshots that the pool can follow. -/
structure Followed (config : Config) (previous snapshot : Snapshot) (added : List KV)
    (removed : List String) (updated : List KV) : Prop where
  difference : Difference previous snapshot added removed updated
  wellFormed : WellFormed config snapshot
  keys : KeysNamed config previous
  named : Named config snapshot
  apart : Apart config snapshot
  addedFree : ∀ kv ∈ added, ∀ key, addrAt config previous key ≠ some (endpointOf config kv).addr
  updatedFree : updated.Pairwise (fun first second =>
    addrAt config previous second.key ≠ some (endpointOf config first).addr)

/-- What the pool knows once the added pairs are entered and the removed keys
are gone. -/
def midway (config : Config) (previous : Snapshot) (added : List KV) (removed : List String) :
    Addresses :=
  fun id => if id ∈ removed.map (instanceIdFromKey config) then none
    else enterAll (endpointOf config) (addresses config previous) added id

namespace Followed

variable (followed : Followed config previous snapshot added removed updated)
include followed

theorem added_pair (member : kv ∈ added) : kv ∈ pairs snapshot :=
  mem_pairs.mpr (followed.difference.mem_added.mp member).1

theorem updated_pair (member : kv ∈ updated) : kv ∈ pairs snapshot :=
  mem_pairs.mpr (followed.difference.mem_updated.mp member).1

theorem idsApart {list : List KV} (listed : ∀ kv ∈ list, kv ∈ pairs snapshot)
    (keys : list.Pairwise (fun first second => first.key ≠ second.key)) :
    IdsApart (endpointOf config) list := by
  refine keys.imp_of_mem (fun first second different same => different ?_)
  obtain ⟨firstNamed, firstId⟩ := followed.named _ (listed _ first)
  obtain ⟨secondNamed, _⟩ := followed.named _ (listed _ second)
  exact instanceIdFromKey_inj firstId (firstNamed.symm.trans (same.trans secondNamed))

theorem addrsApart {list : List KV} (listed : ∀ kv ∈ list, kv ∈ pairs snapshot)
    (keys : list.Pairwise (fun first second => first.key ≠ second.key)) :
    AddrsApart (endpointOf config) list :=
  keys.imp_of_mem (fun first second different same =>
    different (followed.apart _ (listed _ first) _ (listed _ second) same))

/-- No removed key leads to the instance of a key that is still there. -/
theorem not_removed (member : kv ∈ pairs snapshot) :
    instanceIdFromKey config kv.key ∉ removed.map (instanceIdFromKey config) := by
  intro given
  obtain ⟨key, gone, same⟩ := List.mem_map.mp given
  have equal := instanceIdFromKey_inj (followed.named kv member).2 same.symm
  have absent := (followed.difference.mem_removed.mp gone).2
  rw [← equal, mem_pairs.mp member] at absent
  contradiction

/-- No added pair has the instance of a pair that was there before. -/
theorem added_absent (member : kv ∈ pairs snapshot) (old : previous.lookup kv.key ≠ none) :
    ∀ other ∈ added, (endpointOf config other).instanceId ≠ instanceIdFromKey config kv.key := by
  intro other new same
  rw [(followed.named other (followed.added_pair new)).1] at same
  have equal := instanceIdFromKey_inj (followed.named kv member).2 same.symm
  rw [equal] at old
  exact old (followed.difference.mem_added.mp new).2

/-- A pair that will be updated is still known under its old address. -/
theorem midway_updated (member : kv ∈ updated) :
    midway config previous added removed (instanceIdFromKey config kv.key) =
      addrAt config previous kv.key := by
  have pair := followed.updated_pair member
  have old := (followed.difference.mem_updated.mp member).2.1
  rw [midway, if_neg (followed.not_removed pair), enterAll_absent (followed.added_absent pair old),
    addresses_key (followed.named kv pair).2]

/-- What is not to be updated is known as the new snapshot has it. -/
theorem midway_settled {id : String}
    (settled : ∀ kv ∈ updated, (endpointOf config kv).instanceId ≠ id) :
    midway config previous added removed id = addresses config snapshot id := by
  by_cases blank : id = ""
  · have unremoved : id ∉ removed.map (instanceIdFromKey config) := by
      intro given
      obtain ⟨key, gone, same⟩ := List.mem_map.mp given
      exact followed.keys key (followed.difference.mem_removed.mp gone).1 (same.trans blank)
    have unadded : ∀ kv ∈ added, (endpointOf config kv).instanceId ≠ id := by
      intro kv member same
      obtain ⟨named, nonempty⟩ := followed.named kv (followed.added_pair member)
      exact nonempty (named.symm.trans (same.trans blank))
    rw [midway, if_neg unremoved, enterAll_absent unadded, addresses, addresses, if_pos blank,
      if_pos blank]
  obtain ⟨key, rfl⟩ : ∃ key, instanceIdFromKey config key = id :=
    ⟨_, (instanceIdFromKey_eq_iff blank).mpr rfl⟩
  rw [addresses_key blank]
  cases found : snapshot.lookup key with
  | none =>
      have unadded : ∀ kv ∈ added, (endpointOf config kv).instanceId ≠ instanceIdFromKey config key := by
        intro kv member same
        have pair := followed.added_pair member
        rw [(followed.named kv pair).1] at same
        have equal := instanceIdFromKey_inj (followed.named kv pair).2 same
        rw [← equal, mem_pairs.mp pair] at found
        contradiction
      rw [midway, enterAll_absent unadded, addresses_key blank, addrAt, addrAt, found]
      by_cases old : previous.lookup key = none
      · simp [old]
      · rw [if_pos (List.mem_map_of_mem (followed.difference.mem_removed.mpr ⟨old, found⟩))]
        rfl
  | some value =>
      have pair : (⟨key, value⟩ : KV) ∈ pairs snapshot := mem_pairs.mpr found
      have named := (followed.named _ pair).1
      rw [midway, if_neg (followed.not_removed pair), addrAt_pair pair]
      by_cases old : previous.lookup key = none
      · have new : (⟨key, value⟩ : KV) ∈ added := followed.difference.mem_added.mpr ⟨found, old⟩
        have entered := enterAll_member (addresses config previous)
          (followed.idsApart (fun _ => followed.added_pair) followed.difference.added_keys) new
        rwa [named] at entered
      · have same : previous.lookup key = some value := by
          by_contra changed
          have updates : (⟨key, value⟩ : KV) ∈ updated :=
            followed.difference.mem_updated.mpr ⟨found, old, changed⟩
          exact settled _ updates named
        rw [enterAll_absent (followed.added_absent pair old), addresses_key blank, addrAt, same]
        rfl

/-- Once the updated pairs are replaced too, the pool knows the new snapshot. -/
theorem replaced : enterAll (endpointOf config) (midway config previous added removed) updated =
    addresses config snapshot := by
  funext id
  by_cases listed : ∃ kv ∈ updated, (endpointOf config kv).instanceId = id
  · obtain ⟨kv, member, rfl⟩ := listed
    have pair := followed.updated_pair member
    obtain ⟨named, nonempty⟩ := followed.named kv pair
    rw [enterAll_member _ (followed.idsApart (fun _ => followed.updated_pair)
      followed.difference.updated_keys) member, named, addresses_key nonempty, addrAt_pair pair]
  · have settled : ∀ kv ∈ updated, (endpointOf config kv).instanceId ≠ id :=
      fun kv member named => listed ⟨kv, member, named⟩
    rw [enterAll_absent settled, followed.midway_settled settled]

end Followed

variable {pool : LogicClientPool}

theorem parseEndpoint_ok (wellFormed : WellFormed config snapshot) (member : kv ∈ pairs snapshot) :
    parseEndpoint config kv = .ok (endpointOf config kv, azOf config kv) := by
  have parsed := wellFormed kv member
  cases result : parseEndpoint config kv with
  | error reason => simp [result, Except.toOption] at parsed
  | ok pair => simp only [endpointOf, azOf, result]

theorem foldlM_eq_some {step : LogicClientPool → KV → Option LogicClientPool}
    {total : LogicClientPool → KV → LogicClientPool} {list : List KV}
    (succeeds : ∀ kv ∈ list, ∀ pool, step pool kv = some (total pool kv)) :
    list.foldlM step pool = some (list.foldl total pool) := by
  induction list generalizing pool with
  | nil => rfl
  | cons kv rest ih =>
      rw [List.foldlM_cons, succeeds kv List.mem_cons_self]
      exact ih (fun other member => succeeds other (List.mem_cons_of_mem _ member))

theorem foldlM_addKV {list : List KV} (wellFormed : WellFormed config snapshot)
    (listed : ∀ kv ∈ list, kv ∈ pairs snapshot) :
    list.foldlM (addKV config) pool =
      some (list.foldl (fun pool kv => pool.addEndpoint (endpointOf config kv) (azOf config kv)) pool) := by
  refine foldlM_eq_some (fun kv member pool => ?_)
  simp only [addKV, parseEndpoint_ok wellFormed (listed kv member)]

theorem foldlM_updateKV {list : List KV} (wellFormed : WellFormed config snapshot)
    (listed : ∀ kv ∈ list, kv ∈ pairs snapshot) :
    list.foldlM (updateKV config) pool =
      some (list.foldl (fun pool kv =>
        (pool.removeEndpoint (endpointOf config kv).instanceId).addEndpoint (endpointOf config kv)
          (azOf config kv)) pool) := by
  refine foldlM_eq_some (fun kv member pool => ?_)
  simp only [updateKV, parseEndpoint_ok wellFormed (listed kv member)]

theorem foldl_removeKey {keys : List String}
    (named : ∀ key ∈ keys, instanceIdFromKey config key ≠ "") :
    keys.foldl (removeKey config) pool =
      (keys.map (instanceIdFromKey config)).foldl LogicClientPool.removeEndpoint pool := by
  induction keys generalizing pool with
  | nil => rfl
  | cons key rest ih =>
      have removes : removeKey config pool key =
          pool.removeEndpoint (instanceIdFromKey config key) := by
        simp only [removeKey, ne_eq, named key List.mem_cons_self, not_false_eq_true, if_true]
      rw [List.foldl_cons, removes, List.map_cons, List.foldl_cons]
      exact ih (fun other member => named other (List.mem_cons_of_mem _ member))

/-- The callback takes the pool from one snapshot to the next. -/
theorem Followed.cb (followed : Followed config previous snapshot added removed updated)
    (represents : Represents pool (addresses config previous)) {after : LogicClientPool}
    (called : EtcdPoll.cb config pool added removed updated = some after) :
    Represents after (addresses config snapshot) := by
  have keys : ∀ key ∈ removed, instanceIdFromKey config key ≠ "" :=
    fun key gone => followed.keys key (followed.difference.mem_removed.mp gone).1
  simp only [EtcdPoll.cb, foldlM_addKV followed.wellFormed (fun _ => followed.added_pair),
    foldlM_updateKV followed.wellFormed (fun _ => followed.updated_pair), foldl_removeKey keys,
    Option.bind_eq_bind, Option.bind_some, Option.some.injEq] at called
  subst called
  have entered := represents.addAll (azOf config)
    (followed.idsApart (fun _ => followed.added_pair) followed.difference.added_keys)
    (followed.addrsApart (fun _ => followed.added_pair) followed.difference.added_keys) (by
      intro kv new
      obtain ⟨named, nonempty⟩ := followed.named kv (followed.added_pair new)
      rw [named, addresses_key nonempty, addrAt, (followed.difference.mem_added.mp new).2]
      rfl) (by
      intro kv new id held
      simp only [addresses] at held
      split at held
      · contradiction
      · exact followed.addedFree kv new _ held)
  have gone := entered.removeAll (removed.map (instanceIdFromKey config))
  have replaced := gone.replaceAll (azOf config)
    (followed.idsApart (fun _ => followed.updated_pair) followed.difference.updated_keys)
    (followed.addrsApart (fun _ => followed.updated_pair) followed.difference.updated_keys) (by
      refine followed.updatedFree.imp_of_mem (fun _ member unheld held => unheld ?_)
      rw [(followed.named _ (followed.updated_pair member)).1] at held
      exact (followed.midway_updated member).symm.trans held) (by
      intro kv member id settled held
      have current : addresses config snapshot id = some (endpointOf config kv).addr :=
        (followed.midway_settled settled).symm.trans held
      simp only [addresses] at current
      split at current
      · contradiction
      rename_i nonempty
      obtain ⟨other, pair, key, same⟩ := addrAt_eq_some current
      have equal := followed.apart other pair kv (followed.updated_pair member) same
      refine settled kv member ?_
      rw [(followed.named kv (followed.updated_pair member)).1, instanceIdFromKey_eq_iff nonempty,
        ← equal, key])
  exact followed.replaced ▸ replaced

/-! ## Runs -/

/-- What holds in every run that keeps track. -/
structure Coupled (config : Config) (state : State) : Prop where
  starting : state.phase = .starting → state.pool = {}
  known : ∀ snapshot, state.phase = .listed snapshot ∨ state.phase = .polled snapshot →
    KeysNamed config snapshot ∧ Represents state.pool (addresses config snapshot)

theorem coupled_init : Coupled config {} where
  starting := fun _ => rfl
  known := by simp

variable {state next : State}

theorem Coupled.mirrored (coupled : Coupled config state) : Mirrored config state := by
  intro snapshot phase addr
  obtain ⟨keys, represents⟩ := coupled.known snapshot (.inr phase)
  rw [represents.clients, mem_addresses keys]

/-- A step that leaves the pool following the snapshot it ends with. -/
theorem Coupled.of_follows {pool : LogicClientPool} {phase : Phase}
    (ends : phase = .listed snapshot ∨ phase = .polled snapshot) (keys : KeysNamed config snapshot)
    (represents : Represents pool (addresses config snapshot)) :
    Coupled config { pool, phase } where
  starting := by
    intro starts
    rcases ends with listed | polled
    · cases listed.symm.trans starts
    · cases polled.symm.trans starts
  known := by
    intro other held
    have same : other = snapshot := by
      rcases ends with rfl | rfl <;> rcases held with held | held <;> cases held <;> rfl
    exact same ▸ ⟨keys, represents⟩

theorem Coupled.getPrefix (coupled : Coupled config state) (named : Named config snapshot)
    (apart : Apart config snapshot)
    (stepped : step config state (.getPrefix snapshot) = some next) : Coupled config next := by
  obtain ⟨phase, wellFormed, pool, entered, rfl⟩ := getPrefix_eq_some stepped
  rw [coupled.starting phase] at entered
  have followed : Followed config ∅ snapshot (pairs snapshot) [] [] := {
    difference := {
      added := by simp [addedPairs]
      removed := by simp [removedKeys]
      updated := by simp [updatedPairs] }
    wellFormed
    keys := by simp [KeysNamed]
    named
    apart
    addedFree := by simp [addrAt]
    updatedFree := List.Pairwise.nil }
  have start : addresses config ∅ = fun _ => none := by
    funext id
    simp [addresses, addrAt]
  have empty : Represents {} (addresses config ∅) := start ▸ represents_init
  have represents := followed.cb empty (by simpa [EtcdPoll.cb] using entered)
  exact .of_follows (.inl rfl) named.keysNamed represents

theorem Coupled.firstPollOnce (coupled : Coupled config state)
    (same : ∀ listed, state.phase = .listed listed →
      ∀ key, addrAt config snapshot key = addrAt config listed key)
    (stepped : step config state (.firstPollOnce snapshot) = some next) : Coupled config next := by
  obtain ⟨listed, phase, rfl⟩ := firstPollOnce_eq_some stepped
  obtain ⟨keys, represents⟩ := coupled.known listed (.inl phase)
  have unchanged : addresses config snapshot = addresses config listed := by
    funext id
    simp only [addresses, same listed phase]
  refine .of_follows (.inr rfl) (fun key present => keys key (fun absent => present ?_))
    (unchanged ▸ represents)
  have unheld := same listed phase key
  rw [addrAt, addrAt, absent, Option.map_none, Option.map_eq_none_iff] at unheld
  exact unheld

theorem Coupled.pollOnce (coupled : Coupled config state)
    (keeps : KeepsTrack config state (.pollOnce snapshot added removed updated))
    (stepped : step config state (.pollOnce snapshot added removed updated) = some next) :
    Coupled config next := by
  obtain ⟨previous, pool, phase, wellFormed, difference, called, rfl⟩ := pollOnce_eq_some stepped
  obtain ⟨named, apart, free⟩ := keeps
  obtain ⟨addedFree, updatedFree⟩ := free previous phase
  obtain ⟨keys, represents⟩ := coupled.known previous (.inr phase)
  have followed : Followed config previous snapshot added removed updated :=
    ⟨difference, wellFormed, keys, named, apart, addedFree, updatedFree⟩
  exact .of_follows (.inr rfl) named.keysNamed (followed.cb represents called)

/-- In every run that keeps track, the clients are for the addresses of the
latest snapshot after each poll. -/
theorem tracks_snapshot_of_keepsTrack {events : List Event}
    (met : (machine config).Meets (KeepsTrack config) {} events) :
    (machine config).Always (Mirrored config) {} events := by
  refine (Machine.always_of_meets (Coupled config) coupled_init ?_ met).mono
    (fun _ coupled => coupled.mirrored)
  intro state event next coupled keeps stepped
  cases event with
  | getPrefix snapshot => exact coupled.getPrefix keeps.1 keeps.2 stepped
  | firstPollOnce snapshot => exact coupled.firstPollOnce keeps stepped
  | pollOnce snapshot added removed updated => exact coupled.pollOnce keeps stepped

private def valueOf (addr : String) : String := "\x7b\"addr\":\"" ++ addr ++ "\"\x7d"

/-- A parser of the texts of four addresses. -/
private def fourTexts : Config where
  parse := fun text =>
    (["10.0.0.1:9000", "10.0.0.2:9000", "10.0.0.3:9000", "10.0.0.4:9000"].find? fun addr => text = valueOf addr).map
      fun addr => .object [("addr", .string addr)]

private def logicAt (number addr : String) : KV := ⟨"services/logic/logic-" ++ number, valueOf addr⟩

private def snapshotOf (kvs : List KV) : Snapshot := kvs.foldl (fun snapshot kv => snapshot.insert kv.key kv.value) ∅

private def twoKeys : Snapshot := snapshotOf [logicAt "1" "10.0.0.1:9000", logicAt "2" "10.0.0.2:9000"]

private def otherKeys : Snapshot := snapshotOf [logicAt "1" "10.0.0.4:9000", logicAt "3" "10.0.0.3:9000"]

/-- The last poll adds a key, removes one and updates one. -/
private def polls : List Event :=
  [.getPrefix twoKeys, .firstPollOnce twoKeys,
    .pollOnce otherKeys [logicAt "3" "10.0.0.3:9000"] ["services/logic/logic-2"] [logicAt "1" "10.0.0.4:9000"]]

theorem changed_keys_mirrored :
    ∃ state, (machine fourTexts).run {} polls = some state ∧
      state.pool.clients = {"10.0.0.4:9000", "10.0.0.3:9000"} ∧ Mirrored fourTexts state := by
  have named : Named fourTexts twoKeys ∧ Named fourTexts otherKeys := by
    unfold Named
    decide
  have apart : Apart fourTexts twoKeys ∧ Apart fourTexts otherKeys := by
    unfold Apart
    decide
  have free : ∀ kv ∈ pairs twoKeys, (endpointOf fourTexts kv).addr ≠ "10.0.0.3:9000" := by decide
  have keeps : (machine fourTexts).Meets (KeepsTrack fourTexts) {} polls := by
    refine .cons rfl ⟨named.1, apart.1⟩ (.cons rfl ?_ (.cons rfl ⟨named.2, apart.2, ?_⟩ trivial))
    · intro listed same key
      cases same
      rfl
    · intro previous same
      cases same
      refine ⟨fun kv member key held => ?_, List.pairwise_singleton _ _⟩
      obtain ⟨found, present, _, addr⟩ := addrAt_eq_some held
      rw [List.mem_singleton.mp member] at addr
      exact free found present addr
  exact ⟨_, rfl, by decide, (tracks_snapshot_of_keepsTrack keeps).atEnd rfl⟩

/-! ## The first difference -/

private def logicValue : String := "\x7b\"addr\":\"10.0.0.1:9000\"\x7d"

/-- A parser that knows one text. -/
private def oneText : Config where
  parse := fun text =>
    if text = logicValue then some (.object [("addr", .string "10.0.0.1:9000")]) else none

private def oneKey : Snapshot := AList.singleton "services/logic/logic-1" logicValue

/-- The instance registers between the first reading and the first poll. -/
theorem first_difference_is_dropped :
    ∃ state, (machine oneText).run {} [.getPrefix ∅, .firstPollOnce oneKey] = some state ∧
      state.pool.clients = ∅ ∧ ¬ Mirrored oneText state := by
  refine ⟨_, rfl, rfl, fun mirrored => ?_⟩
  have connected := (mirrored oneKey rfl "10.0.0.1:9000").mpr
    ⟨_, List.mem_singleton_self _, by decide⟩
  exact absurd connected (by decide)

end MuduoIm.Gateway.EtcdPoll
