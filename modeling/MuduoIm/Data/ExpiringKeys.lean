import MuduoIm.Data.Keyspace

namespace MuduoIm.Data

/-! # String keys that expire

A key lives until its deadline, on a clock in milliseconds; the times to live of
the commands are in seconds.
-/

structure ExpiringKeys where
  now : Nat := 0
  keys : Table String (String × Nat) := ∅

namespace KeyCommand

/-- The command creates or deletes the key. -/
def Changes (key : String) : KeyCommand → Prop
  | .set changed _ _ => changed = key
  | .del changed => changed = key
  | .expire _ _ => False

def Sets : KeyCommand → Prop
  | .set _ _ _ => True
  | _ => False

/-- No time to live is over at once. -/
def Lasting : KeyCommand → Prop
  | .set _ _ ttl => 0 < ttl
  | .del _ => True
  | .expire _ ttl => 0 < ttl

end KeyCommand

namespace ExpiringKeys

variable (redis : ExpiringKeys)

def get (key : String) : Option String :=
  ((redis.keys.lookup key).filter (fun entry => redis.now < entry.2)).map Prod.fst

def exist (key : String) : Bool := (redis.get key).isSome

def execute : KeyCommand → ExpiringKeys
  | .set key value ttl => { redis with keys := redis.keys.insert key (value, redis.now + 1000 * ttl) }
  | .del key => { redis with keys := redis.keys.erase key }
  | .expire key ttl =>
      match redis.get key with
      | some value => { redis with keys := redis.keys.insert key (value, redis.now + 1000 * ttl) }
      | none => redis

def tick (milliseconds : Nat) : ExpiringKeys := { redis with now := redis.now + milliseconds }

/-- The key has been set or refreshed so late that it outlives the time. -/
def Outlives (key : String) (milliseconds : Nat) : Prop :=
  ∃ value deadline, redis.keys.lookup key = some (value, deadline) ∧ redis.now + milliseconds < deadline

variable {redis} {key : String} {command : KeyCommand} {milliseconds : Nat}

theorem exist_iff_outlives : redis.exist key = true ↔ redis.Outlives key 0 := by
  rw [exist, get, Outlives, Option.isSome_map]
  constructor
  · intro live
    obtain ⟨entry, kept⟩ := Option.isSome_iff_exists.mp live
    obtain ⟨found, late⟩ := Option.filter_eq_some_iff.mp kept
    exact ⟨entry.1, entry.2, found, of_decide_eq_true late⟩
  · intro given
    obtain ⟨value, deadline, found, late⟩ := given
    simpa [found] using late

theorem exist_tick : (redis.tick milliseconds).exist key = true ↔ redis.Outlives key milliseconds := by
  rw [exist_iff_outlives]
  rfl

theorem Outlives.exist (outlives : redis.Outlives key milliseconds) : redis.exist key = true := by
  obtain ⟨value, deadline, found, late⟩ := outlives
  exact exist_iff_outlives.mpr ⟨value, deadline, found, by omega⟩

/-- A command that changes the key leaves it if it sets it. -/
theorem exist_execute_of_changes (lasting : command.Lasting) (changes : command.Changes key) :
    (redis.execute command).exist key = true ↔ command.Sets := by
  cases command with
  | set changed value ttl =>
      cases changes
      simp only [KeyCommand.Lasting] at lasting
      rw [exist_iff_outlives, execute, Outlives]
      simp only [AList.lookup_insert, KeyCommand.Sets, iff_true]
      exact ⟨value, _, rfl, by omega⟩
  | del changed =>
      cases changes
      simp [exist, get, execute, KeyCommand.Sets]
  | expire changed ttl => exact changes.elim

/-- No other command makes a key or loses one. -/
theorem exist_execute_of_not_changes (lasting : command.Lasting) (other : ¬command.Changes key) :
    (redis.execute command).exist key = redis.exist key := by
  cases command with
  | set changed value ttl =>
      have different : key ≠ changed := fun same => other same.symm
      simp only [exist, get, execute, AList.lookup_insert_ne different]
      rfl
  | del changed =>
      have different : key ≠ changed := fun same => other same.symm
      simp only [exist, get, execute, AList.lookup_erase_ne different]
      rfl
  | expire changed ttl =>
      simp only [KeyCommand.Lasting] at lasting
      rw [execute]
      cases found : redis.get changed with
      | none => rfl
      | some value =>
          by_cases same : key = changed
          · subst same
            have kept : (redis.now : Nat) < redis.now + 1000 * ttl := by omega
            have lives : redis.exist key = true := by rw [exist, found, Option.isSome_some]
            rw [lives, exist_iff_outlives]
            exact ⟨value, _, AList.lookup_insert _, kept⟩
          · simp only [exist, get, AList.lookup_insert_ne same]

end ExpiringKeys

end MuduoIm.Data
