import MuduoIm.Data.Table
import MuduoIm.Data.Glob

namespace MuduoIm.Data

/-! # String keys of a Redis server

The commands on plain string keys, for keys that do not expire in between.
-/

abbrev Keyspace := Table String String

inductive KeyCommand where
  | set (key value : String) (ttl : Nat)
  | del (key : String)
  | expire (key : String) (ttl : Nat)
deriving DecidableEq, Repr

namespace Keyspace

def execute (keyspace : Keyspace) : KeyCommand → Keyspace
  | .set key value _ => keyspace.insert key value
  | .del key => keyspace.erase key
  | .expire _ _ => keyspace

def executeAll (keyspace : Keyspace) (commands : List KeyCommand) : Keyspace :=
  commands.foldl execute keyspace

def get (keyspace : Keyspace) (key : String) : Option String := keyspace.lookup key

def exist (keyspace : Keyspace) (key : String) : Bool := (keyspace.lookup key).isSome

/-- The KEYS command. -/
def matching (keyspace : Keyspace) (pattern : String) : List String :=
  keyspace.keys.filter (Glob.globMatch pattern)

variable {keyspace : Keyspace} {key stem : String} {commands : List KeyCommand}
variable {written : String → String → Prop}

theorem mem_matching_stem (plain : ∀ c ∈ stem.toList, Glob.Plain c) :
    key ∈ keyspace.matching (stem ++ "*") ↔
      (∃ value, keyspace.get key = some value) ∧ stem.toList <+: key.toList := by
  have present : key ∈ keyspace.keys ↔ ∃ value, keyspace.get key = some value := by
    rw [← AList.mem_keys, ← AList.lookup_isSome, Option.isSome_iff_exists]
    rfl
  rw [matching, List.mem_filter, present, Glob.globMatch_append_star plain]

/-- Every key holds what a command has set it to. -/
theorem executeAll_written
    (before : ∀ key value, keyspace.get key = some value → written key value)
    (sets : ∀ key value ttl, .set key value ttl ∈ commands → written key value) :
    ∀ key value, (keyspace.executeAll commands).get key = some value → written key value := by
  induction commands generalizing keyspace with
  | nil => exact before
  | cons command commands ih =>
      refine ih ?_ (fun key value ttl member => sets key value ttl (by simp [member]))
      intro key value found
      cases command with
      | set changed stored ttl =>
          rw [execute, get, Table.lookup_insert_ite] at found
          split at found
          · rename_i same
            rw [same, ← Option.some.inj found]
            exact sets changed stored ttl (by simp)
          · exact before key value found
      | del removed =>
          rw [execute, get, Table.lookup_erase_ite] at found
          split at found
          · cases found
          · exact before key value found
      | expire refreshed ttl => exact before key value found

end Keyspace

end MuduoIm.Data
