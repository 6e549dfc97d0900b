import Mathlib.Data.List.Dedup
import MuduoIm.Data.Text
import MuduoIm.Server.OnlineManager

namespace MuduoIm.Server.InstanceRouter

open MuduoIm.Data MuduoIm.Data.Text MuduoIm.Server.OnlineManager

/-! # Messages to the other instances of the server

The router reads the presence keys that the online tables of all instances
write, and publishes on the channel of every instance that they name.
-/

structure Publication where
  channel : String
  payload : String
deriving DecidableEq, Repr

/-- The channel to which an instance subscribes. -/
def channel (instanceId : String) : String := "msg:instance:" ++ instanceId

def keysPattern (uid : Int) : String := "online:" ++ toString uid ++ ":*"

/-- The set of instances that the keys name, in its order. -/
def targets (redis : Keyspace) (uid : Int) : List String :=
  (((redis.matching (keysPattern uid)).filterMap (fun key => redis.get (cString key))).map
    cString).dedup.mergeSort (fun left right => decide (left ≤ right))

/-- What is published, and its number. -/
def publishToUser (instanceId : String) (redis : Keyspace) (uid : Int) (payload : String) :
    List Publication × Nat :=
  let remote := (targets redis uid).filter (fun target => decide (target ≠ instanceId))
  (remote.map (fun target => ⟨channel target, payload⟩), remote.length)

/-! ## The two key encoders -/

variable {redis : Keyspace} {userId uid : Int} {dev : String} {c : Char}

theorem int_chars (member : c ∈ (toString uid).toList) : c.isDigit = true ∨ c = '-' := by
  have digits : ∀ n : Nat, c ∈ n.repr.toList → c.isDigit = true := by
    intro n listed
    rw [Nat.toList_repr] at listed
    exact Nat.isDigit_of_mem_toDigits (by decide) (by decide) listed
  cases uid with
  | ofNat n => exact .inl (digits n member)
  | negSucc n =>
      have split : (toString (Int.negSucc n)).toList = '-' :: (n + 1).repr.toList := by
        change ("-" ++ (n + 1).repr).toList = _
        rw [String.toList_append]
        rfl
      rw [split] at member
      rcases List.mem_cons.mp member with sign | digit
      · exact .inr sign
      · exact .inl (digits _ digit)

theorem ne_of_mem_int {other : Char} (member : c ∈ (toString uid).toList)
    (noDigit : other.isDigit = false) (noSign : other ≠ '-') : c ≠ other := by
  intro same
  rcases int_chars member with digit | sign
  · rw [same, noDigit] at digit
    cases digit
  · exact noSign (same.symm.trans sign)

theorem keysPattern_stem : keysPattern uid = ("online:" ++ toString uid ++ ":") ++ "*" := by
  have parts : ":*" = ":" ++ "*" := rfl
  rw [keysPattern, parts, ← String.append_assoc]

theorem stem_plain : ∀ c ∈ ("online:" ++ toString uid ++ ":").toList, Glob.Plain c := by
  intro c member
  simp only [String.toList_append, List.mem_append] at member
  rcases member with (lead | digits) | colon
  · exact Glob.plain_of_all rfl c lead
  · exact ⟨ne_of_mem_int digits rfl (by decide), ne_of_mem_int digits rfl (by decide),
      ne_of_mem_int digits rfl (by decide), ne_of_mem_int digits rfl (by decide)⟩
  · exact Glob.plain_of_all rfl c colon

/-- The keys of the online table have a brace where the pattern has the user. -/
theorem not_stem_prefix :
    ¬ ("online:" ++ toString uid ++ ":").toList <+: (keyOnline userId dev).toList := by
  intro begins
  have lead : "online:\x7b".toList = "online:".toList ++ ['\x7b'] := rfl
  simp only [keyOnline, String.toList_append, lead, List.append_assoc] at begins
  rw [List.prefix_append_right_inj] at begins
  cases digits : (toString uid).toList with
  | nil =>
      rw [digits] at begins
      have same := (List.cons_prefix_cons.mp begins).1
      revert same
      decide
  | cons first rest =>
      rw [digits] at begins
      have same := (List.cons_prefix_cons.mp begins).1
      exact ne_of_mem_int (digits ▸ List.mem_cons_self) rfl (by decide) same

/-- The key without a device is none of the keys of the online table. -/
theorem keyOnline_ne_keyOnlineUid : keyOnline userId dev ≠ keyOnlineUid uid := by
  intro same
  have lists := congrArg String.toList same
  have noBrace : ∀ user : Int, ∀ c ∈ (toString user).toList, decide (c ≠ '\x7d') = true := by
    intro user c member
    exact decide_eq_true (ne_of_mem_int member rfl (by decide))
  simp only [keyOnline, keyOnlineUid, String.toList_append, List.append_assoc,
    List.append_cancel_left_eq] at lists
  have ends := congrArg (List.dropWhile (fun c => decide (c ≠ '\x7d'))) lists
  rw [List.dropWhile_append_of_pos (noBrace userId),
    List.dropWhile_append_of_pos (noBrace uid)] at ends
  have lengths := congrArg List.length ends
  simp at lengths

/-- Every key of the server is one that an online table writes, with the instance
id that its constructor has by default. -/
def Presence (redis : Keyspace) : Prop :=
  ∀ key value, redis.get key = some value →
    value = "instance-0" ∧ ∃ userId dev, key = keyOnline userId dev

theorem matching_presence (presence : Presence redis) : redis.matching (keysPattern uid) = [] := by
  apply List.eq_nil_iff_forall_not_mem.mpr
  intro key member
  rw [keysPattern_stem, Keyspace.mem_matching_stem stem_plain] at member
  obtain ⟨⟨value, stored⟩, begins⟩ := member
  obtain ⟨_, userId, dev, rfl⟩ := presence key value stored
  exact not_stem_prefix begins

theorem publishToUser_presence (presence : Presence redis) (instanceId payload : String) :
    publishToUser instanceId redis uid payload = ([], 0) := by
  have nobody : targets redis uid = [] := by
    simp [targets, matching_presence presence]
  rw [publishToUser, nobody]
  rfl

theorem exist_presence (presence : Presence redis) : redis.exist (keyOnlineUid uid) = false := by
  rw [Keyspace.exist, Option.isSome_eq_false_iff, Option.isNone_iff_eq_none]
  by_contra stored
  obtain ⟨value, stored⟩ := Option.ne_none_iff_exists'.mp stored
  obtain ⟨_, userId, dev, same⟩ := presence _ _ stored
  exact keyOnline_ne_keyOnlineUid same.symm

end MuduoIm.Server.InstanceRouter
