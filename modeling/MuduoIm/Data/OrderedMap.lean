import Mathlib.Data.List.Perm.Basic
import Mathlib.Order.Lattice

namespace MuduoIm.Data

/-! # Ordered maps

An ordered map is the list of its entries by increasing keys.  The entry next
to a key is the first one that is not below it, and the first of all where
there is none, as on a ring.
-/

variable {Key Value : Type} [LinearOrder Key]

structure OrderedMap (Key Value : Type) [LinearOrder Key] where
  entries : List (Key × Value)
  increasing : entries.Pairwise (fun first second => first.1 < second.1)

namespace OrderedMap

/-- The entries after an assignment to a key. -/
def assign (key : Key) (value : Value) : List (Key × Value) → List (Key × Value)
  | [] => [(key, value)]
  | entry :: rest =>
      if key < entry.1 then (key, value) :: entry :: rest
      else if entry.1 = key then (key, value) :: rest
      else entry :: assign key value rest

variable {key other : Key} {value : Value} {entries : List (Key × Value)} {entry : Key × Value}

theorem mem_assign (increasing : entries.Pairwise (fun first second => first.1 < second.1)) :
    entry ∈ assign key value entries ↔ entry = (key, value) ∨ entry ∈ entries ∧ entry.1 ≠ key := by
  induction entries with
  | nil => simp [assign]
  | cons first rest ih =>
      obtain ⟨below, increasing⟩ := List.pairwise_cons.mp increasing
      rw [assign]
      split
      next before =>
        rw [List.mem_cons]
        apply or_congr_right
        rw [iff_self_and]
        intro member
        rcases List.mem_cons.mp member with rfl | later
        · exact before.ne'
        · exact (before.trans (below entry later)).ne'
      next =>
        split
        next same =>
          rw [List.mem_cons, List.mem_cons]
          apply or_congr_right
          constructor
          · intro member
            exact ⟨.inr member, (same ▸ below entry member).ne'⟩
          · rintro ⟨rfl | member, different⟩
            · exact absurd same different
            · exact member
        next different =>
          rw [List.mem_cons, ih increasing, List.mem_cons]
          constructor
          · rintro (rfl | rfl | ⟨member, apart⟩)
            · exact .inr ⟨.inl rfl, different⟩
            · exact .inl rfl
            · exact .inr ⟨.inr member, apart⟩
          · rintro (rfl | ⟨rfl | member, apart⟩)
            · exact .inr (.inl rfl)
            · exact .inl rfl
            · exact .inr (.inr ⟨member, apart⟩)

theorem increasing_assign (increasing : entries.Pairwise (fun first second => first.1 < second.1)) :
    (assign key value entries).Pairwise (fun first second => first.1 < second.1) := by
  induction entries with
  | nil => exact List.pairwise_singleton _ _
  | cons first rest ih =>
      obtain ⟨below, later⟩ := List.pairwise_cons.mp increasing
      rw [assign]
      split
      next before =>
        refine List.pairwise_cons.mpr ⟨?_, increasing⟩
        intro entry member
        rcases List.mem_cons.mp member with rfl | member
        · exact before
        · exact before.trans (below entry member)
      next after =>
        split
        next same =>
          refine List.pairwise_cons.mpr ⟨?_, later⟩
          intro entry member
          exact same ▸ below entry member
        next different =>
          refine List.pairwise_cons.mpr ⟨?_, ih later⟩
          intro entry member
          rcases (mem_assign later).mp member with rfl | ⟨member, _⟩
          · exact lt_of_le_of_ne (not_lt.mp after) different
          · exact below entry member

def empty : OrderedMap Key Value where
  entries := []
  increasing := List.Pairwise.nil

def insert (map : OrderedMap Key Value) (key : Key) (value : Value) : OrderedMap Key Value where
  entries := assign key value map.entries
  increasing := increasing_assign map.increasing

/-- The entries whose values are kept. -/
def keep (map : OrderedMap Key Value) (kept : Value → Bool) : OrderedMap Key Value where
  entries := map.entries.filter (fun entry => kept entry.2)
  increasing := map.increasing.filter _

def lowerBound (map : OrderedMap Key Value) (key : Key) : Option (Key × Value) :=
  map.entries.find? (fun entry => key ≤ entry.1)

/-- The entry next to a key on the ring. -/
def next (map : OrderedMap Key Value) (key : Key) : Option (Key × Value) :=
  (map.lowerBound key).or map.entries.head?

variable {map more : OrderedMap Key Value}

theorem mem_insert : entry ∈ (map.insert key value).entries ↔
    entry = (key, value) ∨ entry ∈ map.entries ∧ entry.1 ≠ key :=
  mem_assign map.increasing

theorem mem_keep {kept : Value → Bool} :
    entry ∈ (map.keep kept).entries ↔ entry ∈ map.entries ∧ kept entry.2 = true :=
  List.mem_filter

/-- The entries of a map determine it. -/
theorem ext_of_mem (same : ∀ entry, entry ∈ map.entries ↔ entry ∈ more.entries) : map = more := by
  have nodup (map : OrderedMap Key Value) : map.entries.Nodup :=
    map.increasing.imp (fun before equal => (equal ▸ before).ne rfl)
  have equal : map.entries = more.entries := by
    apply List.Perm.eq_of_pairwise _ map.increasing more.increasing
    · exact (List.perm_ext_iff_of_nodup (nodup map) (nodup more)).mpr same
    · intro first second _ _ before after
      exact absurd (before.trans after) (lt_irrefl _)
  cases map
  cases more
  cases equal
  rfl

/-- No other entry is met between a key and this one. -/
def IsNext (map : OrderedMap Key Value) (key : Key) (entry : Key × Value) : Prop :=
  entry ∈ map.entries ∧ ∀ other ∈ map.entries,
    if key ≤ entry.1 then key ≤ other.1 → entry.1 ≤ other.1
    else other.1 < key ∧ entry.1 ≤ other.1

/-- What is next in a map is next in every part of it that has the entry. -/
theorem IsNext.of_subset (isNext : more.IsNext key entry) (member : entry ∈ map.entries)
    (subset : ∀ other ∈ map.entries, other ∈ more.entries) : map.IsNext key entry :=
  ⟨member, fun other listed => isNext.2 other (subset other listed)⟩

/-- Keys of two entries differ. -/
theorem eq_of_key {first second : Key × Value} (member : first ∈ map.entries)
    (listed : second ∈ map.entries) (same : first.1 = second.1) : first = second := by
  have apart (first second : Key × Value) (before : first.1 < second.1) :
      first.1 ≠ second.1 := before.ne
  have unique : map.entries.Pairwise (fun first second => first.1 = second.1 → first = second) :=
    map.increasing.imp (fun before equal => absurd equal (apart _ _ before))
  have flipped : map.entries.Pairwise (flip (fun first second : Key × Value =>
      first.1 = second.1 → first = second)) :=
    map.increasing.imp (fun before equal => absurd equal.symm (apart _ _ before))
  exact unique.forall_of_forall_of_flip (fun _ _ _ => rfl) flipped member listed same

theorem IsNext.unique {first second : Key × Value} (isFirst : map.IsNext key first)
    (isSecond : map.IsNext key second) : first = second := by
  apply eq_of_key isFirst.1 isSecond.1
  have forward := isFirst.2 second isSecond.1
  have backward := isSecond.2 first isFirst.1
  split at forward
  next above =>
    split at backward
    next above' => exact le_antisymm (forward above') (backward above)
    next => exact absurd above (not_le.mpr backward.1)
  next =>
    split at backward
    next above' => exact absurd above' (not_le.mpr forward.1)
    next => exact le_antisymm forward.2 backward.2

theorem next_eq_none : map.next key = none ↔ map.entries = [] := by
  rw [next, Option.or_eq_none_iff, List.head?_eq_none_iff, lowerBound]
  constructor
  · exact And.right
  · intro empty
    rw [empty]
    exact ⟨rfl, rfl⟩

theorem isNext_of_next (found : map.next key = some entry) : map.IsNext key entry := by
  obtain ⟨entries, increasing⟩ := map
  rw [next, lowerBound, Option.or_eq_some_iff] at found
  rcases found with found | ⟨none, first⟩
  · obtain ⟨above, before, after, rfl, below⟩ := List.find?_eq_some_iff_append.mp found
    rw [decide_eq_true_eq] at above
    refine ⟨by simp, ?_⟩
    intro other listed
    rw [if_pos above]
    intro reached
    rcases List.mem_append.mp listed with early | late
    · have unreached := below other early
      simp only [Bool.not_eq_true', decide_eq_false_iff_not] at unreached
      exact absurd reached unreached
    · rcases List.mem_cons.mp late with rfl | later
      · exact le_rfl
      · have tail := (List.pairwise_append.mp increasing).2.1
        exact ((List.pairwise_cons.mp tail).1 other later).le
  · rw [List.find?_eq_none] at none
    obtain ⟨rest, rfl⟩ := List.head?_eq_some_iff.mp first
    refine ⟨List.mem_cons_self .., ?_⟩
    intro other listed
    have unreached (other : Key × Value) (listed : other ∈ entry :: rest) : other.1 < key := by
      simpa using none other listed
    rw [if_neg (not_le.mpr (unreached entry (List.mem_cons_self ..)))]
    refine ⟨unreached other listed, ?_⟩
    rcases List.mem_cons.mp listed with rfl | later
    · exact le_rfl
    · exact ((List.pairwise_cons.mp increasing).1 other later).le

theorem next_eq_some : map.next key = some entry ↔ map.IsNext key entry := by
  refine ⟨isNext_of_next, ?_⟩
  intro isNext
  cases found : map.next key with
  | none =>
      have empty := isNext.1
      rw [next_eq_none.mp found] at empty
      cases empty
  | some other => rw [isNext.unique (isNext_of_next found)]

end OrderedMap

end MuduoIm.Data
