import Mathlib.Algebra.Ring.Nat
import Mathlib.Data.Finset.Insert
import Mathlib.Data.Finset.Erase
import Mathlib.Data.Set.Function
import Mathlib.Order.Fin.Basic
import MuduoIm.Data.OrderedMap

namespace MuduoIm.Gateway.ConsistentHashRing

open MuduoIm.Data

/-! # The ring of a consistent hash

A node stands on the ring at the hashes of its labels, and a key belongs to the
node of the entry next to its hash.  As long as the labels in use do not
collide, the ring is the set of the entries of its nodes.
-/

/-- The values of `std::hash`. -/
abbrev Hash := Fin (2 ^ 64)

abbrev Ring := OrderedMap Hash String

/-- The label of a virtual node. -/
def label (node : String) (i : ℕ) : String := node ++ "#" ++ toString i

variable (hash : String → Hash) (virtualNodes : ℕ)

def addNode (ring : Ring) (node : String) : Ring :=
  (List.range virtualNodes).foldl (fun ring i => ring.insert (hash (label node i)) node) ring

def removeNode (ring : Ring) (node : String) : Ring :=
  ring.keep (fun other => other ≠ node)

/-- The node of a key, the empty string on an empty ring. -/
def get (ring : Ring) (key : String) : String :=
  match ring.next (hash key) with
  | some entry => entry.2
  | none => ""

/-! ## The entries of a set of nodes -/

/-- A letter that does not occur before it splits a list at one place only. -/
theorem append_cons_inj {Letter : Type} {separator : Letter} {first second rest rest' : List Letter}
    (absent : separator ∉ first) (absent' : separator ∉ second)
    (equal : first ++ separator :: rest = second ++ separator :: rest') :
    first = second ∧ rest = rest' := by
  induction first generalizing second with
  | nil =>
      cases second with
      | nil => exact ⟨rfl, (List.cons.inj equal).2⟩
      | cons letter second =>
          rw [List.nil_append, List.cons_append] at equal
          exact absurd (List.mem_cons.mpr (.inl (List.cons.inj equal).1)) absent'
  | cons letter first ih =>
      cases second with
      | nil =>
          rw [List.nil_append, List.cons_append] at equal
          exact absurd (List.mem_cons.mpr (.inl (List.cons.inj equal).1.symm)) absent
      | cons letter' second =>
          rw [List.cons_append, List.cons_append] at equal
          obtain ⟨rfl, tails⟩ := List.cons.inj equal
          obtain ⟨rfl, rests⟩ := ih (fun member => absent (List.mem_cons_of_mem _ member))
            (fun member => absent' (List.mem_cons_of_mem _ member)) tails
          exact ⟨rfl, rests⟩

theorem digits_plain (i : ℕ) : '#' ∉ (toString i).toList := by
  intro member
  have chars : (toString i).toList = Nat.toDigits 10 i := Nat.toList_repr
  rw [chars] at member
  exact absurd (Nat.isDigit_of_mem_toDigits (by decide) (by decide) member) (by decide)

theorem toString_injective {i j : ℕ} (same : toString i = toString j) : i = j := by
  have read (i : ℕ) : Nat.ofDigitChars 10 (toString i).toList 0 = i := by
    have chars : (toString i).toList = Nat.toDigits 10 i := Nat.toList_repr
    rw [chars]
    exact Nat.ofDigitChars_ten_toDigits
  rw [← read i, ← read j, same]

/-- The number of a label starts behind its last `#`. -/
theorem label_inj {node other : String} {i j : ℕ} :
    label node i = label other j ↔ node = other ∧ i = j := by
  constructor
  · intro equal
    have letters : (toString i).toList.reverse ++ '#' :: node.toList.reverse =
        (toString j).toList.reverse ++ '#' :: other.toList.reverse := by
      have reversed := congrArg (fun text : String => text.toList.reverse) equal
      simp only [label, String.toList_append, List.reverse_append] at reversed
      exact reversed
    have absent (i : ℕ) : '#' ∉ (toString i).toList.reverse :=
      fun member => digits_plain i (List.mem_reverse.mp member)
    obtain ⟨digits, nodes⟩ := append_cons_inj (absent i) (absent j) letters
    rw [List.reverse_inj, String.toList_inj] at digits nodes
    exact ⟨nodes, toString_injective digits⟩
  · rintro ⟨rfl, rfl⟩
    rfl

/-- The labels of the nodes. -/
def labels (nodes : Finset String) : Set String :=
  { text | ∃ node ∈ nodes, ∃ i < virtualNodes, text = label node i }

variable {hash virtualNodes} {ring : Ring} {nodes more : Finset String} {node key : String}

/-- The ring has the entries of these nodes. -/
def Represents (hash : String → Hash) (virtualNodes : ℕ) (ring : Ring) (nodes : Finset String) : Prop :=
  ∀ entry, entry ∈ ring.entries ↔
    entry.2 ∈ nodes ∧ ∃ i < virtualNodes, entry.1 = hash (label entry.2 i)

theorem represents_empty : Represents hash virtualNodes OrderedMap.empty ∅ := by
  intro entry
  simp [OrderedMap.empty]

theorem Represents.unique {other : Ring} (represents : Represents hash virtualNodes ring nodes)
    (same : Represents hash virtualNodes other nodes) : ring = other :=
  OrderedMap.ext_of_mem (fun entry => (represents entry).trans (same entry).symm)

theorem labels_mono (subset : nodes ⊆ more) : labels virtualNodes nodes ⊆ labels virtualNodes more := by
  rintro text ⟨node, member, i, bound, rfl⟩
  exact ⟨node, subset member, i, bound, rfl⟩

/-- The virtual nodes of a new node are entered one after the other. -/
theorem mem_foldl_insert (collisionFree : Set.InjOn hash (labels virtualNodes (insert node nodes)))
    (represents : Represents hash virtualNodes ring nodes) (count : ℕ) (bound : count ≤ virtualNodes)
    (entry : Hash × String) :
    entry ∈ ((List.range count).foldl
        (fun ring i => ring.insert (hash (label node i)) node) ring).entries ↔
      entry ∈ ring.entries ∨ entry.2 = node ∧ ∃ i < count, entry.1 = hash (label node i) := by
  induction count generalizing entry with
  | zero => simp
  | succ count ih =>
      rw [List.range_succ, List.foldl_append, List.foldl_cons, List.foldl_nil,
        OrderedMap.mem_insert, ih (by omega)]
      constructor
      · rintro (rfl | ⟨old | ⟨named, i, below, placed⟩, _⟩)
        · exact .inr ⟨rfl, count, by omega, rfl⟩
        · exact .inl old
        · exact .inr ⟨named, i, by omega, placed⟩
      · have own : label node count ∈ labels virtualNodes (insert node nodes) :=
          ⟨node, Finset.mem_insert_self .., count, by omega, rfl⟩
        by_cases here : entry = (hash (label node count), node)
        · exact fun _ => .inl here
        rintro (old | ⟨named, i, below, placed⟩)
        · refine .inr ⟨.inl old, ?_⟩
          intro collides
          obtain ⟨member, i, below, placed⟩ := (represents entry).mp old
          have equal := collisionFree ⟨entry.2, Finset.mem_insert_of_mem member, i, below, rfl⟩ own
            (placed.symm.trans collides)
          exact here (Prod.ext collides (label_inj.mp equal).1)
        · refine .inr ⟨.inr ⟨named, i, ?_, placed⟩, ?_⟩
          · by_contra last
            obtain rfl : i = count := by omega
            exact here (Prod.ext placed named)
          · intro collides
            exact here (Prod.ext collides named)

theorem Represents.addNode (represents : Represents hash virtualNodes ring nodes)
    (collisionFree : Set.InjOn hash (labels virtualNodes (insert node nodes))) :
    Represents hash virtualNodes (addNode hash virtualNodes ring node) (insert node nodes) := by
  intro entry
  rw [ConsistentHashRing.addNode, mem_foldl_insert collisionFree represents _ le_rfl, represents,
    Finset.mem_insert]
  constructor
  · rintro (⟨member, placed⟩ | ⟨rfl, placed⟩)
    · exact ⟨.inr member, placed⟩
    · exact ⟨.inl rfl, placed⟩
  · rintro ⟨rfl | member, placed⟩
    · exact .inr ⟨rfl, placed⟩
    · exact .inl ⟨member, placed⟩

theorem Represents.removeNode (represents : Represents hash virtualNodes ring nodes)
    (node : String) : Represents hash virtualNodes (removeNode ring node) (nodes.erase node) := by
  intro entry
  rw [ConsistentHashRing.removeNode, OrderedMap.mem_keep, represents, Finset.mem_erase,
    decide_eq_true_eq]
  tauto

theorem Represents.get_mem (represents : Represents hash virtualNodes ring nodes) (key : String) :
    get hash ring key ∈ nodes ∨ get hash ring key = "" ∧ (nodes = ∅ ∨ virtualNodes = 0) := by
  rw [get]
  split
  next entry found =>
    exact .inl ((represents entry).mp (OrderedMap.next_eq_some.mp found).1).1
  next none =>
    refine .inr ⟨rfl, ?_⟩
    by_contra some
    rw [not_or] at some
    obtain ⟨node, member⟩ := Finset.nonempty_iff_ne_empty.mpr some.1
    have placed := (represents (hash (label node 0), node)).mpr
      ⟨member, 0, Nat.pos_of_ne_zero some.2, rfl⟩
    rw [OrderedMap.next_eq_none.mp none] at placed
    cases placed

/-- A key that reads like a label belongs to the node of the label. -/
theorem Represents.get_label (represents : Represents hash virtualNodes ring nodes)
    (member : node ∈ nodes) {i : ℕ} (bound : i < virtualNodes) :
    get hash ring (label node i) = node := by
  have here : (hash (label node i), node) ∈ ring.entries :=
    (represents _).mpr ⟨member, i, bound, rfl⟩
  have isNext : ring.IsNext (hash (label node i)) (hash (label node i), node) :=
    ⟨here, fun other _ => by rw [if_pos le_rfl]; exact id⟩
  rw [get, OrderedMap.next_eq_some.mpr isNext]

/-- Entries added for one node take keys over for that node only. -/
theorem get_of_subset {larger : Ring} (subset : ∀ entry ∈ ring.entries, entry ∈ larger.entries)
    (others : ∀ entry ∈ larger.entries, entry.2 ≠ node → entry ∈ ring.entries) (key : String)
    (changed : get hash larger key ≠ get hash ring key) : get hash larger key = node := by
  by_contra elsewhere
  apply changed
  cases found : larger.next (hash key) with
  | none =>
      have empty : ring.entries = [] := by
        rw [List.eq_nil_iff_forall_not_mem]
        intro entry member
        have absurdly := subset entry member
        rw [OrderedMap.next_eq_none.mp found] at absurdly
        cases absurdly
      rw [get, get, found, OrderedMap.next_eq_none.mpr empty]
  | some entry =>
      rw [get, found] at elsewhere
      have isNext := OrderedMap.next_eq_some.mp found
      have kept := isNext.of_subset (others entry isNext.1 elsewhere) subset
      rw [get, get, found, OrderedMap.next_eq_some.mpr kept]

/-! ## Histories of calls -/

inductive Call where
  | add (node : String)
  | remove (node : String)
deriving DecidableEq

def Call.apply (hash : String → Hash) (virtualNodes : ℕ) (ring : Ring) : Call → Ring
  | .add node => addNode hash virtualNodes ring node
  | .remove node => removeNode ring node

/-- The ring after the calls. -/
def run (hash : String → Hash) (virtualNodes : ℕ) (calls : List Call) : Ring :=
  calls.foldl (Call.apply hash virtualNodes) OrderedMap.empty

/-- The set of nodes after the calls. -/
def nodesAfter (calls : List Call) : Finset String :=
  calls.foldl (fun nodes call =>
    match call with
    | .add node => insert node nodes
    | .remove node => nodes.erase node) ∅

/-- The nodes whose labels have been in use. -/
def used (calls : List Call) : Finset String :=
  (calls.filterMap (fun call =>
    match call with
    | .add node => some node
    | .remove _ => none)).toFinset

variable {calls others : List Call}

theorem nodesAfter_subset_used (calls : List Call) : nodesAfter calls ⊆ used calls := by
  induction calls using List.reverseRecOn with
  | nil => exact Finset.empty_subset _
  | append_singleton calls call ih =>
      cases call with
      | add node =>
          have grown : used (calls ++ [.add node]) = insert node (used calls) := by
            ext other
            simp only [used, List.filterMap_append, List.mem_toFinset, List.mem_append, Finset.mem_insert]
            rw [or_comm]
            exact or_congr_left List.mem_singleton
          rw [grown, nodesAfter, List.foldl_append]
          exact Finset.insert_subset_insert node ih
      | remove node =>
          have same : used (calls ++ [.remove node]) = used calls := by simp [used]
          rw [same, nodesAfter, List.foldl_append]
          exact (Finset.erase_subset node _).trans ih

theorem represents_run (collisionFree : Set.InjOn hash (labels virtualNodes (used calls))) :
    Represents hash virtualNodes (run hash virtualNodes calls) (nodesAfter calls) := by
  induction calls using List.reverseRecOn with
  | nil => exact represents_empty
  | append_singleton calls call ih =>
      have earlier : used calls ⊆ used (calls ++ [call]) := by
        intro node
        simp only [used, List.filterMap_append, List.mem_toFinset, List.mem_append]
        exact Or.inl
      have represents := ih (collisionFree.mono (labels_mono earlier))
      rw [run, nodesAfter, List.foldl_append, List.foldl_append]
      cases call with
      | add node =>
          apply represents.addNode
          apply collisionFree.mono (labels_mono ?_)
          intro other member
          rcases Finset.mem_insert.mp member with rfl | old
          · simp [used]
          · exact earlier (nodesAfter_subset_used calls old)
      | remove node => exact represents.removeNode node

/-- The ring depends on the final set of nodes alone, a key belongs to one of
its nodes, and a call moves keys only to the node added or from the node removed. -/
theorem ring_is_consistent (collisionFree : Set.InjOn hash (labels virtualNodes (used calls))) :
    (∀ others, Set.InjOn hash (labels virtualNodes (used others)) →
      nodesAfter others = nodesAfter calls →
        run hash virtualNodes others = run hash virtualNodes calls) ∧
    (∀ key, get hash (run hash virtualNodes calls) key ∈ nodesAfter calls ∨
      get hash (run hash virtualNodes calls) key = "" ∧
        (nodesAfter calls = ∅ ∨ virtualNodes = 0)) ∧
    (∀ node, Set.InjOn hash (labels virtualNodes (used (calls ++ [.add node]))) → ∀ key,
      get hash (run hash virtualNodes (calls ++ [.add node])) key ≠
          get hash (run hash virtualNodes calls) key →
        get hash (run hash virtualNodes (calls ++ [.add node])) key = node) ∧
    ∀ node key, get hash (run hash virtualNodes (calls ++ [.remove node])) key ≠
        get hash (run hash virtualNodes calls) key →
      get hash (run hash virtualNodes calls) key = node := by
  have represents := represents_run collisionFree
  refine ⟨?_, represents.get_mem, ?_, ?_⟩
  · intro others apart same
    have other := represents_run apart
    rw [same] at other
    exact other.unique represents
  · intro node apart key
    have larger := represents_run apart
    have nodes : nodesAfter (calls ++ [.add node]) = insert node (nodesAfter calls) := by
      rw [nodesAfter, List.foldl_append]
      rfl
    rw [nodes] at larger
    apply get_of_subset
    · intro entry member
      obtain ⟨listed, placed⟩ := (represents entry).mp member
      exact (larger entry).mpr ⟨Finset.mem_insert_of_mem listed, placed⟩
    · intro entry member different
      obtain ⟨listed, placed⟩ := (larger entry).mp member
      exact (represents entry).mpr ⟨Finset.mem_of_mem_insert_of_ne listed different, placed⟩
  · intro node key changed
    have removed : run hash virtualNodes (calls ++ [.remove node]) =
        removeNode (run hash virtualNodes calls) node := by
      rw [run, List.foldl_append]
      rfl
    rw [removed] at changed
    refine get_of_subset ?_ ?_ key changed.symm
    · intro entry member
      exact (OrderedMap.mem_keep.mp member).1
    · intro entry member different
      exact OrderedMap.mem_keep.mpr ⟨member, by simpa using different⟩

/-! ## A hash without collisions -/

/-- The number at the end of a label, with an offset by the length of its node. -/
def sampleHash (text : String) : Hash :=
  Fin.ofNat (2 ^ 64)
    (Nat.ofDigitChars 10 (text.toList.reverse.takeWhile Char.isDigit).reverse 0 +
      1000 * (text.toList.takeWhile (· ≠ '#')).length)

theorem sampleHash_label (plain : '#' ∉ node.toList) (i : ℕ) :
    sampleHash (label node i) = Fin.ofNat (2 ^ 64) (i + 1000 * node.toList.length) := by
  have chars : (toString i).toList = Nat.toDigits 10 i := Nat.toList_repr
  have letters : (label node i).toList = node.toList ++ '#' :: Nat.toDigits 10 i := by
    rw [label, String.toList_append, String.toList_append, chars, List.append_assoc]
    rfl
  have digits : (label node i).toList.reverse.takeWhile Char.isDigit =
      (Nat.toDigits 10 i).reverse := by
    rw [letters, List.reverse_append, List.reverse_cons, List.append_assoc,
      List.takeWhile_append_of_pos]
    · rw [List.singleton_append, List.takeWhile_cons_of_neg (by decide), List.append_nil]
    · intro letter member
      exact Nat.isDigit_of_mem_toDigits (by decide) (by decide) (List.mem_reverse.mp member)
  have name : (label node i).toList.takeWhile (· ≠ '#') = node.toList := by
    rw [letters, List.takeWhile_append_of_pos]
    · rw [List.takeWhile_cons_of_neg (by simp), List.append_nil]
    · intro letter member
      simpa using fun same : letter = '#' => plain (same ▸ member)
  rw [sampleHash, digits, name, List.reverse_reverse, Nat.ofDigitChars_ten_toDigits]

/-- Nodes of different lengths do not collide. -/
theorem sampleHash_injOn (few : virtualNodes ≤ 1000)
    (plain : ∀ node ∈ nodes, '#' ∉ node.toList ∧ node.toList.length < 1000)
    (apart : ∀ node ∈ nodes, ∀ other ∈ nodes,
      node.toList.length = other.toList.length → node = other) :
    Set.InjOn sampleHash (labels virtualNodes nodes) := by
  rintro _ ⟨node, member, i, below, rfl⟩ _ ⟨other, member', j, below', rfl⟩ equal
  rw [sampleHash_label (plain node member).1, sampleHash_label (plain other member').1] at equal
  have small := (plain node member).2
  have small' := (plain other member').2
  have values := congrArg Fin.val equal
  rw [Fin.val_ofNat, Fin.val_ofNat, Nat.mod_eq_of_lt (by omega), Nat.mod_eq_of_lt (by omega)]
    at values
  rw [label_inj]
  exact ⟨apart node member other member' (by omega), by omega⟩

theorem ring_is_consistent_sample :
    Set.InjOn sampleHash (labels 200 (used [.add "a", .add "bb", .remove "a"])) ∧
      ∀ key, get sampleHash (run sampleHash 200 [.add "a", .add "bb", .remove "a"]) key = "bb" := by
  have collisionFree :
      Set.InjOn sampleHash (labels 200 (used [.add "a", .add "bb", .remove "a"])) :=
    sampleHash_injOn (by decide) (by decide) (by decide)
  refine ⟨collisionFree, fun key => ?_⟩
  have left : nodesAfter [.add "a", .add "bb", .remove "a"] = {"bb"} := by decide
  have member := (ring_is_consistent collisionFree).2.1 key
  rw [left] at member
  simpa using member

/-- The empty string is a node like any other, and then the answer for every key. -/
theorem empty_name_is_returned :
    Set.InjOn sampleHash (labels 200 (used [.add ""])) ∧ nodesAfter [.add ""] ≠ ∅ ∧
      ∀ key, get sampleHash (run sampleHash 200 [.add ""]) key = "" := by
  have collisionFree : Set.InjOn sampleHash (labels 200 (used [.add ""])) :=
    sampleHash_injOn (by decide) (by decide) (by decide)
  refine ⟨collisionFree, by decide, fun key => ?_⟩
  have member := (represents_run collisionFree).get_mem key
  have left : nodesAfter [.add ""] = {""} := by decide
  rw [left] at member
  simpa using member

end MuduoIm.Gateway.ConsistentHashRing
