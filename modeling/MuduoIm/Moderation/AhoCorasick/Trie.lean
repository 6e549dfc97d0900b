import MuduoIm.Moderation.AhoCorasick

namespace MuduoIm.Moderation.AhoCorasick

open Data Data.Suffixes

/-! # The nodes are the prefixes of the words

Each node has a label, the path that leads to it from the root.  The labels are
distinct and closed under prefixes, and a child is found exactly where the
label extended by its letter is a label.
-/

structure Trie (nodes : List Node) (labels : List Bytes) : Prop where
  size : labels.length = nodes.length
  root : labels[0]? = some []
  distinct : labels.Nodup
  child : ∀ {index : ℕ} {label : Bytes}, labels[index]? = some label → ∀ c next,
    (node nodes index).children.lookup c = some next ↔ labels[next]? = some (label ++ [c])
  closed : PrefixClosed (· ∈ labels)
  shallow : ∀ {index : ℕ} {label : Bytes}, labels[index]? = some label → label.length ≤ index

/-- The automaton before `build`: each node has the entries of its own label. -/
structure Dictionary (nodes : List Node) (labels : List Bytes)
    (entries : List (Bytes × Bytes)) : Prop where
  trie : Trie nodes labels
  listed : ∀ entry ∈ entries, entry.1 ∈ labels
  nonempty : ∀ entry ∈ entries, entry.1 ≠ []
  own : ∀ {index : ℕ} {label : Bytes}, labels[index]? = some label →
    (node nodes index).words = entries.filter (fun entry => entry.1 = label)

variable {nodes : List Node} {labels : List Bytes} {entries : List (Bytes × Bytes)}
  {index next cur : ℕ} {label : Bytes} {c : UInt8}

theorem node_modify {change : Node → Node} (within : index < nodes.length) :
    node (nodes.modify index change) cur =
      if cur = index then change (node nodes index) else node nodes cur := by
  by_cases same : cur = index
  · subst same
    simp [node, List.getD_eq_getElem?_getD, within]
  · simp [node, List.getD_eq_getElem?_getD, same, Ne.symm same]

theorem node_append (within : index < nodes.length) (added : List Node) :
    node (nodes ++ added) index = node nodes index := by
  rw [node, node, List.getD_eq_getElem?_getD, List.getD_eq_getElem?_getD,
    List.getElem?_append_left within]

theorem node_beyond (beyond : nodes.length ≤ index) : node nodes index = {} := by
  rw [node, List.getD_eq_getElem?_getD, List.getElem?_eq_none beyond]
  rfl

/-- The nodes after a child was appended to `cur` for a letter. -/
def withChild (nodes : List Node) (cur : ℕ) (c : UInt8) : List Node :=
  (nodes ++ [({} : Node)]).modify cur (fun node => { node with children := node.children.insert c nodes.length })

theorem node_withChild (here : cur < nodes.length) : node (withChild nodes cur c) index =
    if index = cur then { node nodes cur with children := (node nodes cur).children.insert c nodes.length }
    else node nodes index := by
  rw [withChild, node_modify (by rw [List.length_append]; omega), node_append here]
  by_cases old : index < nodes.length
  · rw [node_append old]
  · have beyond : node (nodes ++ [({} : Node)]) index = node nodes index := by
      rw [node_beyond (Nat.le_of_not_lt old), node, List.getD_eq_getElem?_getD,
        List.getElem?_append_right (by omega), List.getElem?_singleton]
      split <;> rfl
    rw [beyond]

theorem label_append {found last : Bytes} : (labels ++ [last])[index]? = some found ↔
    labels[index]? = some found ∨ index = labels.length ∧ found = last := by
  by_cases old : index < labels.length
  · rw [List.getElem?_append_left old]
    constructor
    · exact Or.inl
    · intro either
      rcases either with kept | ⟨equal, _⟩
      · exact kept
      · omega
  · rw [List.getElem?_append_right (by omega), List.getElem?_singleton, List.getElem?_eq_none (by omega)]
    constructor
    · intro appended
      split at appended
      · exact .inr ⟨by omega, (Option.some.inj appended).symm⟩
      · cases appended
    · intro either
      rcases either with absurdly | ⟨equal, same⟩
      · cases absurdly
      · rw [if_pos (by omega), same]

namespace Trie

variable (trie : Trie nodes labels)

include trie

theorem within (at_ : labels[index]? = some label) : index < nodes.length := by
  rw [← trie.size]
  exact (List.getElem?_eq_some_iff.mp at_).1

theorem same_index (at_ : labels[index]? = some label) (found : labels[next]? = some label) :
    index = next :=
  (List.getElem?_inj (List.getElem?_eq_some_iff.mp at_).1 trie.distinct).mp (at_.trans found.symm)

theorem lookup_none (at_ : labels[index]? = some label) :
    (node nodes index).children.lookup c = none ↔ label ++ [c] ∉ labels := by
  rw [Option.eq_none_iff_forall_ne_some, List.mem_iff_getElem?, not_exists]
  exact forall_congr' (fun next => not_congr (trie.child at_ c next))

/-- A child of the appended node would have been in the trie without it. -/
theorem deeper_ne {deeper : Bytes} {letter : UInt8} (missing : label ++ [c] ∉ labels)
    (listed : deeper ++ [letter] ∈ labels) : deeper ≠ label ++ [c] := by
  intro same
  exact missing (same ▸ trie.closed.concat _ _ listed)

theorem child_extend (at_ : labels[cur]? = some label) (missing : label ++ [c] ∉ labels) {found : Bytes}
    (at' : (labels ++ [label ++ [c]])[index]? = some found) (letter : UInt8) (next : ℕ) :
    (node (withChild nodes cur c) index).children.lookup letter = some next ↔
      (labels ++ [label ++ [c]])[next]? = some (found ++ [letter]) := by
  have here := trie.within at_
  have size := trie.size
  rw [node_withChild here, label_append]
  rcases label_append.mp at' with kept | ⟨rfl, rfl⟩
  · by_cases same : index = cur
    · subst same
      obtain rfl : found = label := Option.some.inj (kept.symm.trans at_)
      rw [if_pos rfl, Table.lookup_insert_ite]
      by_cases equal : letter = c
      · -- the new edge
        subst equal
        rw [if_pos rfl, size]
        constructor
        · intro last
          exact .inr ⟨(Option.some.inj last).symm, rfl⟩
        · intro either
          rcases either with old | ⟨last, _⟩
          · exact absurd (List.mem_of_getElem? old) missing
          · rw [last]
      · rw [if_neg equal, trie.child at_]
        constructor
        · exact Or.inl
        · intro either
          rcases either with old | ⟨_, extended⟩
          · exact old
          · exact absurd (List.singleton_inj.mp (List.append_cancel_left extended)) equal
    · rw [if_neg same, trie.child kept]
      constructor
      · exact Or.inl
      · intro either
        rcases either with old | ⟨_, extended⟩
        · exact old
        · obtain ⟨rfl, _⟩ := List.append_inj' extended rfl
          exact absurd (trie.same_index kept at_) same
  · -- the appended node has no child
    rw [if_neg (by omega), node_beyond (by omega)]
    constructor
    · intro found
      cases found
    · intro either
      rcases either with old | ⟨_, longer⟩
      · exact absurd rfl (trie.deeper_ne missing (List.mem_of_getElem? old))
      · have lengths := congrArg List.length longer
        simp at lengths

theorem extend (at_ : labels[cur]? = some label) (missing : label ++ [c] ∉ labels) :
    Trie (withChild nodes cur c) (labels ++ [label ++ [c]]) where
  size := by simp [withChild, trie.size]
  root := label_append.mpr (.inl trie.root)
  distinct := by
    rw [List.nodup_append]
    refine ⟨trie.distinct, List.nodup_singleton _, ?_⟩
    intro found member added appended equal
    rw [List.mem_singleton] at appended
    exact missing (appended ▸ equal ▸ member)
  child := trie.child_extend at_ missing
  closed := by
    refine ⟨List.mem_append_left _ trie.closed.nil, ?_⟩
    intro found letter member
    rcases List.mem_append.mp member with old | new
    · exact List.mem_append_left _ (trie.closed.concat _ _ old)
    · obtain ⟨rfl, _⟩ := List.append_inj' (List.mem_singleton.mp new) rfl
      exact List.mem_append_left _ (List.mem_of_getElem? at_)
  shallow := by
    intro index found at'
    rcases label_append.mp at' with kept | ⟨rfl, rfl⟩
    · exact trie.shallow kept
    · have above := trie.shallow at_
      have here := trie.within at_
      have size := trie.size
      rw [List.length_append, List.length_singleton]
      omega

end Trie

theorem dictionary_fresh : Dictionary fresh [[]] [] where
  trie :=
    { size := rfl
      root := rfl
      distinct := List.nodup_singleton _
      child := by
        intro index label at_ c next
        obtain ⟨rfl, rfl⟩ : index = 0 ∧ label = [] := by
          rw [List.getElem?_singleton] at at_
          split at at_
          · exact ⟨‹index = 0›, (Option.some.inj at_).symm⟩
          · cases at_
        have absent : ([[]] : List Bytes)[next]? ≠ some [c] := by
          rw [List.getElem?_singleton]
          split <;> simp
        constructor
        · intro found
          cases found
        · intro found
          exact absurd found absent
      closed := ⟨by simp, by simp⟩
      shallow := by
        intro index label at_
        rw [List.getElem?_singleton] at at_
        split at at_
        · cases at_
          exact Nat.zero_le _
        · cases at_ }
  listed := by simp
  nonempty := by simp
  own := by
    intro index label _
    rcases index with _ | index <;> rfl

namespace Dictionary

variable (dictionary : Dictionary nodes labels entries)

include dictionary

/-- The node appended for a letter that has no child yet. -/
theorem extend (at_ : labels[cur]? = some label) (missing : label ++ [c] ∉ labels) :
    Dictionary (withChild nodes cur c) (labels ++ [label ++ [c]]) entries where
  trie := dictionary.trie.extend at_ missing
  listed := fun entry member => List.mem_append_left _ (dictionary.listed entry member)
  nonempty := dictionary.nonempty
  own := by
    intro index found at'
    rw [node_withChild (dictionary.trie.within at_)]
    rcases label_append.mp at' with kept | ⟨rfl, rfl⟩
    · by_cases same : index = cur
      · subst same
        rw [if_pos rfl]
        exact dictionary.own kept
      · rw [if_neg same]
        exact dictionary.own kept
    · have here := dictionary.trie.within at_
      have size := dictionary.trie.size
      rw [if_neg (by omega), node_beyond (by omega), eq_comm, List.filter_eq_nil_iff]
      intro entry member equal
      exact missing (of_decide_eq_true equal ▸ dictionary.listed entry member)

theorem step (at_ : labels[cur]? = some label) : ∃ grown,
    Dictionary (step nodes cur c).1 grown entries ∧
      grown[(AhoCorasick.step nodes cur c).2]? = some (label ++ [c]) := by
  cases found : (node nodes cur).children.lookup c with
  | none =>
      refine ⟨labels ++ [label ++ [c]], ?_, ?_⟩
      · rw [AhoCorasick.step, found]
        exact dictionary.extend at_ ((dictionary.trie.lookup_none at_).mp found)
      · rw [AhoCorasick.step, found, ← dictionary.trie.size]
        simp
  | some next =>
      refine ⟨labels, ?_, ?_⟩
      · rw [AhoCorasick.step, found]
        exact dictionary
      · rw [AhoCorasick.step, found]
        exact (dictionary.trie.child at_ c next).mp found

end Dictionary

theorem Dictionary.descend (dictionary : Dictionary nodes labels entries)
    (at_ : labels[cur]? = some label) (word : Bytes) : ∃ grown,
      Dictionary (descend nodes cur word).1 grown entries ∧
        grown[(AhoCorasick.descend nodes cur word).2]? = some (label ++ word) := by
  induction word generalizing nodes labels cur label with
  | nil => exact ⟨labels, dictionary, by rw [List.append_nil]; exact at_⟩
  | cons c word ih =>
      obtain ⟨grown, reached, at'⟩ := dictionary.step (c := c) at_
      obtain ⟨full, complete, last⟩ := ih reached at'
      refine ⟨full, complete, ?_⟩
      rw [List.append_assoc] at last
      exact last

theorem Dictionary.addWord (dictionary : Dictionary nodes labels entries)
    (word category : Bytes) : ∃ grown, Dictionary (addWord nodes word category) grown
      (entries ++ [(word, category)].filter (fun call => call.1 ≠ [])) := by
  by_cases empty : word = []
  · refine ⟨labels, ?_⟩
    rw [AhoCorasick.addWord, if_pos empty, List.filter_cons_of_neg (by simpa using empty),
      List.filter_nil, List.append_nil]
    exact dictionary
  · obtain ⟨grown, complete, last⟩ := dictionary.descend dictionary.trie.root word
    rw [List.nil_append] at last
    refine ⟨grown, ?_⟩
    rw [AhoCorasick.addWord, if_neg empty, List.filter_cons_of_pos (by simpa using empty),
      List.filter_nil]
    have here := complete.trie.within last
    constructor
    case trie =>
      have trie := complete.trie
      refine ⟨by rw [List.length_modify]; exact trie.size, trie.root, trie.distinct, ?_,
        trie.closed, trie.shallow⟩
      intro index label at_ c next
      rw [node_modify here, ← trie.child at_]
      split
      next same => rw [same]
      next => rfl
    case listed =>
      intro entry member
      rcases List.mem_append.mp member with old | new
      · exact complete.listed entry old
      · rw [List.mem_singleton.mp new]
        exact List.mem_of_getElem? last
    case nonempty =>
      intro entry member
      rcases List.mem_append.mp member with old | new
      · exact complete.nonempty entry old
      · rw [List.mem_singleton.mp new]
        exact empty
    case own =>
      intro index label at_
      rw [node_modify here, List.filter_append]
      by_cases same : index = (AhoCorasick.descend nodes 0 word).2
      · obtain rfl : label = word := by
          rw [same, last] at at_
          exact (Option.some.inj at_).symm
        rw [if_pos same, complete.own last, List.filter_singleton]
        simp
      · have other : word ≠ label := by
          rintro rfl
          exact same (complete.trie.same_index at_ last)
        rw [if_neg same, complete.own at_, List.filter_cons_of_neg (by simpa using other),
          List.filter_nil, List.append_nil]

/-- The entries of a sequence of calls: those with an empty word are not added. -/
def added (calls : List (Bytes × Bytes)) : List (Bytes × Bytes) :=
  calls.filter (fun call => call.1 ≠ [])

theorem dictionary_addWords (calls : List (Bytes × Bytes)) :
    ∃ labels, Dictionary (addWords fresh calls) labels (added calls) := by
  induction calls using List.reverseRecOn with
  | nil => exact ⟨[[]], dictionary_fresh⟩
  | append_singleton calls call ih =>
      obtain ⟨labels, dictionary⟩ := ih
      obtain ⟨grown, complete⟩ := dictionary.addWord call.1 call.2
      refine ⟨grown, ?_⟩
      rw [addWords, List.foldl_append, added, List.filter_append]
      exact complete

end MuduoIm.Moderation.AhoCorasick
