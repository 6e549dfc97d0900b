import MuduoIm.Moderation.AhoCorasick.Trie

namespace MuduoIm.Moderation.AhoCorasick

open Data Data.Suffixes

/-! # The failure links

A linked node fails to the node of its border and carries the entries of all
its suffixes.  The queue holds its nodes by depth, so that every node that is
not deeper than the one at its head has been linked.
-/

def Linked (nodes : List Node) (labels : List Bytes) (entries : List (Bytes × Bytes))
    (index : ℕ) : Prop :=
  ∀ label, labels[index]? = some label →
    labels[(node nodes index).fail]? = some (border (· ∈ labels) label) ∧
      (node nodes index).words = endingAt Prod.fst entries label

/-- The automaton while `build` runs: the nodes pushed so far are linked. -/
structure Halfway (nodes : List Node) (labels : List Bytes) (entries : List (Bytes × Bytes))
    (pushed : List ℕ) : Prop where
  trie : Trie nodes labels
  listed : ∀ entry ∈ entries, entry.1 ∈ labels
  nonempty : ∀ entry ∈ entries, entry.1 ≠ []
  linked : ∀ index, index = 0 ∨ index ∈ pushed → Linked nodes labels entries index
  own : ∀ index ∉ pushed, ∀ label, labels[index]? = some label →
    (node nodes index).words = entries.filter (fun entry => entry.1 = label)

variable {nodes changed : List Node} {labels : List Bytes} {entries : List (Bytes × Bytes)}
  {index next cur budget : ℕ} {label : Bytes} {c : UInt8} {pushed processed queue : List ℕ}

theorem Trie.of_children (trie : Trie nodes labels) (size : changed.length = nodes.length)
    (same : ∀ index, (node changed index).children = (node nodes index).children) :
    Trie changed labels where
  size := trie.size.trans size.symm
  root := trie.root
  distinct := trie.distinct
  child := by
    intro index label at_ c next
    rw [same]
    exact trie.child at_ c next
  closed := trie.closed
  shallow := trie.shallow

theorem Trie.setFail (trie : Trie nodes labels) (within : index < nodes.length) (fail : ℕ) :
    Trie (setFail nodes index fail) labels := by
  refine trie.of_children (by rw [AhoCorasick.setFail, List.length_modify]) ?_
  intro other
  rw [AhoCorasick.setFail, node_modify within]
  split
  next same => rw [same]
  next => rfl

/-- The loop over the failure links ends, at a node whose child for the letter is
the longest known suffix of the extended label, or at the root without one. -/
theorem follow_spec (trie : Trie nodes labels) (at_ : labels[index]? = some label)
    (linked : ∀ other found, labels[other]? = some found → found.length ≤ label.length →
      labels[(node nodes other).fail]? = some (border (· ∈ labels) found))
    (enough : label.length < budget) : ∃ last, follow nodes c budget index = some last ∧
      ((∃ next, (node nodes last).children.lookup c = some next ∧
          labels[next]? = some (longestSuffix (· ∈ labels) (label ++ [c]))) ∨
        ((node nodes last).children.lookup c = none ∧ last = 0 ∧
          longestSuffix (· ∈ labels) (label ++ [c]) = [])) := by
  induction budget generalizing index label with
  | zero => omega
  | succ budget ih =>
      cases found : (node nodes index).children.lookup c with
      | some next =>
          have at' := (trie.child at_ c next).mp found
          refine ⟨index, by rw [follow, if_neg (by simp [found])], .inl ⟨next, found, ?_⟩⟩
          rw [longestSuffix_of_known (List.mem_of_getElem? at')]
          exact at'
      | none =>
          have unknown := (trie.lookup_none at_).mp found
          by_cases rooted : index = 0
          · subst rooted
            obtain rfl : label = [] := Option.some.inj (at_.symm.trans trie.root)
            refine ⟨0, by rw [follow, if_neg (by simp)], .inr ⟨found, rfl, ?_⟩⟩
            exact longestSuffix_singleton_of_unknown unknown
          · have proper : label ≠ [] := by
              rintro rfl
              exact rooted (trie.same_index at_ trie.root)
            have shorter := border_length_lt (· ∈ labels) proper
            obtain ⟨last, ends, reached⟩ := ih (linked index label at_ le_rfl)
              (fun other found at' short => linked other found at' (by omega)) (by omega)
            refine ⟨last, ?_, ?_⟩
            · rw [follow, if_pos ⟨rooted, found⟩]
              exact ends
            · rw [longestSuffix_concat_of_unknown trie.closed proper unknown]
              exact reached

theorem inherit_read (within : next < nodes.length) {fail : ℕ} (apart : fail ≠ next) :
    (inherit nodes next fail).length = nodes.length ∧ ∀ other, node (inherit nodes next fail) other =
      if other = next then
        { node nodes next with
          fail := fail
          words := (node nodes next).words ++ if fail = 0 then [] else (node nodes fail).words }
      else node nodes other := by
  have read (other : ℕ) : node (setFail nodes next fail) other =
      if other = next then { node nodes next with fail := fail } else node nodes other :=
    node_modify within
  by_cases rooted : fail = 0
  · rw [inherit, if_neg (by simpa using rooted)]
    refine ⟨by rw [setFail, List.length_modify], ?_⟩
    intro other
    rw [read, if_pos rooted, List.append_nil]
  · rw [inherit, if_pos rooted]
    refine ⟨by rw [List.length_modify, setFail, List.length_modify], ?_⟩
    intro other
    rw [node_modify (by rw [setFail, List.length_modify]; exact within), read, read, read,
      if_neg apart, if_neg rooted, if_pos rfl]
    split
    next => rfl
    next => rfl

theorem border_apart {fail : ℕ} (child : labels[next]? = some (label ++ [c]))
    (failed : labels[fail]? = some (border (· ∈ labels) (label ++ [c]))) : fail ≠ next := by
  intro same
  subst same
  have equal := Option.some.inj (failed.symm.trans child)
  have shorter := border_length_lt (· ∈ labels) (show label ++ [c] ≠ [] by simp)
  rw [equal] at shorter
  omega

/-- The border of a child is found from the failure link of its parent.  It is
shorter than the child, so the test against the child itself is idle. -/
theorem Trie.failTarget (trie : Trie nodes labels) (proper : label ≠ [])
    (at_ : labels[index]? = some (border (· ∈ labels) label))
    (linked : ∀ other found, labels[other]? = some found → found.length < label.length →
      labels[(node nodes other).fail]? = some (border (· ∈ labels) found))
    (child : labels[next]? = some (label ++ [c])) (enough : label.length ≤ nodes.length) :
    ∃ last, follow nodes c nodes.length index = some last ∧
      labels[failTarget nodes last ⟨c, next⟩]? = some (border (· ∈ labels) (label ++ [c])) := by
  have shorter := border_length_lt (· ∈ labels) proper
  obtain ⟨last, ends, found⟩ := follow_spec (c := c) trie at_
    (fun other found at' short => linked other found at' (by omega))
    (show (border (· ∈ labels) label).length < nodes.length by omega)
  refine ⟨last, ends, ?_⟩
  rw [← border_concat trie.closed proper] at found
  rcases found with ⟨other, lookup, at'⟩ | ⟨lookup, _, empty⟩
  · have different := border_apart child at'
    rw [AhoCorasick.failTarget, lookup]
    simp only [if_pos different]
    exact at'
  · rw [AhoCorasick.failTarget, lookup, empty]
    exact trie.root

/-- One child of a node at the head of the queue is linked. -/
theorem Halfway.link (halfway : Halfway nodes labels entries pushed)
    (at_ : labels[cur]? = some label) (proper : label ≠ [])
    (reached : ∀ other found, labels[other]? = some found → found.length ≤ label.length →
      other = 0 ∨ other ∈ pushed)
    (child : labels[next]? = some (label ++ [c])) (unlinked : next ∉ pushed) :
    ∃ changed, link cur nodes ⟨c, next⟩ = some changed ∧
      Halfway changed labels entries (pushed ++ [next]) := by
  have trie := halfway.trie
  have fails (other : ℕ) (found : Bytes) (at' : labels[other]? = some found)
      (short : found.length ≤ label.length) :
      labels[(node nodes other).fail]? = some (border (· ∈ labels) found) :=
    (halfway.linked other (reached other found at' short) found at').1
  have deep := trie.shallow at_
  have here := trie.within at_
  obtain ⟨last, ends, target⟩ := trie.failTarget proper (fails cur label at_ le_rfl)
    (fun other found at' short => fails other found at' (by omega)) child (by omega)
  generalize chosen : AhoCorasick.failTarget nodes last ⟨c, next⟩ = fail at target
  have result : AhoCorasick.link cur nodes ⟨c, next⟩ = some (inherit nodes next fail) := by
    simp only [AhoCorasick.link, ends, Option.bind_eq_bind, Option.bind_some, chosen]
  obtain ⟨size, read⟩ := inherit_read (trie.within child) (border_apart child target)
  have below : (node nodes fail).words =
      endingAt Prod.fst entries (border (· ∈ labels) (label ++ [c])) := by
    refine (halfway.linked fail (reached fail _ target ?_) _ target).2
    have shorter := border_length_lt (· ∈ labels) (show label ++ [c] ≠ [] by simp)
    rw [List.length_append, List.length_singleton] at shorter
    omega
  -- At the root there is nothing to copy.
  have copied : (if fail = 0 then [] else (node nodes fail).words) =
      endingAt Prod.fst entries (border (· ∈ labels) (label ++ [c])) := by
    split
    next rooted =>
      subst rooted
      rw [Option.some.inj (target.symm.trans trie.root)]
      exact (endingAt_nil halfway.nonempty).symm
    next => exact below
  refine ⟨inherit nodes next fail, result, ?_⟩
  constructor
  case trie =>
    refine trie.of_children size ?_
    intro other
    rw [read]
    split
    next same => rw [same]
    next => rfl
  case listed => exact halfway.listed
  case nonempty => exact halfway.nonempty
  case linked =>
    intro other member found at'
    rw [read]
    by_cases same : other = next
    · subst same
      obtain rfl : found = label ++ [c] := Option.some.inj (at'.symm.trans child)
      rw [if_pos rfl]
      refine ⟨target, ?_⟩
      rw [endingAt_border halfway.listed (by simp), copied,
        halfway.own other unlinked _ child]
    · rw [if_neg same]
      refine halfway.linked other ?_ found at'
      rcases member with root | member
      · exact .inl root
      · rcases List.mem_append.mp member with old | new
        · exact .inr old
        · exact absurd (List.mem_singleton.mp new) same
  case own =>
    intro other absent found at'
    rw [List.mem_append, not_or, List.mem_singleton] at absent
    rw [read, if_neg absent.2]
    exact halfway.own other absent.1 found at'

theorem Halfway.linkChildren (halfway : Halfway nodes labels entries pushed)
    (at_ : labels[cur]? = some label) (proper : label ≠ [])
    (reached : ∀ other found, labels[other]? = some found → found.length ≤ label.length →
      other = 0 ∨ other ∈ pushed)
    (children : List (Sigma (fun _ : UInt8 => ℕ)))
    (edges : ∀ child ∈ children, labels[child.2]? = some (label ++ [child.1]))
    (fresh : (pushed ++ children.map Sigma.snd).Nodup) :
    ∃ changed, children.foldlM (AhoCorasick.link cur) nodes = some changed ∧
      Halfway changed labels entries (pushed ++ children.map Sigma.snd) := by
  induction children generalizing nodes pushed with
  | nil =>
      refine ⟨nodes, rfl, ?_⟩
      rw [List.map_nil, List.append_nil]
      exact halfway
  | cons child children ih =>
      have unlinked : child.2 ∉ pushed := by
        intro old
        exact (List.nodup_append.mp fresh).2.2 _ old _ (List.mem_cons_self ..) rfl
      obtain ⟨changed, result, next⟩ := halfway.link at_ proper reached
        (edges child (List.mem_cons_self ..)) unlinked
      rw [List.map_cons, List.append_cons] at fresh
      obtain ⟨final, results, complete⟩ := ih next
        (fun other found at' short =>
          (reached other found at' short).imp_right (List.mem_append_left _))
        (fun child member => edges child (List.mem_cons_of_mem _ member)) fresh
      refine ⟨final, ?_, ?_⟩
      · rw [List.foldlM_cons, result]
        exact results
      · rw [List.map_cons, List.append_cons]
        exact complete

section Queue

/-- How far a node is from the root. -/
def depth (labels : List Bytes) (index : ℕ) : ℕ := (labels[index]?.getD []).length

theorem depth_eq (at_ : labels[index]? = some label) : depth labels index = label.length := by
  rw [depth, at_, Option.getD_some]

/-- The queue of `build` behind the nodes that it has processed. -/
structure Frontier (labels : List Bytes) (processed queue : List ℕ) : Prop where
  distinct : (processed ++ queue).Nodup
  proper : ∀ index ∈ processed ++ queue, ∃ label, labels[index]? = some label ∧ label ≠ []
  pushed : ∀ index label c next, labels[index]? = some label →
    labels[next]? = some (label ++ [c]) →
      (next ∈ processed ++ queue ↔ index = 0 ∨ index ∈ processed)
  sorted : queue.Pairwise (fun first second => depth labels first ≤ depth labels second)
  band : ∀ first ∈ queue, ∀ second ∈ queue, depth labels second ≤ depth labels first + 1

/-- A node that is missing from the queue has an ancestor in it. -/
theorem Frontier.reached (frontier : Frontier labels processed queue) (trie : Trie nodes labels)
    (at_ : labels[index]? = some label)
    (shallow : ∀ waiting ∈ queue, label.length ≤ depth labels waiting) :
    index = 0 ∨ index ∈ processed ++ queue := by
  induction label using List.reverseRecOn generalizing index with
  | nil => exact .inl (trie.same_index at_ trie.root)
  | append_singleton label c ih =>
      obtain ⟨parent, at'⟩ :=
        List.mem_iff_getElem?.mp (trie.closed.concat _ _ (List.mem_of_getElem? at_))
      rw [List.length_append, List.length_singleton] at shallow
      have above := ih at' (fun waiting member => by
        have bounded := shallow waiting member
        omega)
      refine .inr ((frontier.pushed parent label c index at' at_).mpr ?_)
      refine above.imp_right (fun member => ?_)
      rcases List.mem_append.mp member with done | waiting
      · exact done
      · have deep := shallow parent waiting
        rw [depth_eq at'] at deep
        omega

variable (traversal : Traversal)

/-- The children of a node are the nodes whose labels extend its label. -/
theorem Trie.edges (trie : Trie nodes labels) (at_ : labels[cur]? = some label)
    (child : Sigma (fun _ : UInt8 => ℕ)) :
    child ∈ traversal.order cur (node nodes cur).children ↔
      labels[child.2]? = some (label ++ [child.1]) := by
  rw [(traversal.perm cur _).mem_iff, ← trie.child at_]
  exact AList.mem_lookup_iff.symm

theorem Trie.mem_children (trie : Trie nodes labels) (at_ : labels[cur]? = some label) (next : ℕ) :
    next ∈ (traversal.order cur (node nodes cur).children).map Sigma.snd ↔
      ∃ c, labels[next]? = some (label ++ [c]) := by
  rw [List.mem_map]
  constructor
  · intro listed
    obtain ⟨child, member, rfl⟩ := listed
    exact ⟨child.1, (trie.edges traversal at_ child).mp member⟩
  · intro extended
    obtain ⟨c, at'⟩ := extended
    exact ⟨⟨c, next⟩, (trie.edges traversal at_ _).mpr at', rfl⟩

theorem Trie.distinct_children (trie : Trie nodes labels) (at_ : labels[cur]? = some label) :
    ((traversal.order cur (node nodes cur).children).map Sigma.snd).Nodup := by
  apply List.Nodup.map_on
  · intro first firstMember second secondMember equal
    have firstEdge := (trie.edges traversal at_ first).mp firstMember
    have secondEdge := (trie.edges traversal at_ second).mp secondMember
    rw [equal, secondEdge] at firstEdge
    have same := List.append_cancel_left (Option.some.inj firstEdge)
    exact Sigma.ext (List.singleton_inj.mp same).symm (heq_of_eq equal)
  · exact (traversal.perm cur _).nodup_iff.mpr (node nodes cur).children.nodupKeys.nodup

/-- The node at the head of the queue is replaced by its children at the end. -/
theorem Frontier.pop (frontier : Frontier labels processed (cur :: queue))
    (trie : Trie nodes labels) (at_ : labels[cur]? = some label) :
    Frontier labels (processed ++ [cur])
      (queue ++ (traversal.order cur (node nodes cur).children).map Sigma.snd) := by
  have child := trie.mem_children traversal at_
  have distinct := trie.distinct_children traversal at_
  generalize (traversal.order cur (node nodes cur).children).map Sigma.snd = children at child distinct ⊢
  have here : cur ≠ 0 := by
    intro root
    subst root
    obtain ⟨found, at', proper⟩ := frontier.proper 0 (by simp)
    exact proper (Option.some.inj (at'.symm.trans trie.root))
  have unprocessed : cur ∉ processed := by
    intro done
    exact (List.nodup_append.mp frontier.distinct).2.2 _ done _ (List.mem_cons_self ..) rfl
  have fresh {next : ℕ} (member : next ∈ children) : next ∉ processed ++ cur :: queue := by
    obtain ⟨c, at'⟩ := (child _).mp member
    rw [frontier.pushed cur label c next at_ at', not_or]
    exact ⟨here, unprocessed⟩
  have deeper {next : ℕ} (member : next ∈ children) :
      depth labels next = depth labels cur + 1 := by
    obtain ⟨c, at'⟩ := (child _).mp member
    rw [depth_eq at', depth_eq at_, List.length_append, List.length_singleton]
  have regrouped : processed ++ [cur] ++ (queue ++ children) =
      processed ++ cur :: queue ++ children := by simp
  have sorted := List.pairwise_cons.mp frontier.sorted
  have within {waiting : ℕ} (member : waiting ∈ queue ++ children) :
      depth labels cur ≤ depth labels waiting ∧
        depth labels waiting ≤ depth labels cur + 1 := by
    rcases List.mem_append.mp member with old | new
    · exact ⟨sorted.1 waiting old,
        frontier.band cur (List.mem_cons_self ..) waiting (List.mem_cons_of_mem _ old)⟩
    · have equal := deeper new
      omega
  constructor
  case distinct =>
    rw [regrouped, List.nodup_append]
    refine ⟨frontier.distinct, distinct, ?_⟩
    intro old member new added equal
    exact fresh added (equal ▸ member)
  case proper =>
    intro index member
    rw [regrouped] at member
    rcases List.mem_append.mp member with old | new
    · exact frontier.proper index old
    · obtain ⟨c, at'⟩ := (child _).mp new
      exact ⟨_, at', by simp⟩
  case pushed =>
    intro index found c next at' extended
    rw [regrouped, List.mem_append, frontier.pushed index found c next at' extended,
      List.mem_append, List.mem_singleton, or_assoc]
    apply or_congr_right
    apply or_congr_right
    rw [child]
    constructor
    · intro listed
      obtain ⟨letter, other⟩ := listed
      rw [extended] at other
      obtain ⟨rfl, _⟩ := List.append_inj' (Option.some.inj other) rfl
      exact trie.same_index at' at_
    · intro same
      rw [same, at_] at at'
      exact ⟨c, Option.some.inj at' ▸ extended⟩
  case sorted =>
    rw [List.pairwise_append]
    refine ⟨sorted.2, ?_, ?_⟩
    · apply List.pairwise_of_forall_mem_list
      intro first firstMember second secondMember
      rw [deeper firstMember, deeper secondMember]
    · intro old member new added
      have bounded := (within (List.mem_append_left _ member)).2
      rw [deeper added]
      exact bounded
  case band =>
    intro first firstMember second secondMember
    have low := (within firstMember).1
    have high := (within secondMember).2
    omega

theorem Frontier.length_le (frontier : Frontier labels processed queue)
    (trie : Trie nodes labels) : processed.length + queue.length ≤ nodes.length := by
  have inside : processed ++ queue ⊆ List.range nodes.length := by
    intro index member
    obtain ⟨label, at_, _⟩ := frontier.proper index member
    exact List.mem_range.mpr (trie.within at_)
  have bounded := (List.subperm_of_subset frontier.distinct inside).length_le
  rw [List.length_append, List.length_range] at bounded
  exact bounded

theorem Halfway.complete (halfway : Halfway nodes labels entries (processed ++ []))
    (frontier : Frontier labels processed []) (index : ℕ) :
    Linked nodes labels entries index := by
  intro label at_
  exact halfway.linked index (frontier.reached halfway.trie at_ (by simp)) label at_

/-- The queue is emptied within a budget of one round for each node. -/
theorem Halfway.linkAll (halfway : Halfway nodes labels entries (processed ++ queue))
    (frontier : Frontier labels processed queue)
    (enough : nodes.length ≤ processed.length + budget) :
    ∃ built, linkAll traversal budget queue nodes = some built ∧
      Trie built labels ∧ ∀ index, Linked built labels entries index := by
  induction budget generalizing nodes processed queue with
  | zero =>
      cases queue with
      | nil => exact ⟨nodes, rfl, halfway.trie, halfway.complete frontier⟩
      | cons cur queue =>
          have bounded := frontier.length_le halfway.trie
          rw [List.length_cons] at bounded
          omega
  | succ budget ih =>
      cases queue with
      | nil => exact ⟨nodes, rfl, halfway.trie, halfway.complete frontier⟩
      | cons cur queue =>
          obtain ⟨label, at_, proper⟩ := frontier.proper cur (by simp)
          have popped := frontier.pop traversal halfway.trie at_
          have regrouped := List.append_assoc (processed ++ [cur]) queue
            ((traversal.order cur (node nodes cur).children).map Sigma.snd)
          rw [List.append_assoc processed, List.singleton_append] at regrouped
          have first (waiting : ℕ) (member : waiting ∈ cur :: queue) :
              label.length ≤ depth labels waiting := by
            rw [← depth_eq at_]
            rcases List.mem_cons.mp member with rfl | later
            · exact le_rfl
            · exact (List.pairwise_cons.mp frontier.sorted).1 waiting later
          obtain ⟨changed, result, linked⟩ := halfway.linkChildren at_ proper
            (fun other found at' short => frontier.reached halfway.trie at'
              (fun waiting member => short.trans (first waiting member)))
            (traversal.order cur (node nodes cur).children)
            (fun child member => (halfway.trie.edges traversal at_ child).mp member)
            (by rw [regrouped]; exact popped.distinct)
          have size : changed.length = nodes.length :=
            linked.trie.size.symm.trans halfway.trie.size
          rw [regrouped] at linked
          obtain ⟨built, results, complete⟩ := ih linked popped (by
            rw [size, List.length_append, List.length_singleton]
            omega)
          refine ⟨built, ?_, complete⟩
          simp only [AhoCorasick.linkAll, result, Option.bind_eq_bind, Option.bind_some]
          exact results

/-- The nodes pushed before the loop: the failure links of the root and its children are set. -/
theorem foldl_setFail (children : List ℕ) (trie : Trie nodes labels)
    (inside : ∀ child ∈ children, child < nodes.length) :
    Trie (children.foldl (fun nodes child => setFail nodes child 0) nodes) labels ∧ ∀ index,
      node (children.foldl (fun nodes child => setFail nodes child 0) nodes) index =
        if index ∈ children then { node nodes index with fail := 0 } else node nodes index := by
  induction children generalizing nodes with
  | nil => exact ⟨trie, fun index => by simp⟩
  | cons child children ih =>
      have within := inside child (List.mem_cons_self ..)
      obtain ⟨rooted, read⟩ := ih (trie.setFail within 0) (by
        intro other member
        rw [setFail, List.length_modify]
        exact inside other (List.mem_cons_of_mem _ member))
      refine ⟨rooted, ?_⟩
      intro index
      rw [List.foldl_cons, read, setFail, node_modify within]
      by_cases same : index = child
      · subst same
        simp
      · simp [same]

/-! ## The start of the loop -/

section

variable {children : List ℕ}

theorem frontier_start (trie : Trie nodes labels) (distinct : children.Nodup)
    (child : ∀ next, next ∈ children ↔ ∃ c, labels[next]? = some [c]) : Frontier labels [] children := by
  have shallow {index : ℕ} (member : index ∈ children) : depth labels index = 1 := by
    obtain ⟨c, at'⟩ := (child index).mp member
    rw [depth_eq at', List.length_singleton]
  constructor
  case distinct => exact distinct
  case proper =>
    intro index member
    obtain ⟨c, at'⟩ := (child index).mp member
    exact ⟨_, at', by simp⟩
  case pushed =>
    intro index label c next at_ extended
    rw [List.nil_append, child]
    constructor
    · intro listed
      obtain ⟨letter, at'⟩ := listed
      rw [extended] at at'
      obtain ⟨rfl, _⟩ := List.append_inj' (show label ++ [c] = [] ++ [letter] from Option.some.inj at') rfl
      exact .inl (trie.same_index at_ trie.root)
    · intro member
      have root := member.resolve_right List.not_mem_nil
      obtain rfl : [] = label := by
        rw [root, trie.root] at at_
        exact Option.some.inj at_
      exact ⟨c, extended⟩
  case sorted =>
    apply List.pairwise_of_forall_mem_list
    intro first firstMember second secondMember
    rw [shallow firstMember, shallow secondMember]
  case band =>
    intro first firstMember second secondMember
    rw [shallow firstMember, shallow secondMember]
    omega

/-- The failure links of the root and its children lead to the root, which is
where their borders are. -/
theorem halfway_start (dictionary : Dictionary nodes labels entries)
    (child : ∀ next, next ∈ children ↔ ∃ c, labels[next]? = some [c]) :
    Halfway (children.foldl (fun nodes child => setFail nodes child 0) (setFail nodes 0 0)) labels entries
      children := by
  have trie := dictionary.trie
  have rootInside := trie.within trie.root
  have rooted := trie.setFail rootInside 0
  obtain ⟨start, read⟩ := foldl_setFail children rooted (by
    intro next member
    obtain ⟨c, at'⟩ := (child next).mp member
    exact rooted.within at')
  have words (index : ℕ) : (node (children.foldl (fun nodes child => setFail nodes child 0)
      (setFail nodes 0 0)) index).words = (node nodes index).words := by
    rw [read, setFail, node_modify rootInside]
    split <;> split <;> simp_all
  have fails {index : ℕ} (member : index = 0 ∨ index ∈ children) :
      (node (children.foldl (fun nodes child => setFail nodes child 0)
        (setFail nodes 0 0)) index).fail = 0 := by
    rw [read, setFail, node_modify rootInside]
    split
    next => rfl
    next other => rw [if_pos (member.resolve_right other)]
  constructor
  case trie => exact start
  case listed => exact dictionary.listed
  case nonempty => exact dictionary.nonempty
  case own =>
    intro index _ label at_
    rw [words]
    exact dictionary.own at_
  case linked =>
    intro index member label at_
    have empty : border (· ∈ labels) label = [] := by
      rcases member with rfl | member
      · rw [Option.some.inj (at_.symm.trans trie.root)]
        rfl
      · obtain ⟨c, at'⟩ := (child index).mp member
        rw [Option.some.inj (at_.symm.trans at')]
        rfl
    rw [fails member, words, empty, dictionary.own at_]
    refine ⟨trie.root, ?_⟩
    rcases label with _ | ⟨first, label⟩
    · simp [endingAt]
    · rw [endingAt_border dictionary.listed (by simp), empty, endingAt_nil dictionary.nonempty, List.append_nil]

end

theorem build_linked (dictionary : Dictionary nodes labels entries) : ∃ built,
    build traversal nodes = some built ∧ Trie built labels ∧
      ∀ index, Linked built labels entries index := by
  have rooted := dictionary.trie.setFail (dictionary.trie.within dictionary.trie.root) 0
  have child := rooted.mem_children traversal rooted.root
  have distinct := rooted.distinct_children traversal rooted.root
  generalize listed : (traversal.order 0 (node (setFail nodes 0 0) 0).children).map Sigma.snd =
    children at child distinct
  have halfway := halfway_start dictionary child
  have frontier := frontier_start dictionary.trie distinct child
  have enough : (children.foldl (fun nodes child => setFail nodes child 0)
      (setFail nodes 0 0)).length ≤ ([] : List ℕ).length + nodes.length := by
    rw [← halfway.trie.size, dictionary.trie.size, List.length_nil]
    omega
  obtain ⟨built, result, complete⟩ := Halfway.linkAll traversal
    (show Halfway _ labels entries ([] ++ children) from halfway) frontier enough
  refine ⟨built, ?_, complete⟩
  simp only [build, listed]
  exact result

end Queue

end MuduoIm.Moderation.AhoCorasick
