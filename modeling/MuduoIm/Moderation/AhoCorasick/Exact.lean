import MuduoIm.Moderation.AhoCorasick.Links

namespace MuduoIm.Moderation.AhoCorasick

open Data Data.Suffixes

/-! # The search is exact

While the text is scanned, the current node is the longest suffix of the letters
read that is a prefix of some word.  Its words are therefore the entries that
end there.
-/

variable {nodes : List Node} {labels : List Bytes} {entries : List (Bytes × Bytes)}
  {cur : ℕ} {c : UInt8} {word : Bytes}

theorem advance_spec (trie : Trie nodes labels)
    (linked : ∀ index, Linked nodes labels entries index)
    (at_ : labels[cur]? = some (longestSuffix (· ∈ labels) word)) :
    ∃ next, advance nodes cur c = some next ∧
      labels[next]? = some (longestSuffix (· ∈ labels) (word ++ [c])) := by
  have short : (longestSuffix (· ∈ labels) word).length < nodes.length :=
    lt_of_le_of_lt (trie.shallow at_) (trie.within at_)
  obtain ⟨last, ends, found⟩ := follow_spec (c := c) trie at_
    (fun other label at' _ => (linked other label at').1) short
  rw [← longestSuffix_concat trie.closed] at found
  rcases found with ⟨next, lookup, at'⟩ | ⟨lookup, root, empty⟩
  · refine ⟨next, ?_, at'⟩
    simp only [advance, ends, Option.bind_eq_bind, Option.bind_some, lookup, Option.getD_some]
  · refine ⟨last, ?_, ?_⟩
    · simp only [advance, ends, Option.bind_eq_bind, Option.bind_some, lookup, Option.getD_none]
    · rw [root, empty]
      exact trie.root

/-- The scan of the rest of a text reports the entries that end at each of its letters. -/
theorem scan_spec (trie : Trie nodes labels)
    (linked : ∀ index, Linked nodes labels entries index)
    (listed : ∀ entry ∈ entries, entry.1 ∈ labels) (word text : Bytes)
    (at_ : labels[cur]? = some (longestSuffix (· ∈ labels) word)) :
    scan nodes cur word.length text = some ((List.range text.length).flatMap (fun offset =>
      (endingAt Prod.fst entries (word ++ text.take (offset + 1))).map
        (matchAt (word.length + offset)))) := by
  induction text generalizing cur word with
  | nil => rfl
  | cons c text ih =>
      obtain ⟨next, result, at'⟩ := advance_spec (c := c) trie linked at_
      have later := ih (word ++ [c]) at'
      rw [List.length_append, List.length_singleton] at later
      have words : (node nodes next).words = endingAt Prod.fst entries (word ++ [c]) := by
        rw [(linked next _ at').2, endingAt_longestSuffix listed]
      simp only [scan, result, later, Option.bind_eq_bind, Option.bind_some, words,
        List.length_cons, List.range_succ_eq_map, List.flatMap_cons, List.flatMap_map]
      congr 2
      apply List.flatMap_congr
      intro offset _
      simp [Nat.add_assoc, Nat.add_comm 1 offset]

/-- A match reported for an occurrence. -/
def matchOf (occurrence : (Bytes × Bytes) × ℕ) : Match where
  start := occurrence.2
  length := occurrence.1.1.length
  word := occurrence.1.1
  category := occurrence.1.2

theorem search_occurrences (traversal : Traversal) (calls : List (Bytes × Bytes)) :
    ∃ built, build traversal (addWords fresh calls) = some built ∧ ∀ text,
      ∃ found, search built text = some found ∧
        found.Perm ((occurrences Prod.fst (added calls) text).map matchOf) := by
  obtain ⟨labels, dictionary⟩ := dictionary_addWords calls
  obtain ⟨built, result, trie, linked⟩ := build_linked traversal dictionary
  refine ⟨built, result, ?_⟩
  intro text
  have scanned := scan_spec trie linked dictionary.listed [] text trie.root
  simp only [List.nil_append, List.length_nil, Nat.zero_add] at scanned
  refine ⟨_, scanned, List.Perm.trans (List.Perm.of_eq ?_)
    ((endings_perm text dictionary.nonempty).map matchOf)⟩
  rw [endings, List.map_map, List.map_flatMap]
  apply List.flatMap_congr
  intro index within
  rw [List.map_map]
  apply List.map_congr_left
  intro entry member
  have short := (mem_endingAt.mp member).2.length_le
  rw [List.length_take] at short
  have start : (index : ℤ) + 1 - entry.1.length = (index + 1 - entry.1.length : ℕ) := by
    omega
  rw [matchAt, start]
  rfl

/-- The search returns one match for each occurrence of each added entry, and
its loops end within their budgets, in whatever order the children are
traversed. -/
theorem search_exact (traversal : Traversal) (calls : List (Bytes × Bytes)) :
    ∃ built, build traversal (addWords fresh calls) = some built ∧ ∀ text,
      ∃ found, search built text = some found ∧
        found.Perm ((occurrences Prod.fst (added calls) text).map matchOf) ∧
        ∀ one ∈ found, 0 ≤ one.start := by
  obtain ⟨built, result, searches⟩ := search_occurrences traversal calls
  refine ⟨built, result, fun text => ?_⟩
  obtain ⟨found, searched, reported⟩ := searches text
  refine ⟨found, searched, reported, ?_⟩
  intro one member
  obtain ⟨occurrence, _, rfl⟩ := List.mem_map.mp (reported.mem_iff.mp member)
  exact Int.natCast_nonneg _

/-- The entries found in a text are those whose word occurs in it. -/
theorem found_iff {calls : List (Bytes × Bytes)} {text : Bytes} {found : List Match}
    (reported : found.Perm ((occurrences Prod.fst (added calls) text).map matchOf))
    (entry : Bytes × Bytes) :
    (∃ one ∈ found, one.word = entry.1 ∧ one.category = entry.2) ↔
      entry ∈ added calls ∧ entry.1 <:+: text := by
  constructor
  · rintro ⟨one, member, named, filed⟩
    obtain ⟨⟨other, start⟩, occurs, rfl⟩ := List.mem_map.mp (reported.mem_iff.mp member)
    obtain rfl : other = entry := Prod.ext named filed
    obtain ⟨listed, within, begins⟩ := mem_occurrences.mp occurs
    exact ⟨listed, infix_iff_exists_start.mpr ⟨start, within, begins⟩⟩
  · rintro ⟨listed, inside⟩
    obtain ⟨start, within, begins⟩ := infix_iff_exists_start.mp inside
    have occurs := mem_occurrences.mpr ⟨listed, within, begins⟩
    exact ⟨matchOf (entry, start), reported.mem_iff.mpr (List.mem_map_of_mem occurs), rfl, rfl⟩

theorem matchOf_injective : Function.Injective matchOf := by
  rintro ⟨⟨word, category⟩, start⟩ ⟨⟨word', category'⟩, start'⟩ equal
  obtain ⟨sameStart, _, rfl, rfl⟩ := Match.mk.inj equal
  obtain rfl : start = start' := Int.ofNat_inj.mp sameStart
  rfl

/-- Two sequences of calls with the same automaton have added the same entries. -/
theorem added_perm_of_built {first second : Traversal} {calls others : List (Bytes × Bytes)}
    {built : List Node} (result : build first (addWords fresh calls) = some built)
    (result' : build second (addWords fresh others) = some built) :
    (added calls).Perm (added others) := by
  obtain ⟨_, again, searches⟩ := search_occurrences first calls
  obtain rfl := Option.some.inj (result.symm.trans again)
  obtain ⟨_, again', searches'⟩ := search_occurrences second others
  obtain rfl := Option.some.inj (result'.symm.trans again')
  rw [List.perm_iff_count]
  intro entry
  -- The entry is counted among the matches at the start of its own word.
  obtain ⟨found, searched, reported⟩ := searches entry.1
  obtain ⟨found', searched', reported'⟩ := searches' entry.1
  obtain rfl := Option.some.inj (searched.symm.trans searched')
  have counts := (reported.symm.trans reported').count_eq (matchOf (entry, 0))
  rw [List.count_map_of_injective _ _ matchOf_injective,
    List.count_map_of_injective _ _ matchOf_injective,
    count_occurrences (Nat.zero_le _) (by simp), count_occurrences (Nat.zero_le _) (by simp)]
    at counts
  exact counts

end MuduoIm.Moderation.AhoCorasick
