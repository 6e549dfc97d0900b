import MuduoIm.Moderation.AhoCorasick.Exact
import MuduoIm.Moderation.ContentModerationService

namespace MuduoIm.Moderation.ContentModerationService

open Data AhoCorasick

/-! # The strictest verdict

The matches of a text are the listed words that occur in it, so the fold over
them finds a category exactly if one of its words occurs.
-/

/-- The entries that the rows add to the automaton: empty words are skipped. -/
def listedWords (rows : List WordRow) : List (Bytes × Bytes) :=
  added (rows.filterMap WordRow.entry)

/-- Some non-empty word of the category occurs in the text. -/
def Contains (rows : List WordRow) (category text : Bytes) : Prop :=
  ∃ entry ∈ rows.filterMap WordRow.entry,
    entry.2 = category ∧ entry.1 ≠ [] ∧ entry.1 <:+: text

instance (rows : List WordRow) (category text : Bytes) :
    Decidable (Contains rows category text) :=
  inferInstanceAs (Decidable (∃ entry ∈ rows.filterMap WordRow.entry, _))

/-- The verdict of the strictest category with a word in the text. -/
def strictest (rows : List WordRow) (text : Bytes) : Result :=
  if Contains rows ban text then .block
  else if Contains rows review text then .review
  else .pass

variable {traversal : Traversal} {rows more : List WordRow} {service : Service}
  {found : List Match} {category text : Bytes} {built : List Node}

theorem contains_iff : Contains rows category text ↔
    ∃ entry ∈ listedWords rows, entry.2 = category ∧ entry.1 <:+: text := by
  simp only [Contains, listedWords, added, List.mem_filter, decide_eq_true_eq]
  constructor
  · rintro ⟨entry, listed, filed, nonempty, inside⟩
    exact ⟨entry, ⟨listed, nonempty⟩, filed, inside⟩
  · rintro ⟨entry, ⟨listed, nonempty⟩, filed, inside⟩
    exact ⟨entry, listed, filed, nonempty, inside⟩

theorem foldl_add (rows : List WordRow) (loading : Loading) :
    (rows.foldl Loading.add loading).next =
      addWords loading.next (rows.filterMap WordRow.entry) := by
  induction rows generalizing loading with
  | nil => rfl
  | cons row rows ih =>
      rw [List.foldl_cons, ih, Loading.add]
      cases entered : row.entry with
      | none => rw [List.filterMap_cons_none entered]
      | some entry => rw [List.filterMap_cons_some entered, addWords, addWords, List.foldl_cons]

theorem foldl_judge (found : List Match) (has : Bool × Bool) :
    found.foldl judge has =
      (has.1 || found.any (fun one => one.category = ban),
        has.2 || found.any (fun one => one.category = review)) := by
  have apart : ban ≠ review := by decide
  induction found generalizing has with
  | nil => simp
  | cons one found ih =>
      rw [List.foldl_cons, ih, judge]
      by_cases banned : one.category = ban
      · simp [banned, apart]
      · by_cases reviewed : one.category = review
        · simp [reviewed, apart.symm]
        · simp [banned, reviewed]

/-- A text is judged by the categories of its matches. -/
theorem respond_result (found : List Match) :
    (respond found).result =
        (if ∃ one ∈ found, one.category = ban then .block
          else if ∃ one ∈ found, one.category = review then .review else .pass) ∧
      (respond found).matchedWords = found.map Match.word := by
  rw [respond, foldl_judge]
  simp only [Bool.false_or, List.any_eq_true, decide_eq_true_eq]
  split
  · exact ⟨rfl, rfl⟩
  · split
    · exact ⟨rfl, rfl⟩
    · exact ⟨rfl, rfl⟩

/-- A reload takes an automaton of the entries of its rows into use. -/
theorem reload_built (traversal : Traversal) (rows : List WordRow) :
    ∃ service built, reload traversal rows = some service ∧ service.current = some built ∧
      build traversal (addWords fresh (rows.filterMap WordRow.entry)) = some built := by
  obtain ⟨built, result, _⟩ := search_occurrences traversal (rows.filterMap WordRow.entry)
  have filled : build traversal (rows.foldl Loading.add {}).next = some built := by
    rw [foldl_add]
    exact result
  exact ⟨{ current := some built
           lastVersion := (rows.foldl Loading.add {}).maxVer
           wordCount := (rows.foldl Loading.add {}).count }, built,
    by simp only [reload, filled, Option.bind_eq_bind, Option.bind_some], rfl, result⟩

/-- A text is judged by the words that it contains. -/
theorem checkText_built (current : service.current = some built)
    (result : build traversal (addWords fresh (rows.filterMap WordRow.entry)) = some built)
    (text : Bytes) : ∃ response, checkText service text = some response ∧
      response.result = strictest rows text ∧
      (response.matchedWords ≠ [] ↔ ∃ category, Contains rows category text) := by
  obtain ⟨_, again, searches⟩ := search_occurrences traversal (rows.filterMap WordRow.entry)
  obtain rfl := Option.some.inj (result.symm.trans again)
  obtain ⟨found, searched, reported⟩ := searches text
  have holds (category : Bytes) :
      (∃ one ∈ found, one.category = category) ↔ Contains rows category text := by
    rw [contains_iff]
    constructor
    · rintro ⟨one, member, filed⟩
      obtain ⟨listed, inside⟩ :=
        (found_iff reported (one.word, one.category)).mp ⟨one, member, rfl, rfl⟩
      exact ⟨_, listed, filed, inside⟩
    · rintro ⟨entry, listed, filed, inside⟩
      obtain ⟨one, member, _, filed'⟩ := (found_iff reported entry).mpr ⟨listed, inside⟩
      exact ⟨one, member, filed'.trans filed⟩
  have judged : (respond found).result = strictest rows text ∧
      ((respond found).matchedWords ≠ [] ↔ ∃ category, Contains rows category text) := by
    obtain ⟨verdict, words⟩ := respond_result found
    refine ⟨?_, ?_⟩
    · rw [verdict, strictest]
      simp only [holds]
    · rw [words, ne_eq, List.map_eq_nil_iff]
      simp only [← holds]
      constructor
      · intro nonempty
        obtain ⟨one, member⟩ := List.exists_mem_of_ne_nil found nonempty
        exact ⟨one.category, one, member, rfl⟩
      · rintro ⟨_, one, member, _⟩
        exact List.ne_nil_of_mem member
  by_cases empty : text = []
  · have silent : found = [] := by
      rw [empty, search, scan] at searched
      exact (Option.some.inj searched).symm
    subst silent
    exact ⟨{}, by rw [checkText, if_pos empty], judged⟩
  · refine ⟨respond found, ?_, judged⟩
    rw [checkText, if_neg empty, current]
    simp only [searched, Option.map_some]

theorem Contains.mono (subset : rows ⊆ more) (contains : Contains rows category text) :
    Contains more category text := by
  obtain ⟨entry, listed, found⟩ := contains
  exact ⟨entry, List.filterMap_subset _ subset listed, found⟩

/-- More rows make no verdict less strict. -/
theorem strictest_mono (subset : rows ⊆ more) (text : Bytes) :
    (strictest rows text).rank ≤ (strictest more text).rank := by
  have banned : Contains rows ban text → Contains more ban text := Contains.mono subset
  have reviewed : Contains rows review text → Contains more review text := Contains.mono subset
  rw [strictest, strictest]
  split_ifs <;> simp_all [Result.rank]

theorem strictest_perm (same : rows.Perm more) (text : Bytes) :
    strictest rows text = strictest more text := by
  have equal (category : Bytes) : Contains rows category text ↔ Contains more category text :=
    ⟨Contains.mono same.subset, Contains.mono same.symm.subset⟩
  simp only [strictest, equal]

/-- After any reload, the verdict is that of the strictest category of which a
word occurs, whatever the order of the rows, and more rows make it no less
strict. -/
theorem verdict_is_strictest (traversal : Traversal) (rows : List WordRow) :
    ∃ service, reload traversal rows = some service ∧ ∀ text,
      ∃ response, checkText service text = some response ∧
        (response.result = .block ↔ Contains rows ban text) ∧
        (response.result = .review ↔
          ¬Contains rows ban text ∧ Contains rows review text) ∧
        (response.result = .pass ↔
          ¬Contains rows ban text ∧ ¬Contains rows review text) ∧
        (response.matchedWords ≠ [] ↔ ∃ category, Contains rows category text) ∧
        ∀ traversal' more, ∃ service' response', reload traversal' more = some service' ∧
          checkText service' text = some response' ∧
          (rows.Perm more → response'.result = response.result) ∧
          (rows ⊆ more → response.result.rank ≤ response'.result.rank) := by
  obtain ⟨service, built, loaded, current, result⟩ := reload_built traversal rows
  refine ⟨service, loaded, fun text => ?_⟩
  obtain ⟨response, checked, verdict, words⟩ := checkText_built current result text
  refine ⟨response, checked, ?_, ?_, ?_, words, ?_⟩
  · rw [verdict, strictest]
    split_ifs <;> simp_all
  · rw [verdict, strictest]
    split_ifs <;> simp_all
  · rw [verdict, strictest]
    split_ifs <;> simp_all
  · intro traversal' more
    obtain ⟨service', built', loaded', current', result'⟩ := reload_built traversal' more
    obtain ⟨response', checked', verdict', _⟩ := checkText_built current' result' text
    refine ⟨service', response', loaded', checked', ?_, ?_⟩
    · intro same
      rw [verdict, verdict', strictest_perm same]
    · intro subset
      rw [verdict, verdict']
      exact strictest_mono subset text

/-- A word with a NUL byte is loaded up to that byte, and blocks texts that do
not contain it. -/
theorem word_cut_at_nul : ∃ service response,
    reload .plain
      [{ word := some [97, 0, 98], category := some ban, enabled := true, updatedAt := 1 }] =
        some service ∧
    checkText service [97] = some response ∧ response.result = .block ∧
      ¬([97, 0, 98] : Bytes) <:+: [97] :=
  ⟨_, _, rfl, rfl, by decide, by decide⟩

end MuduoIm.Moderation.ContentModerationService
