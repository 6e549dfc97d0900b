import Mathlib.Data.List.Infix
import Mathlib.Data.List.Perm.Basic
import Mathlib.Data.Multiset.Bind

namespace MuduoIm.Data.Suffixes

/-! # The known suffixes of a word

A set of words is closed under prefixes.  The longest suffix of a word that
belongs to the set is followed while the word grows by one letter, and the
entries of a dictionary that end at a letter are those that end the longest
known suffix.
-/

variable {Letter Entry : Type}

section LongestSuffix

variable (known : List Letter → Prop) [DecidablePred known]

/-- The longest suffix of a word that is known, the empty word if there is none. -/
def longestSuffix : List Letter → List Letter
  | [] => []
  | letter :: word => if known (letter :: word) then letter :: word else longestSuffix word

/-- The longest known suffix but the word itself. -/
def border (word : List Letter) : List Letter :=
  longestSuffix known word.tail

structure PrefixClosed (known : List Letter → Prop) : Prop where
  nil : known []
  concat : ∀ word letter, known (word ++ [letter]) → known word

variable {known} {word : List Letter} {letter : Letter}

theorem longestSuffix_of_known (listed : known word) : longestSuffix known word = word := by
  cases word with
  | nil => rfl
  | cons letter word => rw [longestSuffix, if_pos listed]

theorem longestSuffix_suffix : longestSuffix known word <:+ word := by
  induction word with
  | nil => exact List.suffix_rfl
  | cons letter word ih =>
      rw [longestSuffix]
      split
      · exact List.suffix_rfl
      · exact ih.trans (List.suffix_cons letter word)

variable (known) in
theorem border_length_lt (nonempty : word ≠ []) :
    (border known word).length < word.length := by
  have short : (longestSuffix known word.tail).length ≤ word.tail.length :=
    longestSuffix_suffix.length_le
  have positive := List.length_pos_of_ne_nil nonempty
  rw [List.length_tail] at short
  rw [border]
  omega

/-- A letter appended to a word extends its longest known suffix or a shorter one. -/
theorem longestSuffix_concat (closed : PrefixClosed known) :
    longestSuffix known (word ++ [letter]) =
      longestSuffix known (longestSuffix known word ++ [letter]) := by
  induction word with
  | nil => rfl
  | cons first word ih =>
      by_cases listed : known (first :: word)
      · rw [longestSuffix_of_known listed]
      · have unlisted : ¬known (first :: word ++ [letter]) :=
          fun extended => listed (closed.concat _ _ extended)
        rw [longestSuffix, if_neg listed, ← ih, List.cons_append, longestSuffix,
          if_neg (by simpa using unlisted)]

/-- Where the letter does not extend a known word, its border is tried. -/
theorem longestSuffix_concat_of_unknown (closed : PrefixClosed known)
    (nonempty : word ≠ []) (unknown : ¬known (word ++ [letter])) :
    longestSuffix known (word ++ [letter]) =
      longestSuffix known (border known word ++ [letter]) := by
  cases word with
  | nil => contradiction
  | cons first word =>
      rw [List.cons_append, longestSuffix, if_neg (by simpa using unknown),
        longestSuffix_concat closed]
      rfl

theorem longestSuffix_singleton_of_unknown (unknown : ¬known [letter]) :
    longestSuffix known [letter] = [] := by
  rw [longestSuffix, if_neg unknown]
  rfl

/-- The border of an extended word is found from the border of the word. -/
theorem border_concat (closed : PrefixClosed known) (nonempty : word ≠ []) :
    border known (word ++ [letter]) = longestSuffix known (border known word ++ [letter]) := by
  cases word with
  | nil => contradiction
  | cons first word =>
      rw [border, List.cons_append, List.tail_cons, longestSuffix_concat closed]
      rfl

end LongestSuffix

section Dictionary

variable [DecidableEq Letter] (word : Entry → List Letter) (entries : List Entry)

/-- The entries that end a text, those of the longest words first. -/
def endingAt (text : List Letter) : List Entry :=
  text.tails.flatMap (fun suffix => entries.filter (fun entry => word entry = suffix))

/-- The entries with the last letter of each of their occurrences, in the order of a scan. -/
def endings (text : List Letter) : List (Entry × ℕ) :=
  (List.range text.length).flatMap (fun index =>
    (endingAt word entries (text.take (index + 1))).map (fun entry => (entry, index)))

/-- The entries with each position at which their word occurs. -/
def occurrences (text : List Letter) : List (Entry × ℕ) :=
  entries.flatMap (fun entry =>
    ((List.range (text.length + 1)).filter
      (fun start => word entry <+: text.drop start)).map (fun start => (entry, start)))

variable {word entries} {text : List Letter} {letter : Letter}

theorem endingAt_cons : endingAt word entries (letter :: text) =
    entries.filter (fun entry => word entry = letter :: text) ++ endingAt word entries text := by
  simp [endingAt]

theorem endingAt_perm : (endingAt word entries text).Perm
    (entries.filter (fun entry => word entry <:+ text)) := by
  induction text with
  | nil => simp [endingAt]
  | cons letter text ih =>
      rw [endingAt_cons]
      have whole : (entries.filter (fun entry => word entry <:+ letter :: text)).filter
          (fun entry => word entry = letter :: text) =
            entries.filter (fun entry => word entry = letter :: text) := by
        rw [List.filter_filter]
        apply List.filter_congr
        intro entry _
        by_cases equal : word entry = letter :: text
        · simp [equal]
        · simp [equal]
      have shorter : (entries.filter (fun entry => word entry <:+ letter :: text)).filter
          (fun entry => !decide (word entry = letter :: text)) =
            entries.filter (fun entry => word entry <:+ text) := by
        rw [List.filter_filter]
        apply List.filter_congr
        intro entry _
        by_cases equal : word entry = letter :: text
        · have long : ¬letter :: text <:+ text := by
            intro suffix
            have bounded := suffix.length_le
            rw [List.length_cons] at bounded
            omega
          simp [equal, long]
        · simp [equal, List.suffix_cons_iff]
      have split := List.filter_append_perm (fun entry => decide (word entry = letter :: text))
        (entries.filter (fun entry => word entry <:+ letter :: text))
      rw [whole, shorter] at split
      exact (ih.append_left _).trans split

theorem mem_endingAt {entry : Entry} : entry ∈ endingAt word entries text ↔
    entry ∈ entries ∧ word entry <:+ text := by
  rw [endingAt_perm.mem_iff, List.mem_filter, decide_eq_true_iff]

/-- Unknown suffixes carry no entries. -/
theorem endingAt_longestSuffix {known : List Letter → Prop} [DecidablePred known]
    (listed : ∀ entry ∈ entries, known (word entry)) :
    endingAt word entries (longestSuffix known text) = endingAt word entries text := by
  induction text with
  | nil => rfl
  | cons letter text ih =>
      rw [longestSuffix]
      split
      next => rfl
      next unknown =>
        have none : entries.filter (fun entry => word entry = letter :: text) = [] := by
          rw [List.filter_eq_nil_iff]
          intro entry member equal
          exact unknown (of_decide_eq_true equal ▸ listed entry member)
        rw [ih, endingAt_cons, none, List.nil_append]

theorem endingAt_nil (nonempty : ∀ entry ∈ entries, word entry ≠ []) :
    endingAt word entries [] = [] := by
  rw [List.eq_nil_iff_forall_not_mem]
  intro entry member
  obtain ⟨listed, suffix⟩ := mem_endingAt.mp member
  exact nonempty entry listed (List.suffix_nil.mp suffix)

/-- A known word carries its own entries and those of its border. -/
theorem endingAt_border {known : List Letter → Prop} [DecidablePred known]
    (listed : ∀ entry ∈ entries, known (word entry)) (nonempty : text ≠ []) :
    endingAt word entries text = entries.filter (fun entry => word entry = text) ++
      endingAt word entries (border known text) := by
  cases text with
  | nil => contradiction
  | cons letter text => rw [endingAt_cons, border, List.tail_cons, endingAt_longestSuffix listed]

end Dictionary

/-- Two nested selections may be exchanged. -/
theorem flatMap_filter_comm {First Second Result : Type} (firsts : List First)
    (seconds : List Second) (related : First → Second → Prop)
    [∀ first, DecidablePred (related first)] (result : First → Second → Result) :
    (firsts.flatMap (fun first =>
        (seconds.filter (fun second => related first second)).map (result first))).Perm
      (seconds.flatMap (fun second =>
        (firsts.filter (fun first => related first second)).map (result · second))) := by
  have single {Item : Type} (items : List Item) (chosen : Item → Prop) [DecidablePred chosen]
      (value : Item → Result) : (items.filter (fun item => chosen item)).map value =
        items.flatMap (fun item => if chosen item then [value item] else []) := by
    induction items with
    | nil => rfl
    | cons item items ih =>
        by_cases kept : chosen item
        · simp [kept, ih]
        · simp [kept, ih]
  simp only [single]
  rw [← Multiset.coe_eq_coe]
  simp only [← Multiset.coe_bind]
  exact Multiset.bind_bind _ _

section Occurrences

variable {text piece : List Letter} {start finish : ℕ}

/-- A piece ends a prefix of the text where the text can be cut around it. -/
theorem suffix_take_iff (within : finish ≤ text.length) : piece <:+ text.take finish ↔
    ∃ before after, text = before ++ piece ++ after ∧
      finish = before.length + piece.length := by
  constructor
  · intro suffix
    obtain ⟨before, cut⟩ := suffix
    refine ⟨before, text.drop finish, ?_, ?_⟩
    · rw [cut, List.take_append_drop]
    · rw [← List.length_append, cut, List.length_take, min_eq_left within]
  · intro given
    obtain ⟨before, after, rfl, rfl⟩ := given
    rw [← List.length_append, List.take_left]
    exact List.suffix_append before piece

theorem prefix_drop_iff (within : start ≤ text.length) : piece <+: text.drop start ↔
    ∃ before after, text = before ++ piece ++ after ∧ start = before.length := by
  constructor
  · intro begins
    obtain ⟨after, cut⟩ := begins
    refine ⟨text.take start, after, ?_, ?_⟩
    · rw [List.append_assoc, cut, List.take_append_drop]
    · rw [List.length_take, min_eq_left within]
  · intro given
    obtain ⟨before, after, rfl, rfl⟩ := given
    rw [List.append_assoc, List.drop_left]
    exact List.prefix_append piece after

theorem infix_iff_exists_start :
    piece <:+: text ↔ ∃ start ≤ text.length, piece <+: text.drop start := by
  constructor
  · rintro ⟨before, after, rfl⟩
    have within : before.length ≤ (before ++ piece ++ after).length := by
      simp only [List.length_append]
      omega
    exact ⟨before.length, within, (prefix_drop_iff within).mpr ⟨before, after, rfl, rfl⟩⟩
  · rintro ⟨start, _, begins⟩
    exact begins.isInfix.trans (List.drop_suffix start text).isInfix

variable [DecidableEq Letter]

/-- The starts computed from the last letters of a piece are the positions where it begins. -/
theorem starts_perm (text : List Letter) (nonempty : piece ≠ []) :
    (((List.range text.length).filter (fun index => piece <:+ text.take (index + 1))).map
        (fun index => index + 1 - piece.length)).Perm
      ((List.range (text.length + 1)).filter (fun start => piece <+: text.drop start)) := by
  have positive := List.length_pos_of_ne_nil nonempty
  have ends {index : ℕ} (member : index ∈ (List.range text.length).filter
      (fun index => piece <:+ text.take (index + 1))) :
      ∃ before after, text = before ++ piece ++ after ∧
        index + 1 = before.length + piece.length := by
    rw [List.mem_filter, List.mem_range, decide_eq_true_iff] at member
    exact (suffix_take_iff member.1).mp member.2
  rw [List.perm_ext_iff_of_nodup _ (List.nodup_range.filter _)]
  · intro start
    rw [List.mem_map, List.mem_filter, List.mem_range, decide_eq_true_iff]
    constructor
    · intro given
      obtain ⟨index, member, rfl⟩ := given
      obtain ⟨before, after, cut, last⟩ := ends member
      have first : index + 1 - piece.length = before.length := by omega
      have within : before.length ≤ text.length := by
        simp only [cut, List.length_append]
        omega
      rw [first]
      exact ⟨by omega, (prefix_drop_iff within).mpr ⟨before, after, cut, rfl⟩⟩
    · intro given
      obtain ⟨within, begins⟩ := given
      obtain ⟨before, after, cut, rfl⟩ := (prefix_drop_iff (by omega)).mp begins
      have inside : before.length + piece.length ≤ text.length := by
        simp only [cut, List.length_append]
        omega
      refine ⟨before.length + piece.length - 1, ?_, by omega⟩
      rw [List.mem_filter, List.mem_range, decide_eq_true_iff]
      refine ⟨by omega, (suffix_take_iff (by omega)).mpr ⟨before, after, cut, by omega⟩⟩
  · apply List.Nodup.map_on _ (List.nodup_range.filter _)
    intro first firstMember second secondMember equal
    obtain ⟨before, _, _, firstLast⟩ := ends firstMember
    obtain ⟨before', _, _, secondLast⟩ := ends secondMember
    omega

variable {word : Entry → List Letter} {entries : List Entry}

/-- A scan that reports the entries ending at each letter reports each occurrence once. -/
theorem endings_perm (text : List Letter) (nonempty : ∀ entry ∈ entries, word entry ≠ []) :
    ((endings word entries text).map
        (fun found => (found.1, found.2 + 1 - (word found.1).length))).Perm
      (occurrences word entries text) := by
  have exchanged : (endings word entries text).Perm (entries.flatMap (fun entry =>
      ((List.range text.length).filter
        (fun index => word entry <:+ text.take (index + 1))).map (fun index => (entry, index)))) := by
    refine List.Perm.trans ?_ (flatMap_filter_comm (List.range text.length) entries
      (fun index entry => word entry <:+ text.take (index + 1)) (fun index entry => (entry, index)))
    apply List.Perm.flatMap_left
    intro index _
    exact endingAt_perm.map _
  refine (exchanged.map _).trans ?_
  rw [List.map_flatMap]
  apply List.Perm.flatMap_left
  intro entry listed
  have starts := (starts_perm text (nonempty entry listed)).map
    (fun start => (entry, start))
  simpa [List.map_map, Function.comp_def] using starts

theorem mem_occurrences {entry : Entry} : (entry, start) ∈ occurrences word entries text ↔
    entry ∈ entries ∧ start ≤ text.length ∧ word entry <+: text.drop start := by
  rw [occurrences, List.mem_flatMap]
  constructor
  · rintro ⟨found, listed, member⟩
    obtain ⟨place, within, equal⟩ := List.mem_map.mp member
    obtain ⟨rfl, rfl⟩ := Prod.mk.inj equal
    rw [List.mem_filter, List.mem_range, decide_eq_true_iff] at within
    exact ⟨listed, by omega, within.2⟩
  · rintro ⟨listed, within, begins⟩
    refine ⟨entry, listed, List.mem_map_of_mem ?_⟩
    rw [List.mem_filter, List.mem_range, decide_eq_true_iff]
    exact ⟨by omega, begins⟩

/-- An entry occurs at a position as often as it is listed. -/
theorem count_occurrences [BEq Entry] [LawfulBEq Entry] {entry : Entry} (within : start ≤ text.length)
    (begins : word entry <+: text.drop start) :
    (occurrences word entries text).count (entry, start) = entries.count entry := by
  induction entries with
  | nil => rfl
  | cons first entries ih =>
      have rest : occurrences word (first :: entries) text =
          ((List.range (text.length + 1)).filter
            (fun start => word first <+: text.drop start)).map (fun start => (first, start)) ++
              occurrences word entries text := rfl
      rw [rest, List.count_append, ih, List.count_cons, Nat.add_comm]
      congr 1
      by_cases same : first = entry
      · subst same
        rw [List.count_map_of_injective _ _ (Prod.mk_right_injective first),
          List.count_filter (by simpa using begins), if_pos (by simp)]
        exact List.count_eq_one_of_mem List.nodup_range (List.mem_range.mpr (by omega))
      · rw [if_neg (by simpa using same)]
        apply List.count_eq_zero_of_not_mem
        intro member
        obtain ⟨_, _, equal⟩ := List.mem_map.mp member
        exact same (Prod.mk.inj equal).1

end Occurrences

end MuduoIm.Data.Suffixes
