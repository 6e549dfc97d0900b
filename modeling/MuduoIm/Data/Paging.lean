import MuduoIm.Data.Page

namespace MuduoIm.Data

/-! # Reading a table page by page

A reader asks for a page, then for the page before the smallest key that it has
got, until a page is empty.  The bound is strict and 0 means no bound.  Which of
the rows with equal keys a page takes is left to the database.
-/

variable {Row : Type} (key : Row → Int) (limit : Nat)

/-- `found` is the first page of the rows in some descending order. -/
def IsPage (rows found : List Row) : Prop :=
  ∃ sorted : List Row, sorted.Perm rows ∧
    sorted.Pairwise (fun first second => key second ≤ key first) ∧ found = sorted.take limit

def smallest (first : Row) : List Row → Int
  | [] => key first
  | second :: rest => min (key first) (smallest second rest)

/-- The rows of all pages; `none` when the fuel does not last until an empty
one. -/
def readPages (query : Int → List Row) : Nat → Int → Option (List Row)
  | 0, _ => none
  | fuel + 1, before =>
      match query before with
      | [] => some []
      | first :: rest =>
          (readPages query fuel (smallest key first rest)).map (fun later => first :: rest ++ later)

def earlier (before : Int) (row : Row) : Bool := decide (before ≤ 0) || decide (key row < before)

/-- No page boundary falls between rows with equal keys. -/
def PagesSeparate (rows : List Row) : Prop :=
  ∀ row ∈ rows, ∀ count, ¬ (rows.countP (fun other => key row < key other) < count * limit ∧
    count * limit < rows.countP (fun other => key row ≤ key other))

variable {key} {limit} {rows found sorted taken left other : List Row} {row first : Row} {rest : List Row}
variable {query : Int → List Row} {fuel : Nat} {before cursor : Int}

theorem isPage_page {selected : Row → Bool} :
    IsPage key limit (rows.filter selected) (page selected key limit rows) := by
  refine ⟨_, List.perm_insertionSort _ _, ?_, rfl⟩
  have total : Std.Total (fun first second : Row => key second ≤ key first) :=
    ⟨fun first second => Int.le_total (key second) (key first)⟩
  have trans : IsTrans Row (fun first second => key second ≤ key first) :=
    ⟨fun _ _ _ upper lower => Int.le_trans lower upper⟩
  exact List.pairwise_insertionSort _ _

theorem IsPage.map {Shown : Type} {shown : Row → Shown} {shownKey : Shown → Int}
    (isPage : IsPage (fun row => shownKey (shown row)) limit rows found) :
    IsPage shownKey limit (rows.map shown) (found.map shown) := by
  obtain ⟨sorted, perm, descending, rfl⟩ := isPage
  exact ⟨sorted.map shown, perm.map shown, List.pairwise_map.mpr descending, List.map_take⟩

theorem isPage_perm (perm : rows.Perm other) : IsPage key limit rows found ↔ IsPage key limit other found := by
  constructor
  · rintro ⟨sorted, same, descending, page⟩
    exact ⟨sorted, same.trans perm, descending, page⟩
  · rintro ⟨sorted, same, descending, page⟩
    exact ⟨sorted, same.trans perm.symm, descending, page⟩

/-! ## The smallest key of a page -/

theorem smallest_le (key : Row → Int) (first : Row) (rest : List Row) :
    ∀ row ∈ first :: rest, smallest key first rest ≤ key row := by
  induction rest generalizing first with
  | nil =>
      intro row member
      rw [List.mem_singleton.mp member]
      exact Int.le_refl _
  | cons second rest ih =>
      intro row member
      rw [smallest]
      rcases List.mem_cons.mp member with rfl | later
      · omega
      · have := ih second row later
        omega

theorem exists_smallest (key : Row → Int) (first : Row) (rest : List Row) :
    ∃ row ∈ first :: rest, key row = smallest key first rest := by
  induction rest generalizing first with
  | nil => exact ⟨first, List.mem_cons_self, rfl⟩
  | cons second rest ih =>
      obtain ⟨row, member, same⟩ := ih second
      rw [smallest]
      rcases Int.le_total (key first) (smallest key second rest) with least | later
      · exact ⟨first, List.mem_cons_self, by omega⟩
      · exact ⟨row, List.mem_cons_of_mem _ member, by omega⟩

/-! ## Boundaries -/

theorem pagesSeparate_perm (perm : rows.Perm other) :
    PagesSeparate key limit rows ↔ PagesSeparate key limit other := by
  simp only [PagesSeparate, perm.mem_iff, perm.countP_eq]

/-- What is left after a page whose boundary separates. -/
theorem pagesSeparate_append (full : left ≠ [] → taken.length = limit) (short : taken.length ≤ limit)
    (above : ∀ row ∈ taken, cursor ≤ key row) (below : ∀ row ∈ left, key row < cursor) :
    PagesSeparate key limit (taken ++ left) ↔ PagesSeparate key limit left := by
  have ofLeft : ∀ row ∈ left,
      (taken ++ left).countP (fun other => key row < key other) =
        limit + left.countP (fun other => key row < key other) ∧
      (taken ++ left).countP (fun other => key row ≤ key other) =
        limit + left.countP (fun other => key row ≤ key other) := by
    intro row member
    have beneath := below row member
    have nonempty : left ≠ [] := List.ne_nil_of_mem member
    have newer : taken.countP (fun other => key row < key other) = taken.length := by
      apply List.countP_eq_length.mpr
      intro other listed
      have := above other listed
      exact decide_eq_true (by omega)
    have atLeast : taken.countP (fun other => key row ≤ key other) = taken.length := by
      apply List.countP_eq_length.mpr
      intro other listed
      have := above other listed
      exact decide_eq_true (by omega)
    rw [List.countP_append, List.countP_append, newer, atLeast, full nonempty]
    exact ⟨rfl, rfl⟩
  constructor
  · intro separate row member count
    obtain ⟨newer, atLeast⟩ := ofLeft row member
    have apart := separate row (List.mem_append_right _ member) (count + 1)
    rw [newer, atLeast, Nat.succ_mul] at apart
    omega
  · intro separate row member count
    rcases List.mem_append.mp member with ofTaken | member
    · have none_left : left.countP (fun other => key row ≤ key other) = 0 := by
        apply List.countP_eq_zero.mpr
        intro other listed
        have := below other listed
        have := above row ofTaken
        exact fun reaches => absurd (of_decide_eq_true reaches) (by omega)
      have bound : taken.countP (fun other => key row ≤ key other) ≤ taken.length := List.countP_le_length
      have ofTaken_only : (taken ++ left).countP (fun other => key row ≤ key other) =
          taken.countP (fun other => key row ≤ key other) := by
        rw [List.countP_append, none_left, Nat.add_zero]
      rw [ofTaken_only]
      rcases count with _ | count
      · omega
      · rw [Nat.succ_mul]
        omega
    · obtain ⟨newer, atLeast⟩ := ofLeft row member
      rw [newer, atLeast]
      rcases count with _ | count
      · omega
      · have apart := separate row member count
        rw [Nat.succ_mul]
        omega

/-- A page that ends between equal keys. -/
theorem not_pagesSeparate_append (full : taken.length = limit)
    (above : ∀ row ∈ taken, cursor ≤ key row) (below : ∀ row ∈ left, key row ≤ cursor)
    (last : ∃ row ∈ taken, key row = cursor) (tie : ∃ row ∈ left, cursor ≤ key row) :
    ¬ PagesSeparate key limit (taken ++ left) := by
  intro separate
  obtain ⟨row, member, same⟩ := last
  apply separate row (List.mem_append_left _ member) 1
  rw [List.countP_append, List.countP_append, same, Nat.one_mul]
  have none_newer : left.countP (fun other => cursor < key other) = 0 := by
    apply List.countP_eq_zero.mpr
    intro other listed
    have := below other listed
    exact fun newer => absurd (of_decide_eq_true newer) (by omega)
  have all_taken : taken.countP (fun other => cursor ≤ key other) = taken.length :=
    List.countP_eq_length.mpr fun other listed => decide_eq_true (above other listed)
  have not_all : taken.countP (fun other => cursor < key other) ≠ taken.length := by
    intro all
    have newer := List.countP_eq_length.mp all row member
    have := of_decide_eq_true newer
    omega
  have bound : taken.countP (fun other => cursor < key other) ≤ taken.length := List.countP_le_length
  have some_left : 0 < left.countP (fun other => cursor ≤ key other) := by
    obtain ⟨other, listed, reaches⟩ := tie
    exact List.countP_pos_iff.mpr ⟨other, listed, decide_eq_true reaches⟩
  omega

/-! ## All pages -/

/-- The rows before the cursor are those that the page has left. -/
theorem filter_earlier (positive : 0 < cursor) (within : ∀ row ∈ taken, earlier key before row = true)
    (perm : (taken ++ left).Perm (rows.filter (earlier key before)))
    (reached : ∃ row ∈ taken, key row = cursor) (above : ∀ row ∈ taken, cursor ≤ key row) :
    (rows.filter (earlier key cursor)).Perm (left.filter (fun row => key row < cursor)) := by
  have narrower : ∀ row, earlier key cursor row = true → earlier key before row = true := by
    intro row sooner
    obtain ⟨last, member, same⟩ := reached
    have bounded := within last member
    simp only [earlier, Bool.or_eq_true, decide_eq_true_eq] at sooner bounded ⊢
    omega
  have agrees : ∀ row, earlier key cursor row = decide (key row < cursor) := by
    intro row
    simp only [earlier, decide_eq_false (Int.not_le.mpr positive), Bool.false_or]
  have none_taken : taken.filter (fun row => key row < cursor) = [] := by
    apply List.filter_eq_nil_iff.mpr
    intro row member
    have := above row member
    exact fun sooner => absurd (of_decide_eq_true sooner) (by omega)
  have kept := perm.filter (earlier key cursor)
  rw [filter_of_weaker narrower] at kept
  refine kept.symm.trans ?_
  simp only [funext agrees, List.filter_append, none_taken, List.nil_append]
  exact .refl _

/-- A page and what the reader finds after it are all the rows exactly if the
boundaries separate: at a tie the reader skips what the page has cut off. -/
theorem page_append_perm_iff {next later : List Row} (full : left ≠ [] → taken.length = limit)
    (short : taken.length ≤ limit) (above : ∀ row ∈ taken, cursor ≤ key row) (below : ∀ row ∈ left, key row ≤ cursor)
    (last : ∃ row ∈ taken, key row = cursor) (perm : (taken ++ left).Perm rows)
    (asked : next.Perm (left.filter (fun row => key row < cursor))) (bound : later.length ≤ next.length)
    (complete : later.Perm next ↔ PagesSeparate key limit next) :
    (taken ++ later).Perm rows ↔ PagesSeparate key limit rows := by
  have total := perm.length_eq
  rw [List.length_append] at total
  rw [← pagesSeparate_perm perm]
  by_cases tie : ∃ row ∈ left, cursor ≤ key row
  · apply iff_of_false
    · intro same
      have lengths := same.length_eq
      rw [List.length_append] at lengths
      rw [asked.length_eq] at bound
      obtain ⟨row, remains, reaches⟩ := tie
      have lost : (left.filter (fun row => key row < cursor)).length < left.length := by
        apply List.length_filter_lt_length_iff_exists.mpr
        exact ⟨row, remains, fun sooner => absurd (of_decide_eq_true sooner) (by omega)⟩
      omega
    · obtain ⟨row, remains, reaches⟩ := tie
      exact not_pagesSeparate_append (full (List.ne_nil_of_mem remains)) above below last ⟨row, remains, reaches⟩
  · have apart : ∀ row ∈ left, key row < cursor := by
      intro row remains
      by_contra reaches
      exact tie ⟨row, remains, by omega⟩
    have whole : left.filter (fun row => key row < cursor) = left :=
      List.filter_eq_self.mpr fun row remains => decide_eq_true (apart row remains)
    rw [whole] at asked
    rw [pagesSeparate_append full short above apart, ← pagesSeparate_perm asked, ← complete]
    constructor
    · intro same
      exact (List.perm_append_left_iff _).mp (same.trans (perm.symm.trans (asked.symm.append_left _)))
    · intro same
      exact (same.append_left _).trans ((asked.append_left _).trans perm)

/-- With positive keys the reader comes to an end, and it has missed nothing
exactly if the boundaries separate. -/
theorem readPages_of_positive (nonzero : 0 < limit)
    (answers : ∀ before, IsPage key limit (rows.filter (earlier key before)) (query before))
    (positive : ∀ row ∈ rows, 0 < key row) (before : Int) :
    ∃ fuel found, readPages key query fuel before = some found ∧
      found.length ≤ (rows.filter (earlier key before)).length ∧
      (found.Perm (rows.filter (earlier key before)) ↔
        PagesSeparate key limit (rows.filter (earlier key before))) := by
  -- on the number of rows that are left
  generalize size : (rows.filter (earlier key before)).length = count
  induction count using Nat.strongRecOn generalizing before with
  | ind count ih =>
      obtain ⟨sorted, perm, descending, isPage⟩ := answers before
      cases page : query before with
      | nil =>
          rw [page] at isPage
          have empty : sorted = [] := by
            rcases List.take_eq_nil_iff.mp isPage.symm with zero | empty
            · omega
            · exact empty
          rw [empty] at perm
          refine ⟨1, [], ?_, Nat.zero_le _, ?_⟩
          · rw [readPages, page]
          · rw [← perm.nil_eq]
            exact iff_of_true (.refl _) nofun
      | cons first rest =>
          rw [page] at isPage
          rw [← List.take_append_drop limit sorted, ← isPage] at perm descending
          have full : sorted.drop limit ≠ [] → (first :: rest).length = limit := by
            intro more
            rw [isPage, List.length_take]
            have := List.drop_eq_nil_iff.not.mp more
            omega
          have short : (first :: rest).length ≤ limit := by
            rw [isPage, List.length_take]
            omega
          generalize sorted.drop limit = left at perm descending full
          obtain ⟨_, _, below⟩ := List.pairwise_append.mp descending
          obtain ⟨last, member, same⟩ := exists_smallest key first rest
          have above := smallest_le key first rest
          have listed : ∀ row ∈ first :: rest, row ∈ rows.filter (earlier key before) :=
            fun row member => perm.mem_iff.mp (List.mem_append_left _ member)
          have ahead : 0 < smallest key first rest := by
            have := positive last (List.mem_of_mem_filter (listed last member))
            omega
          have below : ∀ row ∈ left, key row ≤ smallest key first rest := by
            intro row remains
            rw [← same]
            exact below last member row remains
          have next := filter_earlier ahead (fun row member => (List.mem_filter.mp (listed row member)).2)
            perm ⟨last, member, same⟩ above
          have total := perm.length_eq
          rw [List.length_append] at total
          have fewer : (left.filter (fun row => key row < smallest key first rest)).length ≤ left.length :=
            List.length_filter_le _ _
          have nonempty : 0 < (first :: rest).length := Nat.zero_lt_succ _
          obtain ⟨fuel, later, read, bound, complete⟩ := ih _ (by rw [next.length_eq]; omega) _ rfl
          refine ⟨fuel + 1, first :: rest ++ later, ?_, ?_, ?_⟩
          · rw [readPages, page]
            simp only [read, Option.map_some]
          · rw [next.length_eq] at bound
            rw [List.length_append]
            omega
          · exact page_append_perm_iff full short above below ⟨last, member, same⟩ perm next bound complete

/-- A key that is not positive makes the reader start again. -/
theorem readPages_of_nonpositive (nonzero : 0 < limit)
    (answers : ∀ before, IsPage key limit (rows.filter (earlier key before)) (query before))
    (member : row ∈ rows) (nonpositive : key row ≤ 0) :
    readPages key query fuel before = none := by
  induction fuel generalizing before with
  | zero => rfl
  | succ fuel ih =>
      obtain ⟨sorted, perm, _, isPage⟩ := answers before
      cases page : query before with
      | nil =>
          rw [page] at isPage
          have selected : row ∈ rows.filter (earlier key before) := by
            apply List.mem_filter.mpr
            simp only [earlier, Bool.or_eq_true, decide_eq_true_eq]
            exact ⟨member, by omega⟩
          rcases List.take_eq_nil_iff.mp isPage.symm with zero | empty
          · omega
          · rw [empty] at perm
            rw [← perm.nil_eq] at selected
            cases selected
      | cons first rest =>
          rw [readPages, page]
          simp only [ih, Option.map_none]

/-- More fuel changes nothing. -/
theorem readPages_mono {more : Nat} (read : readPages key query fuel before = some found)
    (enough : fuel ≤ more) : readPages key query more before = some found := by
  induction fuel generalizing before found more with
  | zero => cases read
  | succ fuel ih =>
      obtain ⟨more, rfl⟩ := Nat.exists_eq_add_of_le' (Nat.le_of_add_left_le enough)
      rw [readPages] at read ⊢
      split
      · rename_i page
        simpa only [page] using read
      · rename_i first rest page
        simp only [page] at read
        obtain ⟨later, earlier, same⟩ := Option.map_eq_some_iff.mp read
        rw [ih earlier (by omega), Option.map_some, same]

/-- The reader comes to an end with every row exactly once. -/
def ReadsAll (key : Row → Int) (query : Int → List Row) (rows : List Row) : Prop :=
  ∃ fuel found, readPages key query fuel 0 = some found ∧ found.Perm rows

theorem readsAll_iff (nonzero : 0 < limit)
    (answers : ∀ before, IsPage key limit (rows.filter (earlier key before)) (query before)) :
    ReadsAll key query rows ↔ (∀ row ∈ rows, 0 < key row) ∧ PagesSeparate key limit rows := by
  have whole : rows.filter (earlier key 0) = rows := List.filter_eq_self.mpr fun _ _ => rfl
  by_cases positive : ∀ row ∈ rows, 0 < key row
  · obtain ⟨fuel, found, read, _, complete⟩ := readPages_of_positive nonzero answers positive 0
    rw [whole] at complete
    rw [← complete]
    constructor
    · intro all
      obtain ⟨enough, other, answered, perm⟩ := all
      have longer := readPages_mono answered (Nat.le_max_right fuel enough)
      rw [readPages_mono read (Nat.le_max_left fuel enough)] at longer
      cases longer
      exact ⟨positive, perm⟩
    · intro all
      exact ⟨fuel, found, read, all.2⟩
  · apply iff_of_false
    · intro all
      obtain ⟨fuel, found, read, _⟩ := all
      push Not at positive
      obtain ⟨row, member, nonpositive⟩ := positive
      rw [readPages_of_nonpositive nonzero answers member nonpositive] at read
      cases read
    · exact fun all => positive all.1

/-! ## Rows that a query does not see -/

theorem countP_take (descending : sorted.Pairwise (fun first second => key second ≤ key first)) (bound : Int) :
    (sorted.take limit).countP (fun row => bound ≤ key row) =
      min limit (sorted.countP (fun row => bound ≤ key row)) := by
  induction sorted generalizing limit with
  | nil => simp
  | cons first rest ih =>
      obtain ⟨newest, descending⟩ := List.pairwise_cons.mp descending
      cases limit with
      | zero => simp
      | succ limit =>
          rw [List.take_succ_cons, List.countP_cons, List.countP_cons, ih descending]
          by_cases reaches : bound ≤ key first
          · simp only [decide_eq_true reaches, if_true]
            omega
          · -- the rest is below the bound too
            have none_left : rest.countP (fun row => bound ≤ key row) = 0 := by
              apply List.countP_eq_zero.mpr
              intro row member
              have := newest row member
              exact fun reaches => absurd (of_decide_eq_true reaches) (by omega)
            simp only [decide_eq_false reaches, none_left]
            simp

/-- A page of the rows that are seen is one of all rows exactly if every other
row has as many seen ones above it as a page holds. -/
theorem isPage_append_iff (isPage : IsPage key limit rows found) :
    IsPage key limit (rows ++ other) found ↔
      ∀ row ∈ other, limit ≤ rows.countP (fun seen => key row ≤ key seen) := by
  obtain ⟨sorted, perm, descending, rfl⟩ := isPage
  constructor
  · intro isPage row member
    obtain ⟨whole, wholePerm, wholeDescending, same⟩ := isPage
    have counted := congrArg (List.countP (fun seen => key row ≤ key seen)) same
    rw [countP_take descending, countP_take wholeDescending, perm.countP_eq, wholePerm.countP_eq,
      List.countP_append] at counted
    have above : 0 < other.countP (fun seen => key row ≤ key seen) :=
      List.countP_pos_iff.mpr ⟨row, member, decide_eq_true (Int.le_refl _)⟩
    omega
  · intro enough
    have total : Std.Total (fun first second : Row => key second ≤ key first) :=
      ⟨fun first second => Int.le_total (key second) (key first)⟩
    have trans : IsTrans Row (fun first second => key second ≤ key first) :=
      ⟨fun _ _ _ upper lower => Int.le_trans lower upper⟩
    generalize sunk : (sorted.drop limit ++ other).insertionSort (fun first second => key second ≤ key first) = rest
    have sortedRest : rest.Pairwise (fun first second => key second ≤ key first) :=
      sunk ▸ List.pairwise_insertionSort _ _
    have permRest : rest.Perm (sorted.drop limit ++ other) := sunk ▸ List.perm_insertionSort _ _
    have ordered := descending
    rw [← List.take_append_drop limit sorted] at perm descending
    obtain ⟨pageDescending, _, pageAbove⟩ := List.pairwise_append.mp descending
    have above : ∀ row ∈ sorted.take limit, ∀ lower ∈ rest, key lower ≤ key row := by
      intro row member lower listed
      rcases List.mem_append.mp (permRest.mem_iff.mp listed) with left | unseen
      · exact pageAbove row member lower left
      · have counted := enough lower unseen
        rw [← perm.countP_eq, List.take_append_drop] at counted
        have full : (sorted.take limit).countP (fun seen => key lower ≤ key seen) =
            min limit (sorted.countP (fun seen => key lower ≤ key seen)) := countP_take ordered (key lower)
        have bound : (sorted.take limit).length ≤ limit := List.length_take_le ..
        have all : (sorted.take limit).countP (fun seen => key lower ≤ key seen) = (sorted.take limit).length := by
          have := List.countP_le_length (p := fun seen => decide (key lower ≤ key seen)) (l := sorted.take limit)
          omega
        exact of_decide_eq_true (List.countP_eq_length.mp all row member)
    refine ⟨sorted.take limit ++ rest, ?_, List.pairwise_append.mpr ⟨pageDescending, sortedRest, above⟩, ?_⟩
    · refine (permRest.append_left _).trans ?_
      rw [← List.append_assoc]
      exact perm.append_right _
    · by_cases full : limit ≤ sorted.length
      · rw [List.take_left' (by rw [List.length_take]; omega)]
      · -- a page with room to spare has seen every row
        have whole : sorted.take limit = sorted := List.take_of_length_le (by omega)
        have unseen : other = [] := by
          apply List.eq_nil_iff_forall_not_mem.mpr
          intro row member
          have := enough row member
          have := List.countP_le_length (p := fun seen => decide (key row ≤ key seen)) (l := rows)
          have lengths := perm.length_eq
          rw [List.take_append_drop] at lengths
          omega
        rw [unseen, List.drop_of_length_le (by omega), List.append_nil] at permRest
        rw [permRest.eq_nil, List.append_nil, List.take_take, Nat.min_self]

end MuduoIm.Data
