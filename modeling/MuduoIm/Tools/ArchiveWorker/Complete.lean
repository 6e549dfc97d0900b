import MuduoIm.Tools.ArchiveWorker.NoLoss

namespace MuduoIm.Tools.ArchiveWorker

open MuduoIm.Data MuduoIm.Transition

/-! # What a run leaves behind

A run in which no operation raises takes the rows older than its cutoff, except
those of the partitions that the index already listed when the run began.
-/

section

variable (calendar : Calendar) (before : Database)

/-- The run has yet to pass the partition. -/
def Ahead (run : Run) (kind : Kind) (month : Int) : Prop :=
  run.month < month ∨ run.month = month ∧ (run.kind = .privateChat ∨ kind = .group)

def Same (cutoff : Int) (messages : Tables) : Prop :=
  ∀ kind row, row.timestamp < cutoff → (row ∈ messages kind ↔ row ∈ before.messages kind)

/-- The rows that the run has not taken. -/
def Left (run : Run) (messages : Tables) : Prop :=
  ∀ kind row, row.timestamp < run.cutoff → (row ∈ messages kind ↔ row ∈ before.messages kind ∧
    ((before.index.lookup (kind, calendar.monthOf row.timestamp)).isSome ∨
      Ahead run kind (calendar.monthOf row.timestamp)))

def Untouched (run : Run) (index : Table (Kind × Int) IndexRow) : Prop :=
  ∀ kind month, Ahead run kind month → index.lookup (kind, month) = before.index.lookup (kind, month)

/-- `not row['mt']` is false. -/
def Starts (cutoff : Int) : Prop :=
  ∀ kind, ∀ row ∈ before.messages kind, row.timestamp < cutoff → earliest before ≠ some 0

structure Walks (db : Database) (run : Run) : Prop where
  left : Left calendar before run db.messages
  untouched : Untouched before run db.index
  starts : Starts before run.cutoff

/-- The partition has been entered in the index, and its rows are still there. -/
structure Entered (db : Database) (run : Run) : Prop where
  left : Left calendar before run db.messages
  untouched : ∀ kind month, Ahead run kind month → (kind, month) ≠ (run.kind, run.month) →
    db.index.lookup (kind, month) = before.index.lookup (kind, month)
  starts : Starts before run.cutoff
  absent : before.index.lookup (run.kind, run.month) = none

def Selected (messages : Tables) (run : Run) (ids : List Nat) : Prop :=
  ∀ row ∈ messages run.kind, row.timestamp < run.cutoff →
    (row.id ∈ ids ↔ calendar.monthOf row.timestamp = run.month)

def PhaseProgress (db : Database) (run : Run) : Prop :=
  match run.phase with
  | .start => run.pending = [] ∧ run.kind = .privateChat ∧ Same before run.cutoff db.messages ∧
      db.index = before.index
  | .commitIndex => (∃ entry, run.pending = [.index run.kind run.month entry]) ∧
      Walks calendar before db run ∧ before.index.lookup (run.kind, run.month) = none
  | .delete => run.pending = [] ∧ Entered calendar before db run
  | .markDeleted => (∃ ids, run.pending = [.delete run.kind ids] ∧ Selected calendar db.messages run ids) ∧
      Entered calendar before db run
  | .commitDelete => (∃ ids, run.pending = [.delete run.kind ids, .markDeleted run.kind run.month] ∧
      Selected calendar db.messages run ids) ∧ Entered calendar before db run
  | .ended => Same before run.cutoff db.messages ∧
      ∀ kind, ∀ row ∈ before.messages kind, row.timestamp < run.cutoff → earliest before = some 0
  | _ => run.pending = [] ∧ Walks calendar before db run

structure Progress (cutoff : Int) (db : Database) (run : Run) : Prop where
  cutoff : run.cutoff = cutoff
  deletes : run.deleteAfterVerify = true
  phase : PhaseProgress calendar before db run

end

section

variable {run : Run} {outcome : Outcome} {state : State} {onward : Run} {statement : Statement} {phase : Phase}
variable {close : Run → Run} {kind : Kind} {month : Int}

theorem Run.proceed_of_clean (clean : outcome.raises = false) : run.proceed outcome onward = onward := by
  rw [Run.proceed, clean, if_neg Bool.false_ne_true]

theorem Run.execute_of_clean (clean : outcome.raises = false) : run.execute outcome statement phase =
    { run with pending := run.pending ++ [statement], phase } := by
  rw [Run.execute, if_pos (.inl clean), Run.proceed_of_clean clean]

theorem State.commit_of_clean (clean : outcome.raises = false) : state.commit run outcome close =
    { state with
      committed := state.current run
      run := some (close { run with snapshot := none, pending := [] }) } := by
  have effective : outcome.Effective := .inl clean
  simp only [State.commit, if_pos effective, Run.proceed_of_clean clean]

theorem ahead_next : Ahead run.next kind month ↔ Ahead run kind month ∧ (kind, month) ≠ (run.kind, run.month) := by
  unfold Ahead Run.next
  rw [Ne, Prod.mk.injEq]
  cases run.kind <;> cases kind <;> simp <;> omega

theorem ahead_self : Ahead run run.kind run.month := by
  refine .inr ⟨rfl, ?_⟩
  cases run.kind with
  | privateChat => exact .inl rfl
  | group => exact .inr rfl

end

/-! ## The oldest message -/

section

variable {db other : Database} {timestamp cutoff : Int} {kind : Kind} {row : Row}

theorem mem_both (property : Row → Prop) :
    (∀ row ∈ db.messages .privateChat ++ db.messages .group, property row) ↔
      ∀ kind, ∀ row ∈ db.messages kind, property row := by
  rw [List.forall_mem_append]
  constructor
  · rintro ⟨first, second⟩ kind
    cases kind with
    | privateChat => exact first
    | group => exact second
  · exact fun all => ⟨all .privateChat, all .group⟩

theorem earliest_eq_none : earliest db = none ↔ ∀ kind, ∀ row, row ∉ db.messages kind := by
  rw [earliest, List.min?_eq_none_iff, List.map_eq_nil_iff, List.eq_nil_iff_forall_not_mem]
  exact mem_both fun _ => False

theorem earliest_eq_some : earliest db = some timestamp ↔
    (∃ kind, ∃ row ∈ db.messages kind, row.timestamp = timestamp) ∧
      ∀ kind, ∀ row ∈ db.messages kind, timestamp ≤ row.timestamp := by
  rw [earliest, List.min?_eq_some_iff, List.forall_mem_map, mem_both, List.mem_map]
  refine and_congr_left fun _ => ?_
  constructor
  · rintro ⟨row, member, rfl⟩
    rcases List.mem_append.mp member with first | second
    · exact ⟨_, row, first, rfl⟩
    · exact ⟨_, row, second, rfl⟩
  · rintro ⟨kind, row, member, rfl⟩
    cases kind with
    | privateChat => exact ⟨row, List.mem_append_left _ member, rfl⟩
    | group => exact ⟨row, List.mem_append_right _ member, rfl⟩

/-- The smallest timestamp, if it is below the cutoff, depends on the rows below
the cutoff only. -/
theorem earliest_of_same
    (same : ∀ kind row, row.timestamp < cutoff → (row ∈ db.messages kind ↔ row ∈ other.messages kind))
    (member : row ∈ db.messages kind) (older : row.timestamp < cutoff) : earliest db = earliest other := by
  cases found : earliest other with
  | none =>
      exact absurd ((same kind row older).mp member) (earliest_eq_none.mp found kind row)
  | some timestamp =>
      obtain ⟨⟨first, oldest, listed, rfl⟩, least⟩ := earliest_eq_some.mp found
      have below : oldest.timestamp < cutoff := by
        have := least kind row ((same kind row older).mp member)
        omega
      refine earliest_eq_some.mpr ⟨⟨first, oldest, (same first oldest below).mpr listed, rfl⟩, ?_⟩
      intro second row member
      by_cases older : row.timestamp < cutoff
      · exact least second row ((same second row older).mp member)
      · omega

end

/-! ## One step -/

section

variable {calendar : Calendar} {before db : Database} {state later : State} {run : Run} {outcome : Outcome}
variable {cutoff : Int} {kind : Kind} {row : Row} {ids : List Nat}

theorem Left.of_agree {messages changed : Tables} (left : Left calendar before run messages)
    (agree : ∀ kind row, row.timestamp < run.cutoff → (row ∈ changed kind ↔ row ∈ messages kind)) :
    Left calendar before run changed :=
  fun kind row older => (agree kind row older).trans (left kind row older)

/-- Passing a partition of which nothing is left that was not in the index. -/
theorem Left.next {messages : Tables} (left : Left calendar before run messages)
    (settled : ∀ row ∈ messages run.kind, row.timestamp < run.cutoff → calendar.monthOf row.timestamp = run.month →
      (before.index.lookup (run.kind, run.month)).isSome) : Left calendar before run.next messages := by
  intro kind row older
  rw [Run.next_cutoff] at older
  rw [left kind row older, ahead_next]
  refine and_congr_right fun held => ⟨?_, fun known => known.imp_right And.left⟩
  intro known
  by_cases here : (kind, calendar.monthOf row.timestamp) = (run.kind, run.month)
  · have member := (left kind row older).mpr ⟨held, known⟩
    rw [here]
    obtain ⟨rfl, ofMonth⟩ := Prod.mk.inj here
    exact .inl (settled row member older ofMonth)
  · exact known.imp_right fun ahead => ⟨ahead, here⟩

theorem Untouched.next {index : Table (Kind × Int) IndexRow} (untouched : Untouched before run index) :
    Untouched before run.next index :=
  fun kind month ahead => untouched kind month (ahead_next.mp ahead).1

theorem Walks.next (walks : Walks calendar before db run)
    (settled : ∀ row ∈ db.messages run.kind, row.timestamp < run.cutoff →
      calendar.monthOf row.timestamp = run.month → (before.index.lookup (run.kind, run.month)).isSome) :
    Walks calendar before db run.next where
  left := walks.left.next settled
  untouched := walks.untouched.next
  starts := by
    rw [Run.next_cutoff]
    exact walks.starts

/-- The commit that enters the partition. -/
theorem Walks.enter {entry : IndexRow} (walks : Walks calendar before state.committed run)
    (pending : run.pending = [.index run.kind run.month entry])
    (absent : before.index.lookup (run.kind, run.month) = none) :
    Entered calendar before (state.current run) run where
  left := by
    intro kind row older
    rw [← walks.left kind row older, State.current, pending, mem_foldl]
    simp
  untouched := by
    intro kind month ahead apart
    rw [State.current, pending, List.foldl_cons, List.foldl_nil, lookup_apply]
    dsimp only
    rw [if_neg apart, walks.untouched kind month ahead]
  starts := walks.starts
  absent := absent

/-- The commit that deletes its rows. -/
theorem Entered.delete (entered : Entered calendar before state.committed run)
    (pending : run.pending = [.delete run.kind ids, .markDeleted run.kind run.month])
    (selected : Selected calendar state.committed.messages run ids) :
    Walks calendar before (state.current run) { run with snapshot := none, pending := [] }.next where
  left := by
    have remains (kind : Kind) (row : Row) : row ∈ (state.current run).messages kind ↔
        row ∈ state.committed.messages kind ∧ ¬ (kind = run.kind ∧ row.id ∈ ids) := by
      rw [State.current, pending, mem_foldl]
      refine and_congr_right fun _ => ⟨?_, ?_⟩
      · rintro kept ⟨rfl, taken⟩
        exact kept ids List.mem_cons_self taken
      · intro kept other member taken
        simp only [List.mem_cons, Statement.delete.injEq, reduceCtorEq, List.not_mem_nil, or_false] at member
        exact kept ⟨member.1, member.2 ▸ taken⟩
    intro kind row older
    rw [Run.next_cutoff] at older
    rw [remains, ahead_next]
    constructor
    · rintro ⟨member, kept⟩
      obtain ⟨held, known⟩ := (entered.left kind row older).mp member
      refine ⟨held, known.imp_right fun ahead => ⟨ahead, ?_⟩⟩
      intro here
      obtain ⟨rfl, ofMonth⟩ := Prod.mk.inj here
      exact kept ⟨rfl, (selected row member older).mpr ofMonth⟩
    · rintro ⟨held, known⟩
      have member := (entered.left kind row older).mpr ⟨held, known.imp_right And.left⟩
      refine ⟨member, ?_⟩
      rintro ⟨rfl, taken⟩
      rw [(selected row member older).mp taken, entered.absent] at known
      rcases known with absurdly | ⟨_, apart⟩
      · cases absurdly
      · exact apart rfl
  untouched := by
    intro kind month ahead
    obtain ⟨ahead, apart⟩ := ahead_next.mp ahead
    rw [← entered.untouched kind month ahead apart, State.current, pending]
    simp only [List.foldl_cons, List.foldl_nil, lookup_apply, if_neg apart]
  starts := by
    rw [Run.next_cutoff]
    exact entered.starts

theorem PhaseProgress.of_check (checks : run.phase = .check) (pending : run.pending = [])
    (walks : Walks calendar before db run) : PhaseProgress calendar before db run := by
  rw [PhaseProgress, checks]
  exact ⟨pending, walks⟩

/-- An open transaction that has done nothing reads the rows below the cutoff as
they are. -/
theorem Cautious.mem_view {index : Table (Kind × Int) IndexRow} {files : Uri → Option (List Row)} {stored : Tables}
    (cautious : Cautious calendar index files state.committed.messages stored run) (pending : run.pending = [])
    (older : row.timestamp < run.cutoff) :
    row ∈ (state.view run).messages kind ↔ row ∈ state.committed.messages kind := by
  rw [State.view, pending, List.foldl_nil]
  cases opened : run.snapshot with
  | none => exact Iff.rfl
  | some db => exact cautious.snapshot db opened kind row older

theorem Transaction.index_view {files : Uri → Option (List Row)}
    (transaction : Transaction calendar state.committed.index files run) (pending : run.pending = []) :
    (state.view run).index = state.committed.index := by
  rw [State.view, pending, List.foldl_nil]
  cases opened : run.snapshot with
  | none => rfl
  | some db => exact transaction.snapshot db opened

/-- A partition that the run skips was in the index before. -/
theorem Walks.archived {files : Uri → Option (List Row)} (walks : Walks calendar before state.committed run)
    (transaction : Transaction calendar state.committed.index files run) (pending : run.pending = [])
    (archived : archived (state.view run) run.kind run.month = true) :
    (before.index.lookup (run.kind, run.month)).isSome := by
  rw [ArchiveWorker.archived, transaction.index_view pending, walks.untouched _ _ ahead_self] at archived
  cases found : before.index.lookup (run.kind, run.month) with
  | none =>
      rw [found] at archived
      cases archived
  | some entry => rfl

/-! ## The run goes on -/

/-- What a run reads below the cutoff when it starts is what it has found. -/
theorem Progress.reads (progress : Progress calendar before cutoff state.committed run) (kept : Kept calendar state)
    (running : state.run = some run) (at_start : run.phase = .start) (older : row.timestamp < run.cutoff) :
    row ∈ (state.view run).messages kind ↔ row ∈ before.messages kind := by
  have phase := progress.phase
  rw [PhaseProgress, at_start] at phase
  obtain ⟨pending, _, same, _⟩ := phase
  exact ((kept.run run running).1.mem_view pending older).trans (same kind row older)

theorem Progress.oldest (progress : Progress calendar before cutoff state.committed run) (kept : Kept calendar state)
    (running : state.run = some run) (at_start : run.phase = .start) (held : row ∈ before.messages kind)
    (older : row.timestamp < run.cutoff) : earliest (state.view run) = earliest before :=
  earliest_of_same (fun _ _ => progress.reads kept running at_start)
    ((progress.reads kept running at_start older).mpr held) older

theorem Progress.empty (progress : Progress calendar before cutoff state.committed run) (kept : Kept calendar state)
    (running : state.run = some run) (at_start : run.phase = .start)
    (nothing : ∀ timestamp, earliest (state.view run) = some timestamp → timestamp = 0) :
    Progress calendar before cutoff state.committed { run with phase := .ended } := by
  have phase := progress.phase
  rw [PhaseProgress, at_start] at phase
  obtain ⟨_, _, same, _⟩ := phase
  refine ⟨progress.cutoff, progress.deletes, same, ?_⟩
  intro kind row held older
  rw [← progress.oldest kept running at_start held older]
  cases found : earliest (state.view run) with
  | none =>
      exact absurd ((progress.reads kept running at_start older).mpr held) (earliest_eq_none.mp found kind row)
  | some timestamp => rw [nothing timestamp found]

theorem Progress.first {timestamp : Int} (progress : Progress calendar before cutoff state.committed run)
    (kept : Kept calendar state) (running : state.run = some run) (at_start : run.phase = .start)
    (found : earliest (state.view run) = some timestamp) (nonzero : timestamp ≠ 0) :
    Progress calendar before cutoff state.committed
      { state.reading run with month := calendar.monthOf timestamp, phase := .check } := by
  have phase := progress.phase
  rw [PhaseProgress, at_start] at phase
  obtain ⟨pending, first, same, index⟩ := phase
  refine ⟨progress.cutoff, progress.deletes, pending, ?_, ?_, ?_⟩
  · intro kind row older
    refine (same kind row older).trans (iff_self_and.mpr fun held => .inr ?_)
    have read := (progress.reads kept running at_start older).mpr held
    have least := (earliest_eq_some.mp found).2 kind row read
    rcases Int.lt_or_eq_of_le (calendar.monthOf_mono least) with later | here
    · exact .inl later
    · exact .inr ⟨here, .inl first⟩
  · intro kind month _
    rw [index]
  · intro kind row held older absurdly
    rw [← progress.oldest kept running at_start held older, found, Option.some.injEq] at absurdly
    exact nonzero absurdly

/-- The rows of a partition that is skipped are in the index, or there are none. -/
theorem Walks.settled (walks : Walks calendar before state.committed run) (indexed : Indexed calendar state)
    (kept : Kept calendar state) (running : state.run = some run) (pending : run.pending = [])
    (settled : Settled calendar state run) :
    ∀ row ∈ state.committed.messages run.kind, row.timestamp < run.cutoff →
      calendar.monthOf row.timestamp = run.month → (before.index.lookup (run.kind, run.month)).isSome := by
  obtain ⟨transaction, phaseIndexed⟩ := indexed.run run running
  intro row member older ofMonth
  rcases settled with ⟨_, archived | late⟩ | ⟨at_phase, empty⟩
  · exact walks.archived transaction pending archived
  · have within := calendar.within row.timestamp
    rw [ofMonth] at within
    have := Int.le_min.mpr ⟨Int.le_of_lt within.2, Int.le_of_lt older⟩
    unfold rangeEnd at late
    omega
  · rw [PhaseIndexed, at_phase] at phaseIndexed
    have listed := kept.covers_selectRows running phaseIndexed row member (inRange_iff.mpr ⟨ofMonth, older⟩)
    rw [empty] at listed
    cases listed

theorem PhaseProgress.of_settled
    (phase : PhaseProgress calendar before state.committed run) (at_phase : run.phase = .check ∨ run.phase = .select) :
    run.pending = [] ∧ Walks calendar before state.committed run := by
  unfold PhaseProgress at phase
  rcases at_phase with here | here
  · rwa [here] at phase
  · rwa [here] at phase

theorem Progress.advance (progress : Progress calendar before cutoff state.committed run)
    (indexed : Indexed calendar state) (kept : Kept calendar state) (running : state.run = some run)
    (clean : outcome.raises = false) (advanced : advance calendar state run outcome = some later) :
    ∃ onward, later.run = some onward ∧ Progress calendar before cutoff later.committed onward := by
  obtain ⟨_, phaseIndexed⟩ := indexed.run run running
  have phase := progress.phase
  unfold PhaseProgress at phase
  unfold PhaseIndexed at phaseIndexed
  cases advance_cases advanced with
  | broken _ raised => cases clean.symm.trans raised
  | caught _ raised => cases clean.symm.trans raised
  | empty at_phase nothing => exact ⟨_, rfl, progress.empty kept running at_phase nothing⟩
  | first at_phase timestamp found nonzero => exact ⟨_, rfl, progress.first kept running at_phase found nonzero⟩
  | skipped settled =>
      -- the run goes on to the next partition without a statement
      obtain ⟨pending, walks⟩ := progress.phase.of_settled (settled.imp And.left And.left)
      have read : Walks calendar before state.committed (state.reading run) :=
        ⟨walks.left, walks.untouched, walks.starts⟩
      exact ⟨_, rfl, Run.next_cutoff.trans progress.cutoff, Run.next_deleteAfterVerify.trans progress.deletes,
        .of_check Run.next_phase (Run.next_pending.trans pending)
          (read.next (walks.settled indexed kept running pending settled))⟩
  | checked at_phase =>
      obtain ⟨pending, walks⟩ := progress.phase.of_settled (.inl at_phase)
      exact ⟨_, rfl, progress.cutoff, progress.deletes, pending, walks.left, walks.untouched, walks.starts⟩
  | selected at_phase =>
      obtain ⟨pending, walks⟩ := progress.phase.of_settled (.inr at_phase)
      exact ⟨_, rfl, progress.cutoff, progress.deletes, pending, walks.left, walks.untouched, walks.starts⟩
  | uploaded rows at_phase =>
      simp only [at_phase] at phase
      obtain ⟨pending, walks⟩ := phase
      rw [Run.proceed_of_clean clean]
      refine ⟨_, rfl, progress.cutoff, progress.deletes, pending, ?_⟩
      simp only [State.withRun, State.upload_committed]
      exact ⟨walks.left, walks.untouched, walks.starts⟩
  | entered uri rows at_phase =>
      simp only [at_phase] at phase phaseIndexed
      obtain ⟨pending, walks⟩ := phase
      rw [Run.execute_of_clean clean]
      refine ⟨_, rfl, progress.cutoff, progress.deletes, ⟨_, by rw [pending]; rfl⟩,
        ⟨walks.left, walks.untouched, walks.starts⟩, ?_⟩
      rw [← walks.untouched run.kind run.month ahead_self]
      exact phaseIndexed.1.absent
  | committedIndex at_phase =>
      simp only [at_phase] at phase
      obtain ⟨⟨entry, pending⟩, walks, absent⟩ := phase
      simp only [State.commit_of_clean clean, if_pos progress.deletes]
      have entered := walks.enter pending absent
      exact ⟨_, rfl, progress.cutoff, progress.deletes, rfl, entered.left, entered.untouched, entered.starts,
        entered.absent⟩
  | deleted at_phase =>
      simp only [at_phase] at phase
      obtain ⟨pending, entered⟩ := phase
      rw [Run.execute_of_clean clean]
      refine ⟨_, rfl, progress.cutoff, progress.deletes, ⟨_, by rw [pending]; rfl, ?_⟩,
        entered.left, entered.untouched, entered.starts, entered.absent⟩
      intro row member older
      rw [State.current, pending, List.foldl_nil, List.mem_map]
      constructor
      · rintro ⟨other, chosen, same⟩
        obtain ⟨listed, within⟩ := List.mem_filter.mp chosen
        rw [kept.unique run.kind row (kept.listed _ row member) other (kept.listed _ other listed) same] at within
        exact (inRange_iff.mp within).1
      · exact fun ofMonth => ⟨row, List.mem_filter.mpr ⟨member, inRange_iff.mpr ⟨ofMonth, older⟩⟩, rfl⟩
  | markedDeleted at_phase =>
      simp only [at_phase] at phase
      obtain ⟨⟨ids, pending, selected⟩, entered⟩ := phase
      rw [Run.execute_of_clean clean]
      exact ⟨_, rfl, progress.cutoff, progress.deletes, ⟨ids, by rw [pending]; rfl, selected⟩,
        entered.left, entered.untouched, entered.starts, entered.absent⟩
  | committedDelete at_phase =>
      simp only [at_phase] at phase
      obtain ⟨⟨ids, pending, selected⟩, entered⟩ := phase
      rw [State.commit_of_clean clean]
      exact ⟨_, rfl, Run.next_cutoff.trans progress.cutoff, Run.next_deleteAfterVerify.trans progress.deletes,
        .of_check Run.next_phase Run.next_pending (entered.delete pending selected)⟩

/-! ## Other writers -/

theorem PhaseProgress.of_agree {changed : Database} (phase : PhaseProgress calendar before db run)
    (agree : ∀ kind row, row.timestamp < run.cutoff → (row ∈ changed.messages kind ↔ row ∈ db.messages kind))
    (index : changed.index = db.index) : PhaseProgress calendar before changed run := by
  have same (same : Same before run.cutoff db.messages) : Same before run.cutoff changed.messages :=
    fun kind row older => (agree kind row older).trans (same kind row older)
  have walks (walks : Walks calendar before db run) : Walks calendar before changed run :=
    ⟨walks.left.of_agree agree, index ▸ walks.untouched, walks.starts⟩
  have entered (entered : Entered calendar before db run) : Entered calendar before changed run :=
    ⟨entered.left.of_agree agree, index ▸ entered.untouched, entered.starts, entered.absent⟩
  have selected {ids : List Nat} (selected : Selected calendar db.messages run ids) :
      Selected calendar changed.messages run ids :=
    fun row member older => selected row ((agree run.kind row older).mp member) older
  unfold PhaseProgress at phase ⊢
  split at phase
  · exact ⟨phase.1, phase.2.1, same phase.2.2.1, index.trans phase.2.2.2⟩
  · exact ⟨phase.1, walks phase.2.1, phase.2.2⟩
  · exact ⟨phase.1, entered phase.2⟩
  · obtain ⟨⟨ids, pending, chosen⟩, after⟩ := phase
    exact ⟨⟨ids, pending, selected chosen⟩, entered after⟩
  · obtain ⟨⟨ids, pending, chosen⟩, after⟩ := phase
    exact ⟨⟨ids, pending, selected chosen⟩, entered after⟩
  · exact ⟨same phase.1, phase.2⟩
  · exact ⟨phase.1, walks phase.2⟩

theorem Progress.of_agree {changed : Database} (progress : Progress calendar before cutoff db run)
    (agree : ∀ kind row, row.timestamp < run.cutoff → (row ∈ changed.messages kind ↔ row ∈ db.messages kind))
    (index : changed.index = db.index) : Progress calendar before cutoff changed run :=
  ⟨progress.cutoff, progress.deletes, progress.phase.of_agree agree index⟩

end

/-- A step inside a run in which nothing goes wrong. -/
def Event.Clean : Event → Prop
  | .advance outcome => outcome.raises = false
  | .insert _ _ => True
  | .update _ _ _ _ => True
  | _ => False

section

variable (calendar : Calendar)

def Remains (before : Database) (cutoff : Int) (messages : Tables) : Prop :=
  ∀ kind row, row.timestamp < cutoff → (row ∈ messages kind ↔ row ∈ before.messages kind ∧
    ((before.index.lookup (kind, calendar.monthOf row.timestamp)).isSome ∨ earliest before = some 0))

/-- Every message older than the cutoff is in its file, and only there. -/
def Complete (cutoff : Int) (state : State) : Prop :=
  ∀ kind, (∀ row ∈ state.stored kind, row.timestamp < cutoff →
      InFile calendar state.committed.index state.files kind row) ∧
    ∀ row ∈ state.committed.messages kind, cutoff ≤ row.timestamp

/-- No partition that a message older than the cutoff belongs to is in the
index, and the worker does not take the smallest timestamp for an empty table. -/
def Ready (cutoff : Int) (db : Database) : Prop :=
  ∀ kind, ∀ row ∈ db.messages kind, row.timestamp < cutoff →
    db.index.lookup (kind, calendar.monthOf row.timestamp) = none ∧ earliest db ≠ some 0

end

variable {calendar : Calendar} {before : Database} {state later after : State} {run : Run} {cutoff : Int}
variable {event : Event} {earlier body : List Event}

theorem Progress.step (progress : Progress calendar before cutoff state.committed run)
    (indexed : Indexed calendar state) (kept : Kept calendar state) (running : state.run = some run)
    (allowed : WritesRecent state event) (clean : event.Clean)
    (stepped : (machine calendar).step state event = some later) :
    ∃ onward, later.run = some onward ∧ Progress calendar before cutoff later.committed onward := by
  cases event with
  | begin _ _ => cases clean
  | finish => cases clean
  | crash => cases clean
  | advance outcome =>
      obtain ⟨other, same, advanced⟩ := advances_of_step stepped
      rw [running] at same
      cases same
      exact progress.advance indexed kept running clean advanced
  | insert kind row =>
      obtain ⟨_, rfl⟩ := inserts_of_step stepped
      exact ⟨run, running, progress.of_agree
        (fun _ _ older => mem_insert_of_recent (allowed run running) older) rfl⟩
  | update kind id content recalled =>
      obtain ⟨_, rfl⟩ := updates_of_step stepped
      exact ⟨run, running, progress.of_agree
        (fun _ _ older => mem_update_of_recent (allowed run running) older) rfl⟩

theorem Progress.finish (progress : Progress calendar before cutoff state.committed run)
    (running : state.run = some run) (stepped : (machine calendar).step state .finish = some later) :
    Remains calendar before cutoff later.committed.messages := by
  have phase := progress.phase
  rw [← progress.cutoff]
  obtain ⟨other, same, ends, rfl⟩ := finishes_of_step stepped
  rw [running] at same
  cases same
  rcases ends with at_phase | ⟨at_phase, passed⟩
  · simp only [PhaseProgress, at_phase] at phase
    intro kind row older
    exact (phase.1 kind row older).trans (iff_self_and.mpr fun held => .inr (phase.2 kind row held older))
  · simp only [PhaseProgress, at_phase] at phase
    obtain ⟨_, walks⟩ := phase
    intro kind row older
    rw [walks.left kind row older]
    refine and_congr_right fun held => or_congr_right ?_
    have := calendar.monthOf_mono (Int.le_of_lt older)
    refine iff_of_false ?_ (walks.starts kind row held older)
    unfold Ahead
    omega

/-- What a run in which nothing goes wrong leaves in the tables. -/
theorem remains_of_run (met : (machine calendar).Meets WritesRecent state (body ++ [.finish]))
    (clean : ∀ event ∈ body, event.Clean) (indexed : Indexed calendar state) (kept : Kept calendar state)
    (running : state.run = some run) (progress : Progress calendar before cutoff state.committed run)
    (ended : (machine calendar).run state (body ++ [.finish]) = some after) :
    Kept calendar after ∧ Remains calendar before cutoff after.committed.messages := by
  induction body generalizing state run with
  | nil =>
      obtain ⟨later, stepped, ended⟩ := Machine.run_cons_eq_some.mp ended
      cases ended
      exact ⟨kept.step indexed (met _ stepped).1 stepped, progress.finish running stepped⟩
  | cons event rest ih =>
      obtain ⟨later, stepped, ended⟩ := Machine.run_cons_eq_some.mp ended
      obtain ⟨allowed, onward⟩ := met later stepped
      obtain ⟨run, running, progress⟩ :=
        progress.step indexed kept running allowed (clean event List.mem_cons_self) stepped
      exact ih onward (fun event member => clean event (List.mem_cons_of_mem _ member)) (indexed.step stepped)
        (kept.step indexed allowed stepped) running progress ended

/-- `body` is a run in which nothing goes wrong; before it there may have been
any runs. -/
theorem archiving_complete_iff {before : State}
    (metBefore : (machine calendar).Meets WritesRecent {} earlier)
    (history : (machine calendar).run {} earlier = some before)
    (met : (machine calendar).Meets WritesRecent before (.begin cutoff true :: (body ++ [.finish])))
    (clean : ∀ event ∈ body, event.Clean)
    (ended : (machine calendar).run before (.begin cutoff true :: (body ++ [.finish])) = some after) :
    Complete calendar cutoff after ↔ Ready calendar cutoff before.committed := by
  obtain ⟨indexed, kept⟩ := (always_kept metBefore).atEnd history
  obtain ⟨begun, stepped, ended⟩ := Machine.run_cons_eq_some.mp ended
  obtain ⟨allowed, met⟩ := met begun stepped
  have keptBegun := kept.step indexed allowed stepped
  have indexedBegun := indexed.step stepped
  have progress : ∃ run, begun.run = some run ∧ Progress calendar before.committed cutoff begun.committed run := by
    simp only [machine, ArchiveWorker.step] at stepped
    split at stepped
    · cases stepped
      exact ⟨_, rfl, rfl, rfl, rfl, rfl, fun _ _ _ => Iff.rfl, rfl⟩
    · cases stepped
  obtain ⟨run, running, progress⟩ := progress
  obtain ⟨keptAfter, remains⟩ := remains_of_run met clean indexedBegun keptBegun running progress ended
  constructor
  · intro complete kind row held older
    have gone : row ∉ after.committed.messages kind := by
      intro member
      have := (complete kind).2 row member
      omega
    rw [remains kind row older, not_and_or, not_or, Option.not_isSome_iff_eq_none] at gone
    exact gone.resolve_left fun absurdly => absurdly held
  · intro ready kind
    have gone (row : Row) (member : row ∈ after.committed.messages kind) : cutoff ≤ row.timestamp := by
      by_contra older
      obtain ⟨held, left⟩ := (remains kind row (Int.not_le.mp older)).mp member
      obtain ⟨absent, nonzero⟩ := ready kind row held (Int.not_le.mp older)
      rw [absent] at left
      rcases left with absurdly | zero
      · cases absurdly
      · exact nonzero zero
    refine ⟨fun row stored older => ?_, gone⟩
    refine (keptAfter.noLoss kind row stored).resolve_left fun member => ?_
    have := gone row member
    omega

theorem archiving_complete_iff_greeting : ∃ before after,
    (machine thirtyDays).run {} [.insert .privateChat greeting] = some before ∧
    (machine thirtyDays).run before (.begin 5000 true :: (List.replicate 11 (.advance {}) ++ [.finish])) = some after ∧
    Complete thirtyDays 5000 after := by
  have metBefore : (machine thirtyDays).Meets WritesRecent {} [.insert .privateChat greeting] := by
    refine fun _ _ => ⟨?_, trivial⟩
    intro run absurdly
    cases absurdly
  have met {state : State} : (machine thirtyDays).Meets WritesRecent state
      (.begin 5000 true :: (List.replicate 11 (.advance {}) ++ [.finish])) :=
    Machine.meets_of_forall (by simp [WritesRecent])
  refine ⟨_, _, rfl, rfl, (archiving_complete_iff metBefore rfl met ?_ rfl).mpr ?_⟩
  · simp [Event.Clean]
  · exact fun kind row member older => ⟨rfl, by decide⟩

def firstDay : List Event :=
  [.insert .privateChat greeting, .insert .privateChat { greeting with id := 2, msgId := "m2", timestamp := 5500 },
    .begin 5000 true] ++ List.replicate 11 (.advance {}) ++ [.finish]

/-- On the next day the month is in the index already. -/
theorem second_day_leaves_message : ∃ before after,
    (machine thirtyDays).run {} firstDay = some before ∧
    (machine thirtyDays).run before (.begin 6000 true :: (List.replicate 4 (.advance {}) ++ [.finish])) = some after ∧
    ¬ Complete thirtyDays 6000 after := by
  refine ⟨_, _, rfl, rfl, fun complete => ?_⟩
  have recent := (complete .privateChat).2 _ List.mem_cons_self
  revert recent
  decide

end MuduoIm.Tools.ArchiveWorker
