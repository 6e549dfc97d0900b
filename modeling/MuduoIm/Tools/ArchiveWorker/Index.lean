import MuduoIm.Tools.ArchiveWorker

namespace MuduoIm.Tools.ArchiveWorker

open MuduoIm.Data MuduoIm.Transition

/-! # The files behind `archive_index`

Whatever else is written to the tables, every row of `archive_index` that is
committed or about to be names a complete file of its partition, and no upload
touches such a file.
-/

/-! ## Statements -/

section

variable {db : Database} {statement : Statement} {statements : List Statement}
variable {kind : Kind} {month : Int} {key : Kind × Int} {entry : IndexRow} {row : Row}

theorem mem_apply : row ∈ (db.apply statement).messages kind ↔
    row ∈ db.messages kind ∧ ∀ ids, statement = .delete kind ids → row.id ∉ ids := by
  cases statement with
  | index _ _ _ => simp [Database.apply]
  | markDeleted other month =>
      simp only [Database.apply]
      split <;> simp
  | delete other ids =>
      simp only [Database.apply]
      split
      · rename_i same
        subst same
        simp
      · rename_i apart
        simp [Ne.symm apart]

theorem mem_foldl : row ∈ (statements.foldl Database.apply db).messages kind ↔
    row ∈ db.messages kind ∧ ∀ ids, .delete kind ids ∈ statements → row.id ∉ ids := by
  induction statements generalizing db with
  | nil => simp
  | cons statement rest ih =>
      rw [List.foldl_cons, ih, mem_apply, and_assoc]
      simp only [List.mem_cons, or_imp, forall_and, eq_comm]

theorem lookup_apply : (db.apply statement).index.lookup key =
    match statement with
    | .index kind month entry => if key = (kind, month) then some entry else db.index.lookup key
    | .delete _ _ => db.index.lookup key
    | .markDeleted kind month =>
        if key = (kind, month) then
          (db.index.lookup key).map (fun entry => { entry with status := .deletedSource })
        else db.index.lookup key := by
  cases statement with
  | index kind month entry => exact Table.lookup_insert_ite
  | delete kind ids => rfl
  | markDeleted kind month =>
      simp only [Database.apply]
      split
      · rename_i absent
        split
        · rename_i same
          rw [same, absent]
          rfl
        · rfl
      · rename_i entry found
        rw [Table.lookup_insert_ite]
        split
        · rename_i same
          rw [same, found]
          rfl
        · rfl

/-- An entry stays, perhaps with another status. -/
theorem lookup_foldl_of_some (found : db.index.lookup key = some entry)
    (untouched : ∀ other, .index key.1 key.2 other ∉ statements) :
    ∃ status, (statements.foldl Database.apply db).index.lookup key = some { entry with status } := by
  induction statements generalizing db entry with
  | nil => exact ⟨entry.status, found⟩
  | cons statement rest ih =>
      rw [List.foldl_cons]
      have later : ∀ other, .index key.1 key.2 other ∉ rest :=
        fun other member => untouched other (List.mem_cons_of_mem _ member)
      have kept : ∃ status, (db.apply statement).index.lookup key = some { entry with status } := by
        rw [lookup_apply]
        cases statement with
        | index kind month other =>
            have apart : key ≠ (kind, month) := by
              rintro rfl
              exact untouched other List.mem_cons_self
            simp only [if_neg apart]
            exact ⟨entry.status, found⟩
        | delete kind ids => exact ⟨entry.status, found⟩
        | markDeleted kind month =>
            dsimp only
            split
            · rw [found]
              exact ⟨_, rfl⟩
            · exact ⟨entry.status, found⟩
      obtain ⟨_, now⟩ := kept
      obtain ⟨status, after⟩ := ih now later
      exact ⟨status, after⟩

/-- What holds of the entries that were there and of those that are entered, and
does not depend on a status in use, holds of all entries afterwards. -/
theorem forall_lookup_foldl {property : Kind × Int → IndexRow → Prop}
    (before : ∀ key entry, db.index.lookup key = some entry → property key entry)
    (entered : ∀ kind month entry, .index kind month entry ∈ statements → property (kind, month) entry)
    (marked : ∀ key entry, property key entry → property key { entry with status := .deletedSource }) :
    ∀ key entry, (statements.foldl Database.apply db).index.lookup key = some entry → property key entry := by
  induction statements generalizing db with
  | nil => exact before
  | cons statement rest ih =>
      rw [List.foldl_cons]
      apply ih
      · intro key entry found
        rw [lookup_apply] at found
        cases statement with
        | index kind month other =>
            dsimp only at found
            split at found
            · rename_i same
              cases found
              exact same ▸ entered kind month entry List.mem_cons_self
            · exact before key entry found
        | delete kind ids => exact before key entry found
        | markDeleted kind month =>
            dsimp only at found
            split at found
            · obtain ⟨other, was, rfl⟩ := Option.map_eq_some_iff.mp found
              exact marked key other (before key other was)
            · exact before key entry found
      · exact fun kind month entry member => entered kind month entry (List.mem_cons_of_mem _ member)

theorem isSome_apply (known : (db.index.lookup key).isSome) : ((db.apply statement).index.lookup key).isSome := by
  rw [lookup_apply]
  cases statement with
  | index kind month other =>
      dsimp only
      split
      · rfl
      · exact known
  | delete kind ids => exact known
  | markDeleted kind month =>
      dsimp only
      split
      · rw [Option.isSome_map]
        exact known
      · exact known

theorem isSome_foldl (known : (db.index.lookup key).isSome) :
    ((statements.foldl Database.apply db).index.lookup key).isSome := by
  induction statements generalizing db with
  | nil => exact known
  | cons statement rest ih => exact ih (isSome_apply known)

theorem isSome_foldl_of_entered (member : .index kind month entry ∈ statements) :
    ((statements.foldl Database.apply db).index.lookup (kind, month)).isSome := by
  induction statements generalizing db with
  | nil => cases member
  | cons statement rest ih =>
      rcases List.mem_cons.mp member with rfl | later
      · rw [List.foldl_cons]
        apply isSome_foldl
        rw [lookup_apply]
        simp
      · exact ih later

theorem lookup_concat : ((statements ++ [Statement.index kind month entry]).foldl Database.apply db).index.lookup
    (kind, month) = some entry := by
  rw [List.foldl_append, List.foldl_cons, List.foldl_nil, lookup_apply]
  simp

end

/-! ## What the worker keeps -/

variable (calendar : Calendar)

/-- The file holds rows of one month, and the entry has its summary. -/
structure Written (files : Uri → Option (List Row)) (kind : Kind) (month : Int) (uri : Uri) (rows : List Row) :
    Prop where
  ofKind : uri.kind = kind
  ofMonth : uri.month = month
  content : files uri = some rows
  nonempty : rows ≠ []
  months : ∀ row ∈ rows, calendar.monthOf row.timestamp = month

def Filed (files : Uri → Option (List Row)) (key : Kind × Int) (entry : IndexRow) : Prop :=
  entry.status.Archived ∧ ∃ rows, Written calendar files key.1 key.2 entry.storageUri rows ∧
    entry.maxTs = (indexRow entry.storageUri rows).maxTs

section

variable (index : Table (Kind × Int) IndexRow) (files : Uri → Option (List Row)) (run : Run)

/-- The partition is not in the index, and the transaction does not enter it. -/
structure Fresh : Prop where
  absent : index.lookup (run.kind, run.month) = none
  unentered : ∀ entry, .index run.kind run.month entry ∉ run.pending

def PhaseIndexed : Prop :=
  match run.phase with
  | .select => Fresh index run
  | .upload rows => Fresh index run ∧ rows ≠ [] ∧ ∀ row ∈ rows, calendar.monthOf row.timestamp = run.month
  | .enter uri rows => Fresh index run ∧ Written calendar files run.kind run.month uri rows
  | _ => True

/-- What the open transaction has entered and what it reads. -/
structure Transaction : Prop where
  entered : ∀ kind month entry, .index kind month entry ∈ run.pending →
    Filed calendar files (kind, month) entry ∧ index.lookup (kind, month) = none
  snapshot : ∀ db, run.snapshot = some db → db.index = index

def AllFiled : Prop := ∀ key entry, index.lookup key = some entry → Filed calendar files key entry

end

structure Indexed (state : State) : Prop where
  filed : AllFiled calendar state.committed.index state.files
  run : ∀ run, state.run = some run →
    Transaction calendar state.committed.index state.files run ∧
      PhaseIndexed calendar state.committed.index state.files run

variable {calendar} {index : Table (Kind × Int) IndexRow} {state later : State} {run after : Run}
  {outcome : Outcome} {files : Uri → Option (List Row)}
variable {kind : Kind} {month cutoff : Int} {uri other : Uri} {rows : List Row} {row : Row} {entry : IndexRow}
variable {key : Kind × Int}

theorem inRange_iff : inRange calendar month cutoff row = true ↔
    calendar.monthOf row.timestamp = month ∧ row.timestamp < cutoff := by
  simp only [inRange, rangeEnd, Bool.and_eq_true, decide_eq_true_eq, Int.lt_min]
  constructor
  · rintro ⟨begun, ends, older⟩
    exact ⟨calendar.monthOf_eq begun ends, older⟩
  · rintro ⟨rfl, older⟩
    obtain ⟨begun, ends⟩ := calendar.within row.timestamp
    exact ⟨begun, ends, older⟩

theorem mem_selectRows {db : Database} : row ∈ selectRows calendar db kind month cutoff ↔
    row ∈ db.messages kind ∧ inRange calendar month cutoff row = true := by
  rw [selectRows, List.mem_insertionSort, List.mem_filter]

theorem Filed.monthOf_maxTs (filed : Filed calendar files key entry) : calendar.monthOf entry.maxTs = key.2 := by
  obtain ⟨_, rows, written, summary⟩ := filed
  rw [summary, indexRow, List.getLast?_eq_some_getLast written.nonempty]
  exact written.months _ (List.getLast_mem written.nonempty)

theorem Filed.monthOf_row (filed : Filed calendar files key entry) (member : row ∈ (files entry.storageUri).getD []) :
    calendar.monthOf row.timestamp = key.2 := by
  obtain ⟨_, rows, written, _⟩ := filed
  rw [written.content, Option.getD_some] at member
  exact written.months row member

theorem Written.update (written : Written calendar files kind month uri rows)
    (apart : (kind, month) ≠ (other.kind, other.month)) {content : Option (List Row)} :
    Written calendar (Function.update files other content) kind month uri rows where
  ofKind := written.ofKind
  ofMonth := written.ofMonth
  content := by
    rw [Function.update_of_ne, written.content]
    rintro rfl
    exact apart (by rw [written.ofKind, written.ofMonth])
  nonempty := written.nonempty
  months := written.months

theorem Filed.update (filed : Filed calendar files key entry) (apart : key ≠ (other.kind, other.month))
    {content : Option (List Row)} : Filed calendar (Function.update files other content) key entry := by
  obtain ⟨archived, rows, written, summary⟩ := filed
  exact ⟨archived, rows, written.update apart, summary⟩

theorem Filed.marked (filed : Filed calendar files key entry) :
    Filed calendar files key { entry with status := .deletedSource } := by
  obtain ⟨_, rows, written, summary⟩ := filed
  exact ⟨.inr rfl, rows, written, summary⟩

theorem Transaction.filed (transaction : Transaction calendar state.committed.index files run)
    (filed : AllFiled calendar state.committed.index files) :
    AllFiled calendar (state.current run).index files :=
  forall_lookup_foldl filed (fun kind month entry member => (transaction.entered kind month entry member).1)
    (fun _ _ => Filed.marked)

/-- What `archive_partition` finds out about the partition. -/
theorem Transaction.fresh (transaction : Transaction calendar state.committed.index files run)
    (filed : AllFiled calendar state.committed.index files)
    (unarchived : archived (state.view run) run.kind run.month = false) : Fresh state.committed.index run := by
  have reads : (run.snapshot.getD state.committed).index = state.committed.index := by
    cases opened : run.snapshot with
    | none => rfl
    | some db => exact transaction.snapshot db opened
  simp only [archived, State.view] at unarchived
  generalize run.snapshot.getD state.committed = db at reads unarchived
  have absent : (run.pending.foldl Database.apply db).index.lookup (run.kind, run.month) = none := by
    cases found : (run.pending.foldl Database.apply db).index.lookup (run.kind, run.month) with
    | none => rfl
    | some entry =>
        have settled := forall_lookup_foldl (fun key entry found => (filed key entry (reads ▸ found)).1)
          (fun kind month entry member => (transaction.entered kind month entry member).1.1)
          (fun _ _ _ => .inr rfl) _ _ found
        simp only [found, decide_eq_false_iff_not] at unarchived
        exact absurd settled unarchived
  constructor
  · rw [← reads, ← Option.not_isSome_iff_eq_none]
    intro known
    have seen := @isSome_foldl _ run.pending _ known
    rw [absent] at seen
    cases seen
  · intro entry member
    have seen := @isSome_foldl_of_entered db _ _ _ _ member
    rw [absent] at seen
    cases seen

/-! ## One step -/

theorem PhaseIndexed.of_check (checks : run.phase = .check) : PhaseIndexed calendar index files run := by
  rw [PhaseIndexed, checks]
  trivial

theorem Transaction.next (transaction : Transaction calendar index files run) :
    Transaction calendar index files run.next where
  entered := by
    rw [Run.next_pending]
    exact transaction.entered
  snapshot := by
    rw [Run.next_snapshot]
    exact transaction.snapshot

/-- An empty transaction. -/
theorem Transaction.of_closed (pending : run.pending = []) (snapshot : run.snapshot = none) :
    Transaction calendar index files run where
  entered := by
    rw [pending]
    intro _ _ _ absurdly
    cases absurdly
  snapshot := by
    rw [snapshot]
    intro _ absurdly
    cases absurdly

theorem Transaction.caught (transaction : Transaction calendar index files run) :
    Transaction calendar index files (run.caught outcome) := by
  unfold Run.caught
  split
  · exact .of_closed rfl rfl
  · exact transaction.next

theorem Transaction.reading (transaction : Transaction calendar state.committed.index files run) :
    Transaction calendar state.committed.index files (state.reading run) where
  entered := transaction.entered
  snapshot := by
    intro db opened
    cases opened
    cases already : run.snapshot with
    | none => rfl
    | some db => exact transaction.snapshot db already

theorem Transaction.update (transaction : Transaction calendar index files run)
    (fresh : Fresh index run) (ofKind : uri.kind = run.kind) (ofMonth : uri.month = run.month)
    {content : Option (List Row)} :
    Transaction calendar index (Function.update files uri content) run where
  entered := by
    intro kind month entry member
    obtain ⟨filed, absent⟩ := transaction.entered kind month entry member
    refine ⟨filed.update ?_, absent⟩
    rintro same
    rw [ofKind, ofMonth] at same
    cases same
    exact fresh.unentered entry member
  snapshot := transaction.snapshot

theorem AllFiled.update (filed : AllFiled calendar index files) (fresh : Fresh index run)
    (ofKind : uri.kind = run.kind) (ofMonth : uri.month = run.month) {content : Option (List Row)} :
    AllFiled calendar index (Function.update files uri content) := by
  intro key entry found
  refine (filed key entry found).update ?_
  rintro rfl
  rw [ofKind, ofMonth, fresh.absent] at found
  cases found

/-- The file of an entry is not the one that is being written. -/
theorem AllFiled.apart (filed : AllFiled calendar index files) (fresh : Fresh index run)
    (ofKind : uri.kind = run.kind) (ofMonth : uri.month = run.month) (found : index.lookup key = some entry) :
    entry.storageUri ≠ uri := by
  rintro rfl
  obtain ⟨_, _, written, _⟩ := filed key entry found
  have absent := fresh.absent
  rw [← ofKind, ← ofMonth, written.ofKind, written.ofMonth, found] at absent
  cases absent

/-- A commit does not lose an entry. -/
theorem Transaction.lookup_current (transaction : Transaction calendar state.committed.index files run)
    (found : state.committed.index.lookup key = some entry) :
    ∃ status, (state.current run).index.lookup key = some { entry with status } := by
  refine lookup_foldl_of_some found fun other member => ?_
  rw [(transaction.entered _ _ _ member).2] at found
  cases found

theorem Indexed.of_run (same : state.run = some run)
    (filed : AllFiled calendar state.committed.index state.files)
    (transaction : Transaction calendar state.committed.index state.files run)
    (phase : PhaseIndexed calendar state.committed.index state.files run) :
    Indexed calendar state where
  filed := filed
  run := by
    intro other running
    rw [same] at running
    cases running
    exact ⟨transaction, phase⟩

theorem Indexed.idle (filed : AllFiled calendar state.committed.index state.files) (idle : state.run = none) :
    Indexed calendar state where
  filed := filed
  run := by
    rw [idle]
    intro _ absurdly
    cases absurdly

theorem Indexed.execute {statement : Statement} {onward : Phase} (indexed : Indexed calendar state)
    (running : state.run = some run) (quiet : PhaseIndexed calendar state.committed.index state.files
      { run with pending := run.pending ++ [statement], phase := onward })
    (entered : ∀ kind month entry, statement = .index kind month entry →
      Filed calendar state.files (kind, month) entry ∧ state.committed.index.lookup (kind, month) = none) :
    Indexed calendar (state.withRun (run.execute outcome statement onward)) := by
  have transaction := (indexed.run run running).1
  have extended : Transaction calendar state.committed.index state.files
      { run with pending := run.pending ++ [statement] } := by
    refine ⟨?_, transaction.snapshot⟩
    intro kind month entry member
    rcases List.mem_append.mp member with earlier | added
    · exact transaction.entered kind month entry earlier
    · exact entered kind month entry (List.mem_singleton.mp added).symm
  unfold Run.execute
  split
  · unfold Run.proceed
    split
    · exact .of_run rfl indexed.filed extended.caught (.of_check Run.caught_phase)
    · exact .of_run rfl indexed.filed ⟨extended.entered, extended.snapshot⟩ quiet
  · exact .of_run rfl indexed.filed transaction.caught (.of_check Run.caught_phase)

theorem Indexed.commit {onward : Run → Run} (indexed : Indexed calendar state) (running : state.run = some run)
    (closes : ∀ closed, (onward closed).pending = closed.pending ∧ (onward closed).snapshot = closed.snapshot)
    (quiet : ∀ closed index files, PhaseIndexed calendar index files (onward closed)) :
    Indexed calendar (state.commit run outcome onward) := by
  have transaction := (indexed.run run running).1
  unfold State.commit
  split
  · have filed := transaction.filed indexed.filed
    unfold Run.proceed
    split
    · exact .of_run rfl filed (Transaction.of_closed rfl rfl).caught (.of_check Run.caught_phase)
    · obtain ⟨pending, snapshot⟩ := closes { run with snapshot := none, pending := [] }
      exact .of_run rfl filed (.of_closed pending snapshot) (quiet _ _ _)
  · exact .of_run rfl indexed.filed transaction.caught (.of_check Run.caught_phase)

theorem Indexed.upload (indexed : Indexed calendar state) (running : state.run = some run)
    (fresh : Fresh state.committed.index run) (nonempty : rows ≠ [])
    (months : ∀ row ∈ rows, calendar.monthOf row.timestamp = run.month) :
    Indexed calendar ((state.upload run outcome rows).withRun
      (run.proceed outcome { run with phase := .enter ⟨outcome.storage, run.kind, run.month⟩ rows })) := by
  have transaction := (indexed.run run running).1
  have touched (content : Option (List Row)) : Indexed calendar
      (({ state with files := Function.update state.files ⟨outcome.storage, run.kind, run.month⟩ content } :
        State).withRun (run.caught outcome)) :=
    .of_run rfl (indexed.filed.update fresh rfl rfl) (transaction.update fresh rfl rfl).caught
      (.of_check Run.caught_phase)
  unfold State.upload Run.proceed
  split
  · split
    · exact touched (some rows)
    · have kept : Transaction calendar state.committed.index (Function.update state.files
          ⟨outcome.storage, run.kind, run.month⟩ (some rows)) run := transaction.update fresh rfl rfl
      exact .of_run rfl (indexed.filed.update fresh rfl rfl) ⟨kept.entered, kept.snapshot⟩
        ⟨⟨fresh.absent, fresh.unentered⟩, rfl, rfl, Function.update_self .., nonempty, months⟩
  · rename_i ineffective
    have raises : outcome.raises = true := by
      rw [← Bool.not_eq_false]
      exact fun done => ineffective (.inl done)
    rw [if_pos raises]
    split
    · exact touched none
    · exact .of_run rfl indexed.filed transaction.caught (.of_check Run.caught_phase)

theorem Indexed.advance (indexed : Indexed calendar state) (running : state.run = some run)
    (advanced : advance calendar state run outcome = some later) : Indexed calendar later := by
  obtain ⟨transaction, phase⟩ := indexed.run run running
  have read := transaction.reading
  unfold PhaseIndexed at phase
  cases advance_cases advanced with
  | broken => exact .idle indexed.filed rfl
  | empty => exact .of_run rfl indexed.filed ⟨transaction.entered, transaction.snapshot⟩ trivial
  | first => exact .of_run rfl indexed.filed ⟨read.entered, read.snapshot⟩ trivial
  | caught => exact .of_run rfl indexed.filed transaction.caught (.of_check Run.caught_phase)
  | skipped => exact .of_run rfl indexed.filed read.next (.of_check Run.next_phase)
  | checked at_phase unarchived =>
      have fresh := transaction.fresh indexed.filed unarchived
      exact .of_run rfl indexed.filed ⟨read.entered, read.snapshot⟩ ⟨fresh.absent, fresh.unentered⟩
  | selected at_phase nonempty =>
      simp only [at_phase] at phase
      refine .of_run rfl indexed.filed ⟨read.entered, read.snapshot⟩ ⟨⟨phase.absent, phase.unentered⟩, nonempty, ?_⟩
      intro row member
      exact (inRange_iff.mp (mem_selectRows.mp member).2).1
  | uploaded rows at_phase =>
      simp only [at_phase] at phase
      exact indexed.upload running phase.1 phase.2.1 phase.2.2
  | entered uri rows at_phase =>
      simp only [at_phase] at phase
      obtain ⟨fresh, written⟩ := phase
      refine indexed.execute running trivial ?_
      intro kind month entry same
      cases same
      exact ⟨⟨.inl rfl, rows, written, rfl⟩, fresh.absent⟩
  | committedIndex =>
      refine indexed.commit running ?_ ?_
      · intro closed
        split
        · exact ⟨rfl, rfl⟩
        · exact ⟨Run.next_pending, Run.next_snapshot⟩
      · intro closed index files
        split
        · trivial
        · exact .of_check Run.next_phase
  | deleted => exact indexed.execute running trivial (fun _ _ _ absurdly => by cases absurdly)
  | markedDeleted => exact indexed.execute running trivial (fun _ _ _ absurdly => by cases absurdly)
  | committedDelete =>
      exact indexed.commit running (fun closed => ⟨Run.next_pending, Run.next_snapshot⟩)
        (fun closed _ _ => .of_check Run.next_phase)

theorem Indexed.step {event : Event} (indexed : Indexed calendar state)
    (stepped : (machine calendar).step state event = some later) : Indexed calendar later := by
  cases event with
  | begin cutoff deleteAfterVerify =>
      obtain ⟨_, rfl⟩ := begins_of_step stepped
      exact .of_run rfl indexed.filed (.of_closed rfl rfl) trivial
  | advance outcome =>
      obtain ⟨run, running, advanced⟩ := advances_of_step stepped
      exact indexed.advance running advanced
  | finish =>
      obtain ⟨_, _, _, rfl⟩ := finishes_of_step stepped
      exact .idle indexed.filed rfl
  | crash =>
      cases stepped
      exact .idle indexed.filed rfl
  | insert kind row =>
      obtain ⟨_, rfl⟩ := inserts_of_step stepped
      exact ⟨indexed.filed, indexed.run⟩
  | update kind id content recalled =>
      obtain ⟨_, rfl⟩ := updates_of_step stepped
      exact ⟨indexed.filed, indexed.run⟩

theorem indexed_init : Indexed calendar {} :=
  .idle (fun _ _ absurdly => by cases absurdly) rfl

/-! ## What is in the index stays -/

/-- Every entry is still there, perhaps with another status, and so is its file. -/
def Extends (state later : State) : Prop :=
  ∀ key entry, state.committed.index.lookup key = some entry →
    (∃ status, later.committed.index.lookup key = some { entry with status }) ∧
      later.files entry.storageUri = state.files entry.storageUri

theorem Extends.of_same (committed : later.committed.index = state.committed.index) (files : later.files = state.files) :
    Extends state later := by
  intro key entry found
  rw [committed, files]
  exact ⟨⟨entry.status, found⟩, rfl⟩

theorem State.upload_files (outcome : Outcome) : (state.upload run outcome rows).files = state.files ∨
    ∃ content, (state.upload run outcome rows).files =
      Function.update state.files ⟨outcome.storage, run.kind, run.month⟩ content := by
  unfold State.upload
  split
  · exact .inr ⟨_, rfl⟩
  · split
    · exact .inr ⟨_, rfl⟩
    · exact .inl rfl

/-- A commit takes effect, or is caught. -/
theorem commit_effect {onward : Run → Run} :
    ((state.commit run outcome onward).committed = state.committed ∧
        (state.commit run outcome onward).files = state.files) ∨
      ((state.commit run outcome onward).committed = state.current run ∧
        (state.commit run outcome onward).files = state.files) := by
  unfold State.commit
  split
  · exact .inr ⟨rfl, rfl⟩
  · exact .inl ⟨rfl, rfl⟩

/-- An operation is an upload, a commit, or leaves the database and the files alone. -/
theorem advance_effect (advanced : advance calendar state run outcome = some later) :
    (later.committed = state.committed ∧ later.files = state.files) ∨
    (∃ rows, run.phase = .upload rows ∧ later.committed = state.committed ∧
      later.files = (state.upload run outcome rows).files) ∨
    (later.committed = state.current run ∧ later.files = state.files) := by
  cases advance_cases advanced with
  | uploaded rows at_phase => exact .inr (.inl ⟨rows, at_phase, State.upload_committed, rfl⟩)
  | committedIndex => exact commit_effect.imp_right .inr
  | committedDelete => exact commit_effect.imp_right .inr
  | broken | empty | first | caught | skipped | checked | selected | entered | deleted | markedDeleted =>
      exact .inl ⟨rfl, rfl⟩

theorem Indexed.extends {event : Event} (indexed : Indexed calendar state)
    (stepped : (machine calendar).step state event = some later) : Extends state later := by
  cases event with
  | advance outcome =>
      obtain ⟨run, running, advanced⟩ := advances_of_step stepped
      obtain ⟨transaction, phase⟩ := indexed.run run running
      rcases advance_effect advanced with ⟨committed, files⟩ | ⟨rows, at_phase, committed, files⟩ | ⟨committed, files⟩
      · exact .of_same (by rw [committed]) files
      · rw [PhaseIndexed, at_phase] at phase
        rcases State.upload_files outcome with same | ⟨content, same⟩
        · exact .of_same (by rw [committed]) (files.trans same)
        · intro key entry found
          rw [committed, files, same, Function.update_of_ne (indexed.filed.apart phase.1 rfl rfl found)]
          exact ⟨⟨entry.status, found⟩, rfl⟩
      · intro key entry found
        rw [committed, files]
        exact ⟨transaction.lookup_current found, rfl⟩
  | begin cutoff deleteAfterVerify =>
      obtain ⟨_, rfl⟩ := begins_of_step stepped
      exact .of_same rfl rfl
  | finish =>
      obtain ⟨_, _, _, rfl⟩ := finishes_of_step stepped
      exact .of_same rfl rfl
  | crash =>
      cases stepped
      exact .of_same rfl rfl
  | insert kind row =>
      obtain ⟨_, rfl⟩ := inserts_of_step stepped
      exact .of_same rfl rfl
  | update kind id content recalled =>
      obtain ⟨_, rfl⟩ := updates_of_step stepped
      exact .of_same rfl rfl

end MuduoIm.Tools.ArchiveWorker
