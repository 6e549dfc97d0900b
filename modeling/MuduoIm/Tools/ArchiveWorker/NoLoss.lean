import MuduoIm.Tools.ArchiveWorker.Index

namespace MuduoIm.Tools.ArchiveWorker

open MuduoIm.Data MuduoIm.Transition

/-! # Archiving loses no message

A row is only deleted when its file has been entered in the index, by a commit
that came before the deletion.
-/

section

variable (calendar : Calendar) (index : Table (Kind × Int) IndexRow) (files : Uri → Option (List Row))

/-- The file of the partition holds the row as it is. -/
def InFile (kind : Kind) (row : Row) : Prop :=
  ∃ entry, index.lookup (kind, calendar.monthOf row.timestamp) = some entry ∧
    ∃ rows, files entry.storageUri = some rows ∧ row ∈ rows

def NoLoss (state : State) : Prop :=
  ∀ kind, ∀ row ∈ state.stored kind, row ∈ state.committed.messages kind ∨
    InFile calendar state.committed.index state.files kind row

/-- Nobody else writes to rows older than the cutoff of a run. -/
def WritesRecent (state : State) : Event → Prop
  | .insert _ row => ∀ run, state.run = some run → run.cutoff ≤ row.timestamp
  | .update kind id _ _ => ∀ run, state.run = some run →
      ∀ row ∈ state.committed.messages kind, row.id = id → run.cutoff ≤ row.timestamp
  | _ => True

def Covers (messages : Tables) (run : Run) (rows : List Row) : Prop :=
  ∀ row ∈ messages run.kind, inRange calendar run.month run.cutoff row = true → row ∈ rows

def PhaseKept (messages : Tables) (run : Run) : Prop :=
  match run.phase with
  | .upload rows => Covers calendar messages run rows
  | .enter _ rows => Covers calendar messages run rows
  | .commitIndex => ∃ earlier entry rows, run.pending = earlier ++ [.index run.kind run.month entry] ∧
      files entry.storageUri = some rows ∧ Covers calendar messages run rows
  | .delete => ∀ row ∈ messages run.kind, inRange calendar run.month run.cutoff row = true →
      InFile calendar index files run.kind row
  | _ => True

/-- What the open transaction has deleted and what it reads. -/
structure Cautious (messages stored : Tables) (run : Run) : Prop where
  deleted : ∀ kind ids, .delete kind ids ∈ run.pending → ∀ id ∈ ids, ∃ row ∈ stored kind,
    row.id = id ∧ row.timestamp < run.cutoff ∧ InFile calendar index files kind row
  snapshot : ∀ db, run.snapshot = some db → ∀ kind row, row.timestamp < run.cutoff →
    (row ∈ db.messages kind ↔ row ∈ messages kind)

end

variable (calendar : Calendar)

structure Kept (state : State) : Prop where
  listed : ∀ kind, ∀ row ∈ state.committed.messages kind, row ∈ state.stored kind
  unique : Unique Row.id state.stored
  noLoss : NoLoss calendar state
  run : ∀ run, state.run = some run →
    Cautious calendar state.committed.index state.files state.committed.messages state.stored run ∧
      PhaseKept calendar state.committed.index state.files state.committed.messages run

variable {calendar} {index : Table (Kind × Int) IndexRow} {files : Uri → Option (List Row)}
variable {state later : State} {run : Run} {outcome : Outcome} {kind : Kind} {row : Row} {rows : List Row}
variable {messages stored : Tables} {uri : Uri} {content : Option (List Row)}

theorem InFile.update (inFile : InFile calendar index files kind row) (filed : AllFiled calendar index files)
    (fresh : Fresh index run) (ofKind : uri.kind = run.kind) (ofMonth : uri.month = run.month) :
    InFile calendar index (Function.update files uri content) kind row := by
  obtain ⟨entry, found, rows, stored, member⟩ := inFile
  refine ⟨entry, found, rows, ?_, member⟩
  rw [Function.update_of_ne (filed.apart fresh ofKind ofMonth found), stored]

theorem InFile.current (inFile : InFile calendar state.committed.index files kind row)
    (transaction : Transaction calendar state.committed.index files run) :
    InFile calendar (state.current run).index files kind row := by
  obtain ⟨entry, found, stored⟩ := inFile
  obtain ⟨status, kept⟩ := transaction.lookup_current found
  exact ⟨_, kept, stored⟩

/-- Everything that the transaction deletes is in a file. -/
theorem Kept.current (kept : Kept calendar state) (running : state.run = some run)
    (transaction : Transaction calendar state.committed.index state.files run) :
    ∀ kind, ∀ row ∈ state.stored kind, row ∈ (state.current run).messages kind ∨
      InFile calendar (state.current run).index state.files kind row := by
  intro kind row stored
  rcases kept.noLoss kind row stored with member | inFile
  · by_cases deleted : ∃ ids, .delete kind ids ∈ run.pending ∧ row.id ∈ ids
    · obtain ⟨ids, executed, listed⟩ := deleted
      obtain ⟨other, held, same, _, inFile⟩ := (kept.run run running).1.deleted kind ids executed row.id listed
      rw [kept.unique kind row stored other held same] at inFile
      exact .inr (inFile.current transaction)
    · refine .inl (mem_foldl.mpr ⟨member, fun ids executed listed => deleted ⟨ids, executed, listed⟩⟩)
  · exact .inr (inFile.current transaction)

/-! ## One step of the worker -/

theorem PhaseKept.of_check (checks : run.phase = .check) : PhaseKept calendar index files messages run := by
  rw [PhaseKept, checks]
  trivial

theorem Cautious.next (cautious : Cautious calendar index files messages stored run) :
    Cautious calendar index files messages stored run.next where
  deleted := by
    rw [Run.next_pending, Run.next_cutoff]
    exact cautious.deleted
  snapshot := by
    rw [Run.next_snapshot, Run.next_cutoff]
    exact cautious.snapshot

theorem Cautious.of_closed (pending : run.pending = []) (snapshot : run.snapshot = none) :
    Cautious calendar index files messages stored run where
  deleted := by
    rw [pending]
    intro _ _ absurdly
    cases absurdly
  snapshot := by
    rw [snapshot]
    intro _ absurdly
    cases absurdly

theorem Cautious.caught (cautious : Cautious calendar index files messages stored run) :
    Cautious calendar index files messages stored (run.caught outcome) := by
  unfold Run.caught
  split
  · exact .of_closed rfl rfl
  · exact cautious.next

theorem Cautious.reading
    (cautious : Cautious calendar index files state.committed.messages stored run) :
    Cautious calendar index files state.committed.messages stored (state.reading run) where
  deleted := cautious.deleted
  snapshot := by
    intro db opened
    cases opened
    cases already : run.snapshot with
    | none => exact fun _ _ _ => Iff.rfl
    | some db => exact cautious.snapshot db already

theorem Kept.withRun (kept : Kept calendar state)
    (cautious : Cautious calendar state.committed.index state.files state.committed.messages state.stored run)
    (phase : PhaseKept calendar state.committed.index state.files state.committed.messages run) :
    Kept calendar (state.withRun run) where
  listed := kept.listed
  unique := kept.unique
  noLoss := kept.noLoss
  run := by
    intro other running
    cases running
    exact ⟨cautious, phase⟩

theorem Kept.idle (kept : Kept calendar state) : Kept calendar { state with run := none } where
  listed := kept.listed
  unique := kept.unique
  noLoss := kept.noLoss
  run := by
    intro _ absurdly
    cases absurdly

theorem Kept.execute {statement : Statement} {onward : Phase} (kept : Kept calendar state)
    (running : state.run = some run)
    (quiet : PhaseKept calendar state.committed.index state.files state.committed.messages
      { run with pending := run.pending ++ [statement], phase := onward })
    (deleted : ∀ kind ids, statement = .delete kind ids → ∀ id ∈ ids, ∃ row ∈ state.stored kind,
      row.id = id ∧ row.timestamp < run.cutoff ∧ InFile calendar state.committed.index state.files kind row) :
    Kept calendar (state.withRun (run.execute outcome statement onward)) := by
  have cautious := (kept.run run running).1
  have extended : Cautious calendar state.committed.index state.files state.committed.messages state.stored
      { run with pending := run.pending ++ [statement] } := by
    refine ⟨?_, cautious.snapshot⟩
    intro kind ids member
    rcases List.mem_append.mp member with earlier | added
    · exact cautious.deleted kind ids earlier
    · exact deleted kind ids (List.mem_singleton.mp added).symm
  unfold Run.execute
  split
  · unfold Run.proceed
    split
    · exact kept.withRun extended.caught (.of_check Run.caught_phase)
    · exact kept.withRun ⟨extended.deleted, extended.snapshot⟩ quiet
  · exact kept.withRun cautious.caught (.of_check Run.caught_phase)

theorem Kept.commit {onward : Run → Run} (kept : Kept calendar state) (running : state.run = some run)
    (transaction : Transaction calendar state.committed.index state.files run)
    (closes : ∀ closed, (onward closed).pending = closed.pending ∧ (onward closed).snapshot = closed.snapshot)
    (quiet : PhaseKept calendar (state.current run).index state.files (state.current run).messages
      (onward { run with snapshot := none, pending := [] })) :
    Kept calendar (state.commit run outcome onward) := by
  unfold State.commit
  split
  · have noLoss := kept.current running transaction
    have listed : ∀ kind, ∀ row ∈ (state.current run).messages kind, row ∈ state.stored kind :=
      fun kind row member => kept.listed kind row (mem_foldl.mp member).1
    unfold Run.proceed
    split
    · refine ⟨listed, kept.unique, noLoss, ?_⟩
      intro other same
      cases same
      exact ⟨(Cautious.of_closed rfl rfl).caught, .of_check Run.caught_phase⟩
    · obtain ⟨pending, snapshot⟩ := closes { run with snapshot := none, pending := [] }
      refine ⟨listed, kept.unique, noLoss, ?_⟩
      intro other same
      cases same
      exact ⟨.of_closed pending snapshot, quiet⟩
  · exact kept.withRun (kept.run run running).1.caught (.of_check Run.caught_phase)

theorem Kept.upload (kept : Kept calendar state) (running : state.run = some run)
    (filed : AllFiled calendar state.committed.index state.files) (fresh : Fresh state.committed.index run)
    (covers : Covers calendar state.committed.messages run rows) :
    Kept calendar ((state.upload run outcome rows).withRun
      (run.proceed outcome { run with phase := .enter ⟨outcome.storage, run.kind, run.month⟩ rows })) := by
  have cautious := (kept.run run running).1
  have touched (content : Option (List Row)) : Kept calendar ({ state with
      files := Function.update state.files ⟨outcome.storage, run.kind, run.month⟩ content
      run := none } : State) := by
    refine ⟨kept.listed, kept.unique, ?_, fun _ absurdly => by cases absurdly⟩
    intro kind row stored
    exact (kept.noLoss kind row stored).imp_right fun inFile => inFile.update filed fresh rfl rfl
  have careful (content : Option (List Row)) : Cautious calendar state.committed.index
      (Function.update state.files ⟨outcome.storage, run.kind, run.month⟩ content)
      state.committed.messages state.stored run := by
    refine ⟨?_, cautious.snapshot⟩
    intro kind ids member id listed
    obtain ⟨row, stored, same, older, inFile⟩ := cautious.deleted kind ids member id listed
    exact ⟨row, stored, same, older, inFile.update filed fresh rfl rfl⟩
  unfold State.upload Run.proceed
  split
  · split
    · exact (touched (some rows)).withRun (careful _).caught (.of_check Run.caught_phase)
    · exact (touched (some rows)).withRun ⟨(careful _).deleted, cautious.snapshot⟩ covers
  · rename_i ineffective
    have raises : outcome.raises = true := by
      rw [← Bool.not_eq_false]
      exact fun done => ineffective (.inl done)
    rw [if_pos raises]
    split
    · exact (touched none).withRun (careful _).caught (.of_check Run.caught_phase)
    · exact kept.withRun cautious.caught (.of_check Run.caught_phase)

/-- The rows of the partition that the worker reads are those that are there:
what the transaction has deleted is in other partitions. -/
theorem Kept.covers_selectRows (kept : Kept calendar state) (running : state.run = some run)
    (fresh : Fresh state.committed.index run) :
    Covers calendar state.committed.messages run
      (selectRows calendar (state.view run) run.kind run.month run.cutoff) := by
  intro row member within
  obtain ⟨ofMonth, older⟩ := inRange_iff.mp within
  have cautious := (kept.run run running).1
  refine mem_selectRows.mpr ⟨mem_foldl.mpr ⟨?_, ?_⟩, within⟩
  · cases opened : run.snapshot with
    | none => exact member
    | some db => exact (cautious.snapshot db opened run.kind row older).mpr member
  · intro ids executed listed
    obtain ⟨other, stored, same, _, entry, found, _⟩ := cautious.deleted run.kind ids executed row.id listed
    rw [kept.unique run.kind row (kept.listed _ row member) other stored same, ofMonth, fresh.absent] at found
    cases found

theorem Kept.advance (kept : Kept calendar state) (indexed : Indexed calendar state)
    (running : state.run = some run) (advanced : advance calendar state run outcome = some later) :
    Kept calendar later := by
  obtain ⟨cautious, phase⟩ := kept.run run running
  obtain ⟨transaction, phaseIndexed⟩ := indexed.run run running
  have read := cautious.reading
  unfold PhaseKept at phase
  unfold PhaseIndexed at phaseIndexed
  cases advance_cases advanced with
  | broken => exact kept.idle
  | empty => exact kept.withRun ⟨cautious.deleted, cautious.snapshot⟩ trivial
  | first => exact kept.withRun ⟨read.deleted, read.snapshot⟩ trivial
  | caught => exact kept.withRun cautious.caught (.of_check Run.caught_phase)
  | skipped => exact kept.withRun read.next (.of_check Run.next_phase)
  | checked => exact kept.withRun ⟨read.deleted, read.snapshot⟩ trivial
  | selected at_phase =>
      simp only [at_phase] at phaseIndexed
      have covers := kept.covers_selectRows running phaseIndexed
      exact kept.withRun ⟨read.deleted, read.snapshot⟩ covers
  | uploaded rows at_phase =>
      simp only [at_phase] at phase phaseIndexed
      exact kept.upload running indexed.filed phaseIndexed.1 phase
  | entered uri rows at_phase =>
      simp only [at_phase] at phase phaseIndexed
      refine kept.execute running ?_ (fun _ _ absurdly => by cases absurdly)
      exact ⟨run.pending, _, rows, rfl, phaseIndexed.2.content, phase⟩
  | committedIndex at_phase =>
      simp only [at_phase] at phase
      refine kept.commit running transaction ?_ ?_
      · intro closed
        split
        · exact ⟨rfl, rfl⟩
        · exact ⟨Run.next_pending, Run.next_snapshot⟩
      · obtain ⟨earlier, entry, rows, pending, content, covers⟩ := phase
        split
        · intro row member within
          refine ⟨entry, ?_, rows, content, covers row (mem_foldl.mp member).1 within⟩
          rw [(inRange_iff.mp within).1, State.current, pending]
          exact lookup_concat
        · exact .of_check Run.next_phase
  | deleted at_phase =>
      simp only [at_phase] at phase
      refine kept.execute running trivial ?_
      intro kind ids same id listed
      cases same
      obtain ⟨row, chosen, rfl⟩ := List.mem_map.mp listed
      obtain ⟨member, within⟩ := List.mem_filter.mp chosen
      have member := (mem_foldl.mp member).1
      exact ⟨row, kept.listed _ row member, rfl, (inRange_iff.mp within).2, phase row member within⟩
  | markedDeleted => exact kept.execute running trivial (fun _ _ absurdly => by cases absurdly)
  | committedDelete =>
      exact kept.commit running transaction (fun closed => ⟨Run.next_pending, Run.next_snapshot⟩)
        (.of_check Run.next_phase)

/-! ## Other writers -/

theorem mem_insert_of_recent {tables : Tables} {added : Row} {other : Kind} {cutoff : Int}
    (recent : cutoff ≤ added.timestamp) (older : row.timestamp < cutoff) :
    row ∈ tables.insert kind added other ↔ row ∈ tables other := by
  refine mem_insert.trans (or_iff_left ?_)
  rintro ⟨_, rfl⟩
  omega

theorem mem_update_of_recent {tables : Tables} {id : Nat} {text : String} {recalled : Bool} {other : Kind}
    {cutoff : Int} (recent : ∀ row ∈ tables kind, row.id = id → cutoff ≤ row.timestamp)
    (older : row.timestamp < cutoff) : row ∈ tables.update kind id text recalled other ↔ row ∈ tables other := by
  rw [mem_update]
  split
  · rename_i same
    subst same
    constructor
    · rintro ⟨earlier, was, rfl⟩
      rw [rewrite_timestamp] at older
      rw [rewrite_of_ne fun updated => absurd (recent earlier was updated) (by omega)]
      exact was
    · intro member
      exact ⟨row, member, rewrite_of_ne fun updated => absurd (recent row member updated) (by omega)⟩
  · exact Iff.rfl

/-- A change that leaves the rows older than the cutoff alone. -/
theorem PhaseKept.of_agree {changed : Tables} (phase : PhaseKept calendar index files messages run)
    (agree : ∀ kind row, row.timestamp < run.cutoff → (row ∈ changed kind ↔ row ∈ messages kind)) :
    PhaseKept calendar index files changed run := by
  have covers {rows : List Row} (covers : Covers calendar messages run rows) : Covers calendar changed run rows :=
    fun row member within =>
      covers row ((agree run.kind row (inRange_iff.mp within).2).mp member) within
  unfold PhaseKept at phase ⊢
  split at phase
  · exact covers phase
  · exact covers phase
  · obtain ⟨earlier, entry, rows, pending, content, covered⟩ := phase
    exact ⟨earlier, entry, rows, pending, content, covers covered⟩
  · exact fun row member within =>
      phase row ((agree run.kind row (inRange_iff.mp within).2).mp member) within
  · trivial

theorem Cautious.of_agree {changed held : Tables} (cautious : Cautious calendar index files messages stored run)
    (agree : ∀ kind row, row.timestamp < run.cutoff → (row ∈ changed kind ↔ row ∈ messages kind))
    (keeps : ∀ kind row, row.timestamp < run.cutoff → row ∈ stored kind → row ∈ held kind) :
    Cautious calendar index files changed held run where
  deleted := by
    intro kind ids member id listed
    obtain ⟨row, stored, same, older, inFile⟩ := cautious.deleted kind ids member id listed
    exact ⟨row, keeps kind row older stored, same, older, inFile⟩
  snapshot := by
    intro db opened kind row older
    rw [cautious.snapshot db opened kind row older, agree kind row older]

theorem Kept.insert (kept : Kept calendar state)
    (fresh : ∀ other ∈ state.stored kind, other.id ≠ row.id)
    (recent : ∀ run, state.run = some run → run.cutoff ≤ row.timestamp) :
    Kept calendar { state with
      committed := { state.committed with messages := state.committed.messages.insert kind row }
      stored := state.stored.insert kind row } where
  listed := by
    intro other held member
    rw [mem_insert] at member ⊢
    exact member.imp_left (kept.listed other held)
  unique := kept.unique.insert fresh
  noLoss := by
    intro other held stored
    rcases mem_insert.mp stored with earlier | added
    · exact (kept.noLoss other held earlier).imp_left fun member => mem_insert.mpr (.inl member)
    · exact .inl (mem_insert.mpr (.inr added))
  run := by
    intro run running
    obtain ⟨cautious, phase⟩ := kept.run run running
    have agree (other : Kind) (held : Row) (older : held.timestamp < run.cutoff) :
        held ∈ state.committed.messages.insert kind row other ↔ held ∈ state.committed.messages other :=
      mem_insert_of_recent (recent run running) older
    exact ⟨cautious.of_agree agree fun other held _ stored => mem_insert.mpr (.inl stored), phase.of_agree agree⟩

/-- The server updates the row with the id, which is the message that has it. -/
theorem Kept.update {id : Nat} {text : String} {recalled : Bool} (kept : Kept calendar state)
    (present : ∃ row ∈ state.committed.messages kind, row.id = id)
    (recent : ∀ run, state.run = some run →
      ∀ row ∈ state.committed.messages kind, row.id = id → run.cutoff ≤ row.timestamp) :
    Kept calendar { state with
      committed := { state.committed with messages := state.committed.messages.update kind id text recalled }
      stored := state.stored.update kind id text recalled } := by
  obtain ⟨target, listed, named⟩ := present
  -- a message with the id is in the table, so the update reaches it there too
  have found {row : Row} (stored : row ∈ state.stored kind) (same : row.id = id) : row = target :=
    kept.unique kind target (kept.listed kind target listed) row stored (same.trans named.symm)
  constructor
  · intro other row member
    rw [mem_update] at member ⊢
    split at member
    · rename_i same
      obtain ⟨earlier, was, rewritten⟩ := member
      rw [if_pos same]
      exact ⟨earlier, kept.listed other earlier was, rewritten⟩
    · rename_i apart
      rw [if_neg apart]
      exact kept.listed other row member
  · exact kept.unique.update fun _ => rewrite_id
  · intro other row stored
    simp only [mem_update]
    rw [mem_update] at stored
    split at stored
    · rename_i same
      subst same
      obtain ⟨earlier, was, rfl⟩ := stored
      rw [if_pos rfl]
      by_cases updated : earlier.id = id
      · refine .inl ⟨earlier, ?_, rfl⟩
        rw [found was updated]
        exact listed
      · rw [rewrite_of_ne updated]
        exact (kept.noLoss other earlier was).imp_left fun member => ⟨earlier, member, rewrite_of_ne updated⟩
    · rename_i apart
      rw [if_neg apart]
      exact kept.noLoss other row stored
  · intro run running
    obtain ⟨cautious, phase⟩ := kept.run run running
    have stored : ∀ row ∈ state.stored kind, row.id = id → run.cutoff ≤ row.timestamp := by
      intro row held same
      rw [found held same]
      exact recent run running target listed named
    have agree (other : Kind) (row : Row) (older : row.timestamp < run.cutoff) :
        row ∈ state.committed.messages.update kind id text recalled other ↔ row ∈ state.committed.messages other :=
      mem_update_of_recent (recent run running) older
    exact ⟨cautious.of_agree agree fun other row older => (mem_update_of_recent stored older).mpr,
      phase.of_agree agree⟩

theorem Kept.step {event : Event} (kept : Kept calendar state) (indexed : Indexed calendar state)
    (allowed : WritesRecent state event) (stepped : (machine calendar).step state event = some later) :
    Kept calendar later := by
  cases event with
  | begin cutoff deleteAfterVerify =>
      obtain ⟨_, rfl⟩ := begins_of_step stepped
      exact kept.withRun (.of_closed rfl rfl) trivial
  | advance outcome =>
      obtain ⟨run, running, advanced⟩ := advances_of_step stepped
      exact kept.advance indexed running advanced
  | finish =>
      obtain ⟨_, _, _, rfl⟩ := finishes_of_step stepped
      exact kept.idle
  | crash =>
      cases stepped
      exact kept.idle
  | insert kind row =>
      obtain ⟨fresh, rfl⟩ := inserts_of_step stepped
      exact kept.insert (fun other stored => (fresh other stored).1) allowed
  | update kind id content recalled =>
      obtain ⟨present, rfl⟩ := updates_of_step stepped
      exact kept.update present allowed

theorem kept_init : Kept calendar {} where
  listed := fun _ _ absurdly => by cases absurdly
  unique := fun _ _ absurdly => by cases absurdly
  noLoss := fun _ _ absurdly => by cases absurdly
  run := fun _ absurdly => by cases absurdly

theorem always_kept {events : List Event} (met : (machine calendar).Meets WritesRecent {} events) :
    (machine calendar).Always (fun state => Indexed calendar state ∧ Kept calendar state) {} events := by
  refine Machine.always_of_meets _ ⟨indexed_init, kept_init⟩ ?_ met
  intro state event later ⟨indexed, kept⟩ allowed stepped
  exact ⟨indexed.step stepped, kept.step indexed allowed stepped⟩

/-- The runs have any cutoffs, any operation of a run may raise, and a run may
crash before any of its operations. -/
theorem archiving_loses_nothing {events : List Event} (met : (machine calendar).Meets WritesRecent {} events) :
    (machine calendar).Always (NoLoss calendar) {} events :=
  (always_kept met).mono fun _ held => held.2.noLoss

theorem archiving_loses_nothing_greeting : ∃ after,
    (machine thirtyDays).run {} ([.insert .privateChat greeting, .begin 5000 true] ++
      List.replicate 9 (.advance {})) = some after ∧
    after.committed.messages .privateChat = [] ∧ NoLoss thirtyDays after := by
  have quiet {state : State} : (machine thirtyDays).Meets WritesRecent state
      (.begin 5000 true :: List.replicate 9 (.advance {})) := Machine.meets_of_forall (by simp [WritesRecent])
  have met : (machine thirtyDays).Meets WritesRecent {}
      (.insert .privateChat greeting :: .begin 5000 true :: List.replicate 9 (.advance {})) := by
    refine fun _ _ => ⟨?_, quiet⟩
    intro run absurdly
    cases absurdly
  exact ⟨_, rfl, rfl, (archiving_loses_nothing met).atEnd rfl⟩

end MuduoIm.Tools.ArchiveWorker
