import MuduoIm.Tools.ArchiveWorker.Index

namespace MuduoIm.Tools.ArchiveWorker

open MuduoIm.Data MuduoIm.Transition

/-! # The copies that the archive worker makes

Besides the table, a row may be in a file, among the rows that are about to be
written to one, or in the snapshot of the open transaction, from which a later
partition takes it.  An update of the table reaches none of these.
-/

inductive Held (state : State) (kind : Kind) (row : Row) : Prop where
  | file (uri : Uri) (rows : List Row) (written : state.files uri = some rows) (ofKind : uri.kind = kind)
      (member : row ∈ rows)
  | selected (run : Run) (rows : List Row) (running : state.run = some run) (uploading : run.phase = .upload rows)
      (ofKind : run.kind = kind) (member : row ∈ rows)
  | snapshot (run : Run) (db : Database) (running : state.run = some run) (opened : run.snapshot = some db)
      (older : row.timestamp < run.cutoff) (member : row ∈ db.messages kind)

/-- `stored` has every message of the tables, and the keys tell them apart. -/
structure Recorded (state : State) : Prop where
  listed : ∀ kind, ∀ row ∈ state.committed.messages kind, row ∈ state.stored kind
  ids : Unique Row.id state.stored
  msgIds : Unique Row.msgId state.stored

variable {calendar : Calendar} {state later : State} {run after : Run} {outcome : Outcome} {kind : Kind}
variable {row : Row} {rows found : List Row} {uri : Uri}

/-- What a run takes over into its next operation: a snapshot is opened on what
is committed, and rows to upload come from a SELECT. -/
structure Continues (calendar : Calendar) (state : State) (run after : Run) : Prop where
  cutoff : after.cutoff = run.cutoff
  snapshot : ∀ db, after.snapshot = some db → db = run.snapshot.getD state.committed
  selected : ∀ rows, after.phase = .upload rows →
    after.kind = run.kind ∧ rows = selectRows calendar (state.view run) run.kind run.month run.cutoff

namespace Continues

theorem of_quiet (cutoff : after.cutoff = run.cutoff)
    (snapshot : after.snapshot = none ∨ after.snapshot = run.snapshot ∨
      after.snapshot = some (run.snapshot.getD state.committed))
    (quiet : ∀ rows, after.phase ≠ .upload rows) : Continues calendar state run after where
  cutoff := cutoff
  snapshot := by
    intro db opened
    rcases snapshot with closed | same | read
    · rw [closed] at opened
      cases opened
    · rw [← same, opened]
      rfl
    · rw [read] at opened
      cases opened
      rfl
  selected := fun rows uploading => absurd uploading (quiet rows)

theorem caught {executed : Run} (cutoff : executed.cutoff = run.cutoff) (snapshot : executed.snapshot = run.snapshot) :
    Continues calendar state run (executed.caught outcome) := by
  refine of_quiet (Run.caught_cutoff.trans cutoff) ?_ fun rows uploading => by
    rw [Run.caught_phase] at uploading; cases uploading
  unfold Run.caught
  split
  · exact .inl rfl
  · exact .inr (.inl (Run.next_snapshot.trans snapshot))

theorem next {read : Run} (cutoff : read.cutoff = run.cutoff)
    (snapshot : read.snapshot = none ∨ read.snapshot = run.snapshot ∨
      read.snapshot = some (run.snapshot.getD state.committed)) : Continues calendar state run read.next := by
  refine of_quiet (Run.next_cutoff.trans cutoff) ?_ fun rows uploading => by
    rw [Run.next_phase] at uploading; cases uploading
  rw [Run.next_snapshot]
  exact snapshot

theorem execute {statement : Statement} {phase : Phase} (quiet : ∀ rows, phase ≠ .upload rows) :
    Continues calendar state run (run.execute outcome statement phase) := by
  unfold Run.execute
  split
  · unfold Run.proceed
    split
    · exact caught rfl rfl
    · exact of_quiet rfl (.inr (.inl rfl)) quiet
  · exact caught rfl rfl

theorem commit {onward : Run → Run}
    (onwards : ∀ closed : Run, closed.cutoff = run.cutoff → closed.snapshot = none →
      Continues calendar state run (onward closed)) (committed : (state.commit run outcome onward).run = some after) :
    Continues calendar state run after := by
  unfold State.commit at committed
  split at committed
  · cases committed
    unfold Run.proceed
    split
    · refine of_quiet Run.caught_cutoff (.inl ?_) fun rows uploading => by
        rw [Run.caught_phase] at uploading; cases uploading
      unfold Run.caught
      split
      · rfl
      · exact Run.next_snapshot
    · exact onwards _ rfl rfl
  · cases committed
    exact caught rfl rfl

end Continues

theorem advance_run (advanced : advance calendar state run outcome = some later) (running : later.run = some after) :
    Continues calendar state run after := by
  cases advance_cases advanced with
  | broken => cases running
  | empty =>
      cases running
      exact .of_quiet rfl (.inr (.inl rfl)) nofun
  | first =>
      cases running
      exact .of_quiet rfl (.inr (.inr rfl)) nofun
  | caught =>
      cases running
      exact .caught rfl rfl
  | skipped =>
      cases running
      exact .next rfl (.inr (.inr rfl))
  | checked =>
      cases running
      exact .of_quiet rfl (.inr (.inr rfl)) nofun
  | selected =>
      cases running
      refine ⟨rfl, fun db opened => ?_, fun rows uploading => ?_⟩
      · cases opened
        rfl
      · cases uploading
        exact ⟨rfl, rfl⟩
  | uploaded rows =>
      cases running
      unfold Run.proceed
      split
      · exact .caught rfl rfl
      · exact .of_quiet rfl (.inr (.inl rfl)) nofun
  | committedIndex =>
      refine .commit (fun closed cutoff snapshot => ?_) running
      split
      · exact .of_quiet cutoff (.inl snapshot) nofun
      · exact .next cutoff (.inl snapshot)
  | entered | deleted | markedDeleted =>
      cases running
      exact .execute nofun
  | committedDelete => exact .commit (fun closed cutoff snapshot => .next cutoff (.inl snapshot)) running

theorem upload_file (written : (state.upload run outcome rows).files uri = some found) :
    state.files uri = some found ∨ uri.kind = run.kind ∧ found = rows := by
  have updated {content : Option (List Row)}
      (written : Function.update state.files ⟨outcome.storage, run.kind, run.month⟩ content uri = some found) :
      state.files uri = some found ∨ uri.kind = run.kind ∧ content = some found := by
    rw [Function.update_apply] at written
    split at written
    · rename_i same
      exact .inr ⟨by rw [same], written⟩
    · exact .inl written
  unfold State.upload at written
  split at written
  · exact (updated written).imp_right fun ⟨ofKind, same⟩ => ⟨ofKind, (Option.some.inj same).symm⟩
  · split at written
    · exact (updated written).imp_right fun ⟨_, absurdly⟩ => by cases absurdly
    · exact .inl written

/-- What the worker reads is its snapshot, or else what is committed. -/
theorem held_of_read (running : state.run = some run) (older : row.timestamp < run.cutoff)
    (member : row ∈ (run.snapshot.getD state.committed).messages kind) :
    Held state kind row ∨ row ∈ state.committed.messages kind := by
  cases opened : run.snapshot with
  | none =>
      rw [opened] at member
      exact .inr member
  | some db =>
      rw [opened] at member
      exact .inl (.snapshot run db running opened older member)

theorem Held.of_advance (held : Held later kind row) (running : state.run = some run)
    (advanced : advance calendar state run outcome = some later) :
    Held state kind row ∨ row ∈ state.committed.messages kind := by
  cases held with
  | file uri rows written ofKind member =>
      rcases advance_effect advanced with ⟨_, files⟩ | ⟨selected, uploading, _, files⟩ | ⟨_, files⟩
      · rw [files] at written
        exact .inl (.file uri rows written ofKind member)
      · rw [files] at written
        rcases upload_file written with earlier | ⟨sameKind, rfl⟩
        · exact .inl (.file uri rows earlier ofKind member)
        · exact .inl (.selected run rows running uploading (sameKind.symm.trans ofKind) member)
      · rw [files] at written
        exact .inl (.file uri rows written ofKind member)
  | selected after rows runs uploading ofKind member =>
      obtain ⟨sameKind, rfl⟩ := (advance_run advanced runs).selected rows uploading
      obtain ⟨read, within⟩ := mem_selectRows.mp member
      rw [sameKind] at ofKind
      rw [ofKind] at read
      exact held_of_read running (inRange_iff.mp within).2 (mem_foldl.mp read).1
  | snapshot after db runs opened older member =>
      have continues := advance_run advanced runs
      rw [continues.snapshot db opened] at member
      rw [continues.cutoff] at older
      exact held_of_read running older member

theorem Held.of_files (held : Held later kind row) (files : later.files = state.files)
    (run : later.run = none ∨ later.run = state.run) : Held state kind row := by
  have sameRun {run : Run} (running : later.run = some run) : state.run = some run := by
    rcases ‹later.run = none ∨ later.run = state.run› with idle | same
    · rw [idle] at running
      cases running
    · rw [← same, running]
  cases held with
  | file uri rows written ofKind member =>
      rw [files] at written
      exact .file uri rows written ofKind member
  | selected run rows running uploading ofKind member =>
      exact .selected run rows (sameRun running) uploading ofKind member
  | snapshot run db running opened older member =>
      exact .snapshot run db (sameRun running) opened older member

/-- A copy that is there after a step was there before, or is of a row that is in
the table before it. -/
theorem Held.of_step {event : Event} (held : Held later kind row)
    (stepped : (machine calendar).step state event = some later) :
    Held state kind row ∨ row ∈ state.committed.messages kind := by
  cases event with
  | advance outcome =>
      obtain ⟨run, running, advanced⟩ := advances_of_step stepped
      exact held.of_advance running advanced
  | begin cutoff deleteAfterVerify =>
      obtain ⟨_, rfl⟩ := begins_of_step stepped
      cases held with
      | file uri rows written ofKind member => exact .inl (.file uri rows written ofKind member)
      | selected run rows running uploading ofKind member =>
          cases running
          cases uploading
      | snapshot run db running opened older member =>
          cases running
          cases opened
  | finish =>
      obtain ⟨_, _, _, rfl⟩ := finishes_of_step stepped
      exact .inl (held.of_files rfl (.inl rfl))
  | crash =>
      cases stepped
      exact .inl (held.of_files rfl (.inl rfl))
  | insert kind row =>
      obtain ⟨_, rfl⟩ := inserts_of_step stepped
      exact .inl (held.of_files rfl (.inr rfl))
  | update kind id content recalled =>
      obtain ⟨_, rfl⟩ := updates_of_step stepped
      exact .inl (held.of_files rfl (.inr rfl))

/-! ## The messages that there are -/

@[simp] theorem State.withRun_stored : (state.withRun run).stored = state.stored := rfl

@[simp] theorem State.upload_stored : (state.upload run outcome rows).stored = state.stored := by
  unfold State.upload
  split
  · rfl
  · split <;> rfl

@[simp] theorem State.commit_stored {onward : Run → Run} :
    (state.commit run outcome onward).stored = state.stored := by
  unfold State.commit
  split <;> rfl

theorem advance_stored (advanced : advance calendar state run outcome = some later) :
    later.stored = state.stored := by
  cases advance_cases advanced with
  | uploaded rows => simp
  | committedIndex | committedDelete => exact State.commit_stored
  | broken | empty | first | caught | skipped | checked | selected | entered | deleted | markedDeleted => rfl

theorem advance_listed (advanced : advance calendar state run outcome = some later)
    (member : row ∈ later.committed.messages kind) : row ∈ state.committed.messages kind := by
  rcases advance_effect advanced with ⟨committed, _⟩ | ⟨_, _, committed, _⟩ | ⟨committed, _⟩
  · rwa [committed] at member
  · rwa [committed] at member
  · rw [committed] at member
    exact (mem_foldl.mp member).1

/-- The steps of the worker, not those of the server. -/
def Event.OfWorker : Event → Prop
  | .insert _ _ => False
  | .update _ _ _ _ => False
  | _ => True

instance (event : Event) : Decidable event.OfWorker := by
  cases event <;> unfold Event.OfWorker <;> infer_instance

/-- The worker only deletes. -/
theorem deletes_of_step {event : Event} (ofWorker : event.OfWorker)
    (stepped : (machine calendar).step state event = some later) :
    later.stored = state.stored ∧
      ∀ kind, ∀ row ∈ later.committed.messages kind, row ∈ state.committed.messages kind := by
  cases event with
  | advance outcome =>
      obtain ⟨run, running, advanced⟩ := advances_of_step stepped
      exact ⟨advance_stored advanced, fun kind row member => advance_listed advanced member⟩
  | begin cutoff deleteAfterVerify =>
      obtain ⟨_, rfl⟩ := begins_of_step stepped
      exact ⟨rfl, fun _ _ member => member⟩
  | finish =>
      obtain ⟨_, _, _, rfl⟩ := finishes_of_step stepped
      exact ⟨rfl, fun _ _ member => member⟩
  | crash =>
      cases stepped
      exact ⟨rfl, fun _ _ member => member⟩
  | insert kind row => cases ofWorker
  | update kind id content recalled => cases ofWorker

theorem Recorded.step {event : Event} (recorded : Recorded state)
    (stepped : (machine calendar).step state event = some later) : Recorded later := by
  by_cases ofWorker : event.OfWorker
  · obtain ⟨stored, deletes⟩ := deletes_of_step ofWorker stepped
    refine ⟨fun kind row member => ?_, ?_, ?_⟩
    · rw [stored]
      exact recorded.listed kind row (deletes kind row member)
    · rw [stored]
      exact recorded.ids
    · rw [stored]
      exact recorded.msgIds
  · cases event with
    | insert kind row =>
        obtain ⟨fresh, rfl⟩ := inserts_of_step stepped
        refine ⟨fun other held member => ?_, recorded.ids.insert fun held stored => (fresh held stored).1,
          recorded.msgIds.insert fun held stored => (fresh held stored).2⟩
        exact mem_insert.mpr ((mem_insert.mp member).imp_left (recorded.listed other held))
    | update kind id content recalled =>
        obtain ⟨_, rfl⟩ := updates_of_step stepped
        refine ⟨fun other held member => ?_, recorded.ids.update fun _ => rewrite_id,
          recorded.msgIds.update fun _ => rewrite_msgId⟩
        rw [mem_update] at member ⊢
        split at member
        · rename_i same
          obtain ⟨earlier, was, rewritten⟩ := member
          rw [if_pos same]
          exact ⟨earlier, recorded.listed other earlier was, rewritten⟩
        · rename_i apart
          rw [if_neg apart]
          exact recorded.listed other held member
    | _ => exact absurd trivial ofWorker

theorem recorded_init : Recorded {} where
  listed := fun _ _ absurdly => by cases absurdly
  ids := fun _ _ absurdly => by cases absurdly
  msgIds := fun _ _ absurdly => by cases absurdly

end MuduoIm.Tools.ArchiveWorker
