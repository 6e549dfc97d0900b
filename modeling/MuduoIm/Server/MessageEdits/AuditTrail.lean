import MuduoIm.Server.MessageEdits.OriginalBody

namespace MuduoIm.Server.MessageEdits

open MuduoIm.Transition MuduoIm.Server.FriendService
open MuduoIm.Data.Text

/-! # The audit trail under concurrent edits

The old body of an audit row is what the SELECT returned, before the
transaction had the lock.
-/

variable {Call : Type} [DecidableEq Call] {state next : State Call} {content : String}

/-- The committed audit rows lead from the first text to the text of the
message, whose first text is saved once there is a row. -/
structure Trail (content : String) (state : State Call) : Prop where
  chain : Chain content state.edits state.row.content
  original : state.edits ≠ [] → state.row.originalBody = some content

/-- A commit finds the text that its SELECT returned; where this SELECT saw no
original, that text is the first. -/
def CommitsCurrent (content : String) (state : State Call) : Event Call → Prop
  | .commit call answer => answer ≠ .refused → ∀ edit snapshot row,
      state.calls call = .inserted edit snapshot row → snapshot.oldBody = state.row.content ∧
        (snapshot.existingOriginal = "" → state.row.content = content)
  | _ => True

/-- What the SELECT of an edit in progress returned. -/
def Phase.snapshot : Phase → Option Snapshot
  | .selected _ snapshot | .updated _ snapshot _ | .inserted _ snapshot _ => some snapshot
  | _ => none

/-- Before the first commit there is no original to be seen. -/
structure Untouched (state : State Call) : Prop where
  row : state.row.originalBody = none
  snapshots : ∀ call snapshot, (state.calls call).snapshot = some snapshot → snapshot.existingOriginal = ""

theorem Phase.Plain.snapshot {phase : Phase} (plain : phase.Plain) : phase.snapshot = none := by
  cases phase with
  | selected _ _ | updated _ _ _ | inserted _ _ _ => exact plain.elim
  | idle | begun _ | recalling _ _ | returned _ => rfl

theorem snapshot_step {event : Event Call} {call : Call} {snapshot : Snapshot} (stepped : step state event = some next)
    (seen : (next.calls call).snapshot = some snapshot) :
    (state.calls call).snapshot = some snapshot ∨ snapshot = state.row.read := by
  have moved {mover : Call} {phase : Phase} (here : ((state.goto mover phase).calls call).snapshot = some snapshot)
      (from_before : phase.snapshot = some snapshot →
        (state.calls mover).snapshot = some snapshot ∨ snapshot = state.row.read) :
      (state.calls call).snapshot = some snapshot ∨ snapshot = state.row.read := by
    by_cases same : call = mover
    · subst same
      rw [goto_self] at here
      exact from_before here
    · rw [goto_of_ne same] at here
      exact .inl here
  by_cases commits : ∃ call answer, event = .commit call answer
  · obtain ⟨mover, answer, rfl⟩ := commits
    simp only [step] at stepped
    split at stepped
    · split at stepped <;> cases stepped <;> exact moved seen fun here => by cases here
    · cases stepped
  · cases change_of_step stepped (fun call answer same => commits ⟨call, answer, same⟩) with
    | went mover phase plain =>
        refine moved seen fun here => ?_
        rw [plain.snapshot] at here
        cases here
    | ended mover ok => exact moved seen fun here => by cases here
    | read mover edit => exact moved seen fun read => .inr (Option.some.inj read).symm
    | updated mover edit kept selected =>
        refine moved seen fun same => .inl ?_
        rw [selected]
        exact same
    | inserted mover edit kept row updated =>
        refine moved seen fun same => .inl ?_
        rw [updated]
        exact same
    | recalled mover => exact moved seen fun here => by cases here

/-- Every run keeps this, whatever it does to the trail. -/
structure Tracked (state : State Call) : Prop where
  locked : Locked state
  untouched : state.edits = [] → Untouched state

theorem Tracked.step {event : Event Call} (tracked : Tracked state)
    (stepped : MessageEdits.step state event = some next) : Tracked next := by
  refine ⟨tracked.locked.step stepped, fun unedited => ?_⟩
  have before : state.edits = [] ∧ (next.row = state.row ∨ next.row = { state.row with recalled := true }) := by
    by_cases commits : ∃ call answer, event = .commit call answer
    · obtain ⟨call, answer, rfl⟩ := commits
      obtain ⟨edit, snapshot, _, _, _, ⟨_, sameRow, sameEdits⟩ | ⟨_, _, added⟩⟩ :=
        commit_rows tracked.locked stepped
      · exact ⟨sameEdits ▸ unedited, .inl sameRow⟩
      · rw [unedited] at added
        cases List.append_ne_nil_of_right_ne_nil _ (List.cons_ne_nil _ _) added.symm
    · obtain ⟨_, sameEdits, same | ⟨_, marked⟩⟩ :=
        other_rows tracked.locked stepped (fun call answer same => commits ⟨call, answer, same⟩)
      · exact ⟨sameEdits ▸ unedited, .inl same⟩
      · exact ⟨sameEdits ▸ unedited, .inr marked⟩
  have untouched := tracked.untouched before.1
  constructor
  · rcases before.2 with same | marked
    · rw [same]
      exact untouched.row
    · rw [marked]
      exact untouched.row
  · intro call snapshot seen
    rcases snapshot_step stepped seen with earlier | read
    · exact untouched.snapshots call snapshot earlier
    · rw [read, MessageRow.read, untouched.row]
      rfl

theorem chain_append (first : String) (edits : List EditRow) (edit : EditRow) (last : String) :
    Chain first (edits ++ [edit]) last ↔ Chain first edits edit.oldBody ∧ edit.newBody = last := by
  induction edits generalizing first with
  | nil =>
      rw [List.nil_append, Chain, Chain, Chain]
      exact and_congr_left' eq_comm
  | cons head rest ih =>
      rw [List.cons_append, Chain, ih, Chain, and_assoc]

theorem chain_unique {first last other : String} {edits : List EditRow} (chain : Chain first edits last) :
    Chain first edits other ↔ other = last := by
  induction edits generalizing first with
  | nil =>
      cases chain
      exact eq_comm
  | cons head rest ih =>
      rw [Chain, ih chain.2]
      exact and_iff_right chain.1

/-- Where the trail is intact, a commit keeps it exactly if it is current. -/
theorem trail_commit_iff {call : Call} {answer : CommitAnswer} (tracked : Tracked state) (trail : Trail content state)
    (stepped : MessageEdits.step state (.commit call answer) = some next) :
    Trail content next ↔ CommitsCurrent content state (.commit call answer) := by
  obtain ⟨edit, snapshot, inserted, _, _, ⟨refused, sameRow, sameEdits⟩ | ⟨committed, row, edits⟩⟩ :=
    commit_rows tracked.locked stepped
  · have kept : Trail content next := by
      constructor
      · rw [sameRow, sameEdits]
        exact trail.chain
      · rw [sameRow, sameEdits]
        exact trail.original
    exact iff_of_true kept (fun other => absurd refused other)
  · have current_iff : CommitsCurrent content state (.commit call answer) ↔
        snapshot.oldBody = state.row.content ∧
          (snapshot.existingOriginal = "" → state.row.content = content) := by
      constructor
      · intro current
        exact current committed edit snapshot _ inserted
      · intro holds _ other otherSnapshot otherRow here
        rw [inserted] at here
        cases here
        exact holds
    have chain_iff : Chain content next.edits next.row.content ↔ snapshot.oldBody = state.row.content := by
      rw [edits, chain_append, Edit.audit]
      dsimp only
      rw [chain_unique trail.chain, row, Edit.set]
      split
      · exact and_iff_left rfl
      · exact and_iff_left rfl
    have original_iff (same : snapshot.oldBody = state.row.content) :
        next.row.originalBody = some content ↔
          (snapshot.existingOriginal = "" → state.row.content = content) := by
      rw [row, Edit.set]
      split
      · rename_i unseen
        dsimp only
        rw [same, Option.some.injEq]
        exact ⟨fun here _ => here, fun given => given unseen⟩
      · rename_i known
        refine iff_of_true (trail.original fun unedited => ?_) (fun unseen => absurd unseen known)
        refine known ((tracked.untouched unedited).snapshots call snapshot ?_)
        rw [inserted]
        rfl
    have edited : next.edits ≠ [] := by
      rw [edits]
      exact List.append_ne_nil_of_right_ne_nil _ (List.cons_ne_nil _ _)
    rw [current_iff]
    constructor
    · intro kept
      have same := chain_iff.mp kept.chain
      exact ⟨same, (original_iff same).mp (kept.original edited)⟩
    · intro current
      exact ⟨chain_iff.mpr current.1, fun _ => (original_iff current.1).mpr current.2⟩

theorem trail_step_iff {event : Event Call} (tracked : Tracked state) (trail : Trail content state)
    (stepped : MessageEdits.step state event = some next) :
    Trail content next ↔ CommitsCurrent content state event := by
  by_cases commits : ∃ call answer, event = .commit call answer
  · obtain ⟨call, answer, rfl⟩ := commits
    exact trail_commit_iff tracked trail stepped
  · have unconditional : CommitsCurrent content state event := by
      cases event with
      | commit call answer => exact absurd ⟨call, answer, rfl⟩ commits
      | _ => trivial
    refine iff_of_true ?_ unconditional
    obtain ⟨_, sameEdits, same | ⟨_, marked⟩⟩ :=
      other_rows tracked.locked stepped (fun call answer same => commits ⟨call, answer, same⟩)
    · constructor
      · rw [same, sameEdits]
        exact trail.chain
      · rw [same, sameEdits]
        exact trail.original
    · constructor
      · rw [marked, sameEdits]
        exact trail.chain
      · rw [marked, sameEdits]
        exact trail.original

/-- From a message that was never edited, a run keeps the trail intact exactly
as long as its commits are current. -/
theorem trail_always_iff (start : State Call) (quiet : Quiet start) (unedited : start.edits = [])
    (unsaved : start.row.originalBody = none) (events : List (Event Call)) :
    (machine Call).Always (Trail start.row.content) start events ↔
      (machine Call).Meets (CommitsCurrent start.row.content) start events := by
  have intact : Trail start.row.content start := by
    constructor
    · rw [unedited]
      rfl
    · exact fun edited => absurd unedited edited
  have tracked : Tracked start := by
    refine ⟨quiet.locked, fun _ => ⟨unsaved, fun call snapshot seen => ?_⟩⟩
    rw [quiet.idle call] at seen
    cases seen
  exact Machine.always_iff_meets Tracked intact tracked (fun _ _ _ tracked stepped => tracked.step stepped)
    (fun _ _ _ tracked trail stepped => trail_step_iff tracked trail stepped)

/-! ## Two devices of the sender -/

private def greeting : State Nat := { row := { fromUser := 7, timestamp := 1000, content := "hello" } }

private def toHi : Edit := { editorId := 7, newBody := "hi", msgKind := 0, nowMs := 2000 }

private def toBye : Edit := { editorId := 7, newBody := "bye", msgKind := 0, nowMs := 2001 }

/-- The second edit selects after the first has committed. -/
theorem edits_in_turn_keep_trail :
    (machine Nat).Always (Trail "hello") greeting (statements 0 toHi ++ statements 1 toBye) := by
  refine (trail_always_iff greeting ⟨fun _ => rfl, rfl⟩ rfl rfl _).mpr ?_
  refine .cons rfl trivial <| .cons rfl trivial <| .cons rfl trivial <| .cons rfl trivial <| .cons rfl ?_ <|
    .cons rfl trivial <| .cons rfl trivial <| .cons rfl trivial <| .cons rfl trivial <| .cons rfl ?_ trivial
  · intro _ edit snapshot row inserted
    cases inserted
    exact ⟨by decide, fun _ => rfl⟩
  · intro _ edit snapshot row inserted
    cases inserted
    exact ⟨by decide, fun unseen => absurd unseen (by decide)⟩

/-- Both edits select before one of them commits. -/
private def bothSelect : List (Event Nat) :=
  [.editMessage 0 toHi, .editMessage 1 toBye, .select 0 true, .select 1 true, .update 0 true, .insert 0 true,
    .commit 0 .committed, .update 1 true, .insert 1 true, .commit 1 .committed]

theorem concurrent_edits_break_trail : ¬ (machine Nat).Always (Trail "hello") greeting bothSelect := by
  intro always
  have trail := always.atEnd rfl
  have chain := trail.chain
  revert chain
  decide

end MuduoIm.Server.MessageEdits
