import MuduoIm.Server.MessageEdits

namespace MuduoIm.Server.MessageEdits

open MuduoIm.Transition MuduoIm.Server.FriendService

/-! # A recalled message is frozen

An edit that has updated the row holds its lock, so the row is the one that its
UPDATE has seen until it commits.
-/

variable {Call : Type} [DecidableEq Call] {state next : State Call} {call other : Call}
variable {edit : Edit} {snapshot : Snapshot} {row : MessageRow}

/-- The UPDATE is executed, the COMMIT is not. -/
def Phase.Writes (phase : Phase) (edit : Edit) (snapshot : Snapshot) (row : MessageRow) : Prop :=
  phase = .updated edit snapshot row ∨ phase = .inserted edit snapshot row

/-- What a transaction is about to commit was made of the row as it is. -/
def Locked (state : State Call) : Prop :=
  ∀ call edit snapshot row, (state.calls call).Writes edit snapshot row →
    state.lock = some call ∧ edit.Affects snapshot state.row ∧ row = edit.set snapshot state.row

theorem goto_self (state : State Call) (call : Call) (phase : Phase) :
    (state.goto call phase).calls call = phase := by
  simp only [State.goto, Function.update_self]

theorem goto_of_ne {phase : Phase} (apart : other ≠ call) :
    (state.goto call phase).calls other = state.calls other := by
  simp only [State.goto, Function.update_of_ne apart]

/-- What a call that has reached the phase is about to commit was made of the
row, which it has locked. -/
def Holds (lock : Option Call) (row : MessageRow) (call : Call) (phase : Phase) : Prop :=
  ∀ edit snapshot written, phase.Writes edit snapshot written →
    lock = some call ∧ edit.Affects snapshot row ∧ written = edit.set snapshot row

/-- The phase is none of a transaction that has read the row. -/
def Phase.Plain : Phase → Prop
  | .begun _ | .recalling _ _ | .returned _ => True
  | _ => False

omit [DecidableEq Call] in
theorem Holds.of_plain {lock : Option Call} {phase : Phase} (plain : phase.Plain) : Holds lock row call phase := by
  rintro edit snapshot written (rfl | rfl)
  · exact plain.elim
  · exact plain.elim

/-- One call moves, and the lock and the row may change with it. -/
theorem locked_goto_iff {phase : Phase} {lock : Option Call} {edits : List EditRow} :
    Locked { state.goto call phase with row, edits, lock } ↔
      Holds lock row call phase ∧ ∀ other, other ≠ call → Holds lock row other (state.calls other) :=
  Function.forall_update_iff state.calls (Holds lock row)

theorem Locked.goto {phase : Phase} (locked : Locked state) (holds : Holds state.lock state.row call phase) :
    Locked (state.goto call phase) :=
  locked_goto_iff.mpr ⟨holds, fun other _ => locked other⟩

theorem Locked.finish {ok : Bool} (locked : Locked state) : Locked (state.finish call ok) := by
  refine locked_goto_iff.mpr ⟨Holds.of_plain trivial, fun other different edit snapshot written writes => ?_⟩
  obtain ⟨held, affects, same⟩ := locked other edit snapshot written writes
  have kept : state.lock ≠ some call := by
    rw [held]
    intro both
    exact different (Option.some.inj both)
  rw [if_neg kept]
  exact ⟨held, affects, same⟩

/-- The holder of the lock replaces the row, and returns. -/
theorem Locked.commit {ok : Bool} {edits : List EditRow} (locked : Locked state) (held : state.lock = some call) :
    Locked { state.finish call ok with row, edits } := by
  refine locked_goto_iff.mpr ⟨Holds.of_plain trivial, fun other different edit snapshot written writes => ?_⟩
  have also_held := (locked other edit snapshot written writes).1
  rw [held] at also_held
  exact absurd (Option.some.inj also_held).symm different

/-- Without the lock the row may change, since nobody is about to commit. -/
theorem Locked.unlocked {phase : Phase} {lock : Option Call} (locked : Locked state) (free : state.lock = none)
    (holds : Holds lock row call phase) : Locked { state.goto call phase with row, lock } := by
  refine locked_goto_iff.mpr ⟨holds, fun other _ edit snapshot written writes => ?_⟩
  have held := (locked other edit snapshot written writes).1
  rw [free] at held
  cases held

/-! ## What a step does -/

theorem commit_rows {answer : CommitAnswer} (locked : Locked state)
    (stepped : step state (.commit call answer) = some next) :
    ∃ edit snapshot, state.calls call = .inserted edit snapshot (edit.set snapshot state.row) ∧
      edit.Affects snapshot state.row ∧ Locked next ∧
      ((answer = .refused ∧ next.row = state.row ∧ next.edits = state.edits) ∨
        (answer ≠ .refused ∧ next.row = edit.set snapshot state.row ∧
          next.edits = state.edits ++ [edit.audit snapshot])) := by
  simp only [step] at stepped
  split at stepped
  · rename_i edit snapshot row inserted
    obtain ⟨held, affects, rfl⟩ := locked call edit snapshot row (.inr inserted)
    refine ⟨edit, snapshot, inserted, affects, ?_⟩
    cases answer with
    | committed =>
        cases stepped
        exact ⟨locked.commit held, .inr ⟨nofun, rfl, rfl⟩⟩
    | lost =>
        cases stepped
        exact ⟨locked.commit held, .inr ⟨nofun, rfl, rfl⟩⟩
    | refused =>
        cases stepped
        exact ⟨locked.finish, .inl ⟨rfl, rfl, rfl⟩⟩
  · cases stepped

/-- What a step other than a COMMIT can do. -/
inductive Change (state : State Call) : State Call → Prop where
  | went (call : Call) (phase : Phase) (plain : phase.Plain) : Change state (state.goto call phase)
  | ended (call : Call) (ok : Bool) : Change state (state.finish call ok)
  | read (call : Call) (edit : Edit) : Change state (state.goto call (.selected edit state.row.read))
  | updated (call : Call) (edit : Edit) (snapshot : Snapshot) (selected : state.calls call = .selected edit snapshot)
      (free : state.lock = none) (affects : edit.Affects snapshot state.row) :
      Change state { state.goto call (.updated edit snapshot (edit.set snapshot state.row)) with lock := some call }
  | inserted (call : Call) (edit : Edit) (snapshot : Snapshot) (row : MessageRow)
      (updated : state.calls call = .updated edit snapshot row) :
      Change state (state.goto call (.inserted edit snapshot row))
  | recalled (call : Call) (free : state.lock = none) (fresh : state.row.recalled = false) :
      Change state { state.goto call (.returned true) with row := { state.row with recalled := true } }

theorem change_of_step {event : Event Call} (stepped : step state event = some next)
    (notCommit : ∀ call answer, event ≠ .commit call answer) : Change state next := by
  cases event with
  | editMessage call edit =>
      simp only [step] at stepped
      split at stepped
      · split at stepped <;> cases stepped <;> exact .went call _ trivial
      · cases stepped
  | select call answered =>
      simp only [step] at stepped
      split at stepped
      · split at stepped
        · cases stepped
          exact .read call _
        · cases stepped
          exact .ended call false
      · cases stepped
  | update call executed =>
      simp only [step] at stepped
      split at stepped
      · rename_i edit snapshot selected
        split at stepped
        · cases stepped
        · rename_i free
          split at stepped
          · rename_i affects
            cases stepped
            exact .updated call edit snapshot selected (not_not.mp free) affects.2
          · cases stepped
            exact .ended call false
      · cases stepped
  | insert call executed =>
      simp only [step] at stepped
      split at stepped
      · rename_i edit snapshot row updated
        split at stepped
        · cases stepped
          exact .inserted call edit snapshot row updated
        · cases stepped
          exact .ended call false
      · cases stepped
  | commit call answer => exact absurd rfl (notCommit call answer)
  | recallMessage call request =>
      simp only [step] at stepped
      split at stepped
      · cases stepped
        exact .went call _ trivial
      · cases stepped
  | markRecalled call executed =>
      simp only [step] at stepped
      split at stepped
      · split at stepped
        · cases stepped
        · rename_i waits
          split at stepped
          · rename_i affects
            cases stepped
            have free : state.lock = none := by
              by_contra held
              exact waits ⟨affects.2.1, held⟩
            exact .recalled call free affects.2.2.2.2
          · split at stepped <;> cases stepped <;> exact .went call _ trivial
      · cases stepped
  | abort call =>
      simp only [step] at stepped
      split at stepped
      · cases stepped
      · cases stepped
        exact .ended call false

theorem Locked.change (locked : Locked state) (change : Change state next) : Locked next := by
  cases change with
  | went call phase plain => exact locked.goto (Holds.of_plain plain)
  | ended call ok => exact locked.finish
  | read call edit => exact locked.goto (by rintro _ _ _ (here | here) <;> cases here)
  | updated call edit snapshot selected free affects =>
      refine locked.unlocked free ?_
      rintro _ _ _ (here | here)
      · cases here
        exact ⟨rfl, affects, rfl⟩
      · cases here
  | inserted call edit snapshot row updated =>
      refine locked.goto ?_
      rintro _ _ _ (here | here)
      · cases here
      · cases here
        exact locked call edit snapshot row (.inl updated)
  | recalled call free fresh => exact locked.unlocked free (Holds.of_plain trivial)

/-- Only a COMMIT changes the audit trail, and only a recall the row besides. -/
theorem Change.rows (change : Change state next) :
    next.edits = state.edits ∧
      (next.row = state.row ∨ state.row.recalled = false ∧ next.row = { state.row with recalled := true }) := by
  cases change with
  | recalled call free fresh => exact ⟨rfl, .inr ⟨fresh, rfl⟩⟩
  | _ => exact ⟨rfl, .inl rfl⟩

theorem other_rows {event : Event Call} (locked : Locked state) (stepped : step state event = some next)
    (notCommit : ∀ call answer, event ≠ .commit call answer) :
    Locked next ∧ next.edits = state.edits ∧
      (next.row = state.row ∨ state.row.recalled = false ∧ next.row = { state.row with recalled := true }) :=
  have change := change_of_step stepped notCommit
  ⟨locked.change change, change.rows⟩

theorem Locked.step {event : Event Call} (locked : Locked state) (stepped : step state event = some next) :
    Locked next := by
  by_cases commits : ∃ call answer, event = .commit call answer
  · obtain ⟨call, answer, rfl⟩ := commits
    obtain ⟨_, _, _, _, after, _⟩ := commit_rows locked stepped
    exact after
  · exact (other_rows locked stepped (fun call answer same => commits ⟨call, answer, same⟩)).1

/-- Calls of `editMessage` and `recallMessage` have not begun. -/
structure Quiet (state : State Call) : Prop where
  idle : ∀ call, state.calls call = .idle
  free : state.lock = none

omit [DecidableEq Call] in
theorem Quiet.locked (quiet : Quiet state) : Locked state := by
  intro call edit snapshot row writes
  rw [quiet.idle call] at writes
  rcases writes with here | here
  · cases here
  · cases here

/-! ## Recalled -/

theorem frozen_step {event : Event Call} (locked : Locked state) (recalled : state.row.recalled = true)
    (stepped : MessageEdits.step state event = some next) :
    next.row = state.row ∧ next.edits = state.edits := by
  by_cases commits : ∃ call answer, event = .commit call answer
  · obtain ⟨call, answer, rfl⟩ := commits
    obtain ⟨edit, snapshot, _, affects, _⟩ := commit_rows locked stepped
    have fresh := affects.2.1
    rw [recalled] at fresh
    cases fresh
  · obtain ⟨_, sameEdits, same | ⟨fresh, _⟩⟩ :=
      other_rows locked stepped (fun call answer same => commits ⟨call, answer, same⟩)
    · exact ⟨same, sameEdits⟩
    · rw [recalled] at fresh
      cases fresh

theorem frozen_run {events : List (Event Call)} {after : State Call} (locked : Locked state)
    (recalled : state.row.recalled = true) (completed : (machine Call).run state events = some after) :
    after.row = state.row ∧ after.edits = state.edits := by
  induction events generalizing state with
  | nil =>
      cases completed
      exact ⟨rfl, rfl⟩
  | cons event rest ih =>
      obtain ⟨next, stepped, completed⟩ := Machine.run_cons_eq_some.mp completed
      obtain ⟨sameRow, sameEdits⟩ := frozen_step locked recalled stepped
      obtain ⟨laterRow, laterEdits⟩ := ih (locked.step stepped) (sameRow ▸ recalled) completed
      exact ⟨laterRow.trans sameRow, laterEdits.trans sameEdits⟩

/-- Once the committed row is recalled, no run changes it or the committed
audit rows. -/
theorem recalled_message_is_frozen (start : State Call) (quiet : Quiet start) (events : List (Event Call)) :
    (machine Call).Always (fun state => state.row.recalled = true → ∀ rest after,
      (machine Call).run state rest = some after →
        after.row.recalled = true ∧ after.row.content = state.row.content ∧
          after.row.editedAt = state.row.editedAt ∧ after.row.originalBody = state.row.originalBody ∧
          after.edits = state.edits) start events := by
  have always : (machine Call).Always Locked start events :=
    Machine.always_of_step Locked quiet.locked (fun _ _ _ locked stepped => locked.step stepped)
  refine always.mono fun state locked recalled rest after completed => ?_
  obtain ⟨sameRow, sameEdits⟩ := frozen_run locked recalled completed
  rw [sameRow]
  exact ⟨recalled, rfl, rfl, rfl, sameEdits⟩

/-- The recall comes between the SELECT and the UPDATE of an edit. -/
private def recalledMeanwhile : List (Event Nat) :=
  [.editMessage 0 { editorId := 7, newBody := "hi", msgKind := 0, nowMs := 2000 }, .select 0 true,
    .recallMessage 1 { fromUserId := 7, nowMs := 2000 }, .markRecalled 1 true]

theorem recalledMeanwhile_is_frozen : ∃ state after,
    (machine Nat).run { row := { fromUser := 7, timestamp := 1000, content := "hello" } } recalledMeanwhile =
        some state ∧
      (machine Nat).run state [.update 0 true] = some after ∧ after.calls 0 = .returned false ∧
      after.row.content = "hello" := by
  refine ⟨_, _, rfl, rfl, rfl, ?_⟩
  have always := recalled_message_is_frozen { row := { fromUser := 7, timestamp := 1000, content := "hello" } }
    ⟨fun _ => rfl, rfl⟩ recalledMeanwhile
  exact ((always.atEnd rfl) rfl [.update 0 true] _ rfl).2.1

end MuduoIm.Server.MessageEdits
