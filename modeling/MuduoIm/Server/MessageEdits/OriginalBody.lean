import Mathlib.Data.List.TakeWhile
import MuduoIm.Server.MessageEdits.Frozen

namespace MuduoIm.Server.MessageEdits

open MuduoIm.Transition MuduoIm.Server.FriendService
open MuduoIm.Data.Text

/-! # The first version of a message

Edits one after another, each in a transaction of its own that is executed and
committed.
-/

/-- The rows of a message, and of `message_edits` for it. -/
structure History where
  row : MessageRow
  edits : List EditRow := []
deriving DecidableEq, Repr

/-- A call of `editMessage` on a message in the table `kind`; `none` when it
returns false. -/
def editMessage (kind : Int) (edit : Edit) (history : History) : Option History :=
  if edit.msgKind = kind ∧ edit.Accepts history.row ∧ edit.Affects history.row.read history.row then
    some {
      row := edit.set history.row.read history.row
      edits := history.edits ++ [edit.audit history.row.read] }
  else none

def editAll (kind : Int) : List Edit → History → Option History
  | [], history => some history
  | edit :: rest, history => (editMessage kind edit history).bind (editAll kind rest)

/-- The row that an INSERT of the message leaves. -/
def stored (fromUser timestamp : Int) (content : String) : History where
  row := { fromUser, timestamp, content }

/-- Each row has the text before it as its old body; the texts go from `first`
to `last`. -/
def Chain : String → List EditRow → String → Prop
  | first, [], last => first = last
  | first, edit :: rest, last => edit.oldBody = first ∧ Chain edit.newBody rest last

instance decidableChain : (first : String) → (edits : List EditRow) → (last : String) → Decidable (Chain first edits last)
  | first, [], last => inferInstanceAs (Decidable (first = last))
  | first, edit :: rest, last =>
      have := decidableChain edit.newBody rest last
      inferInstanceAs (Decidable (edit.oldBody = first ∧ Chain edit.newBody rest last))

/-- `original_body` has the first text, and `message_edits` leads from it to
the text of the message. -/
structure KeepsFirst (content : String) (history : History) : Prop where
  original : history.row.originalBody = some content
  chain : Chain content history.edits history.row.content

/-! ## A call alone is a run of the machine -/

/-- The statements of a call, all of them executed. -/
def statements {Call : Type} (call : Call) (edit : Edit) : List (Event Call) :=
  [.editMessage call edit, .select call true, .update call true, .insert call true, .commit call .committed]

theorem statements_run {Call : Type} [DecidableEq Call] {state : State Call} {call : Call} {edit : Edit} {after : History}
    (idle : state.calls call = .idle) (free : state.lock = none) (kind : state.kind = 0 ∨ state.kind = 1)
    (edited : editMessage state.kind edit { row := state.row, edits := state.edits } = some after) :
    ∃ next, (machine Call).run state (statements call edit) = some next ∧ next.row = after.row ∧
      next.edits = after.edits ∧ next.lock = none ∧ next.calls call = .returned true ∧
      ∀ other, other ≠ call → next.calls other = state.calls other := by
  rw [editMessage] at edited
  split at edited
  · rename_i accepted
    obtain ⟨named, accepts, affects⟩ := accepted
    cases edited
    have known : ¬ (edit.msgKind ≠ 0 ∧ edit.msgKind ≠ 1) := by
      rw [named]
      omega
    let begun := state.goto call (.begun edit)
    let selected := begun.goto call (.selected edit state.row.read)
    let updated : State Call :=
      { selected.goto call (.updated edit state.row.read (edit.set state.row.read state.row)) with lock := some call }
    let inserted := updated.goto call (.inserted edit state.row.read (edit.set state.row.read state.row))
    have begins : step state (.editMessage call edit) = some begun := by
      simp only [step, idle, if_neg known, begun]
    have selects : step begun (.select call true) = some selected := by
      have here : begun.calls call = .begun edit := goto_self _ _ _
      simp only [step, here]
      exact if_pos ⟨trivial, named, accepts⟩
    have updates : step selected (.update call true) = some updated := by
      have here : selected.calls call = .selected edit state.row.read := goto_self _ _ _
      have open_lock : ¬ selected.lock ≠ none := not_not.mpr free
      simp only [step, here, if_neg open_lock]
      exact if_pos ⟨trivial, affects⟩
    have inserts : step updated (.insert call true) = some inserted := by
      have here : updated.calls call = .updated edit state.row.read (edit.set state.row.read state.row) :=
        goto_self _ _ _
      simp only [step, here, if_true, inserted]
    have commits : step inserted (.commit call .committed) = some { inserted.finish call true with
        row := edit.set state.row.read state.row, edits := state.edits ++ [edit.audit state.row.read] } := by
      have here : inserted.calls call = .inserted edit state.row.read (edit.set state.row.read state.row) :=
        goto_self _ _ _
      simp only [step, here]
      rfl
    have run : (machine Call).run state (statements call edit) = _ :=
      Machine.run_cons_eq_some.mpr ⟨_, begins, Machine.run_cons_eq_some.mpr ⟨_, selects,
        Machine.run_cons_eq_some.mpr ⟨_, updates, Machine.run_cons_eq_some.mpr ⟨_, inserts,
          Machine.run_cons_eq_some.mpr ⟨_, commits, rfl⟩⟩⟩⟩⟩
    refine ⟨_, run, rfl, rfl, ?_, ?_, ?_⟩
    · simp [State.finish, inserted, updated, State.goto]
    · simp [State.finish, State.goto]
    · intro other apart
      simp [State.finish, inserted, updated, selected, begun, State.goto, apart]
  · cases edited

theorem step_kind {Call : Type} [DecidableEq Call] {state next : State Call} {event : Event Call}
    (stepped : step state event = some next) : next.kind = state.kind := by
  cases event <;> simp only [step] at stepped <;> (repeat' split at stepped) <;> cases stepped <;> rfl

theorem run_kind {Call : Type} [DecidableEq Call] {state next : State Call} {events : List (Event Call)}
    (completed : (machine Call).run state events = some next) : next.kind = state.kind := by
  induction events generalizing state with
  | nil =>
      cases completed
      rfl
  | cons event rest ih =>
      obtain ⟨middle, stepped, completed⟩ := Machine.run_cons_eq_some.mp completed
      exact (ih completed).trans (step_kind stepped)

/-- Calls one after another are a run of the machine. -/
theorem editAll_run {Call : Type} [DecidableEq Call] {state : State Call} {calls : List (Call × Edit)} {after : History}
    (idle : ∀ entry ∈ calls, state.calls entry.1 = .idle) (distinct : (calls.map Prod.fst).Nodup)
    (free : state.lock = none) (kind : state.kind = 0 ∨ state.kind = 1)
    (edited : editAll state.kind (calls.map Prod.snd) { row := state.row, edits := state.edits } = some after) :
    ∃ next, (machine Call).run state (calls.flatMap fun entry => statements entry.1 entry.2) = some next ∧
      next.row = after.row ∧ next.edits = after.edits := by
  induction calls generalizing state with
  | nil =>
      cases edited
      exact ⟨state, rfl, rfl, rfl⟩
  | cons entry rest ih =>
      obtain ⟨middle, first, later⟩ := Option.bind_eq_some_iff.mp edited
      obtain ⟨next, completed, row, audits, unlocked, _, others⟩ :=
        statements_run (idle entry List.mem_cons_self) free kind first
      rw [List.map_cons, List.nodup_cons] at distinct
      have sameKind : next.kind = state.kind := run_kind completed
      have stillIdle : ∀ other ∈ rest, next.calls other.1 = .idle := by
        intro other listed
        rw [others]
        · exact idle other (List.mem_cons_of_mem _ listed)
        · intro same
          exact distinct.1 (same ▸ List.mem_map_of_mem listed)
      have goesOn : editAll next.kind (rest.map Prod.snd) { row := next.row, edits := next.edits } = some after := by
        rw [sameKind, row, audits]
        exact later
      obtain ⟨last, finished, result⟩ := ih stillIdle distinct.2 unlocked (sameKind ▸ kind) goesOn
      exact ⟨last, Machine.run_trans completed finished, result⟩

/-! ## One edit after another -/

variable {kind : Int} {edit : Edit} {edits : List Edit} {history after : History}

/-- The texts of a message before each of the edits. -/
def textsBefore (content : String) (edits : List Edit) : List String :=
  (content :: edits.map Edit.newBody).dropLast

theorem textsBefore_cons (content : String) (edit : Edit) (rest : List Edit) :
    textsBefore content (edit :: rest) = content :: textsBefore edit.newBody rest := rfl

theorem editMessage_eq_some (edited : editMessage kind edit history = some after) :
    after.row.content = edit.newBody ∧ after.edits = history.edits ++ [edit.audit history.row.read] ∧
      after.row.originalBody = if history.row.read.existingOriginal = "" then some history.row.read.oldBody
        else history.row.originalBody := by
  rw [editMessage] at edited
  split at edited
  · cases edited
    rw [Edit.set]
    split
    · exact ⟨rfl, rfl, rfl⟩
    · exact ⟨rfl, rfl, rfl⟩
  · cases edited

theorem editAll_cons (edited : editAll kind (edit :: edits) history = some after) :
    ∃ next, editMessage kind edit history = some next ∧ editAll kind edits next = some after := by
  rw [editAll] at edited
  exact Option.bind_eq_some_iff.mp edited

/-- The audit rows lead from the first to the last text as long as no text that
was read had a NUL. -/
theorem chain_iff (edited : editAll kind edits history = some after) :
    ∃ added, after.edits = history.edits ++ added ∧ (Chain history.row.content added after.row.content ↔
      ∀ text ∈ textsBefore history.row.content edits, '\x00' ∉ text.toList) := by
  induction edits generalizing history with
  | nil =>
      cases edited
      exact ⟨[], (List.append_nil _).symm, iff_of_true rfl nofun⟩
  | cons edit rest ih =>
      obtain ⟨next, first, later⟩ := editAll_cons edited
      obtain ⟨content, audited, _⟩ := editMessage_eq_some first
      obtain ⟨added, trail, chain⟩ := ih later
      refine ⟨edit.audit history.row.read :: added, ?_, ?_⟩
      · rw [trail, audited, List.append_assoc]
        rfl
      · rw [content] at chain
        rw [textsBefore_cons, List.forall_mem_cons, ← cString_eq_iff]
        exact and_congr Iff.rfl chain

/-- A non-empty original is never overwritten. -/
theorem original_kept {original : String} (edited : editAll kind edits history = some after)
    (known : history.row.originalBody = some original) (nonempty : cString original ≠ "") :
    after.row.originalBody = some original := by
  induction edits generalizing history with
  | nil =>
      cases edited
      exact known
  | cons edit rest ih =>
      obtain ⟨next, first, later⟩ := editAll_cons edited
      obtain ⟨_, _, kept⟩ := editMessage_eq_some first
      apply ih later
      rw [kept, MessageRow.read, known, Option.getD_some, if_neg nonempty]

/-- As long as the original is empty or NULL, it becomes the text before the
edit; so it ends as the first of these texts that is not empty. -/
theorem original_eq (edited : editAll kind edits history = some after) (edits_ne : edits ≠ [])
    (empty : history.row.originalBody.getD "" = "")
    (plain : ∀ text ∈ textsBefore history.row.content edits, '\x00' ∉ text.toList) :
    after.row.originalBody =
      some (((textsBefore history.row.content edits).find? (fun text => decide (text ≠ ""))).getD "") := by
  induction edits generalizing history with
  | nil => exact absurd rfl edits_ne
  | cons edit rest ih =>
      obtain ⟨next, first, later⟩ := editAll_cons edited
      obtain ⟨content, _, written⟩ := editMessage_eq_some first
      rw [textsBefore_cons, List.forall_mem_cons, ← cString_eq_iff] at plain
      have original : next.row.originalBody = some history.row.content := by
        rw [written, MessageRow.read, empty]
        exact (if_pos rfl).trans (congrArg some plain.1)
      rw [textsBefore_cons]
      by_cases blank : history.row.content = ""
      · rw [List.find?_cons_of_neg (by simp [blank])]
        cases rest with
        | nil =>
            cases later
            rw [original, blank]
            rfl
        | cons second rest =>
            rw [← content]
            refine ih later (List.cons_ne_nil _ _) (by rw [original, blank]; rfl) ?_
            rw [content]
            exact plain.2
      · rw [List.find?_cons_of_pos (by simp [blank])]
        exact original_kept later original (plain.1.symm ▸ blank)

/-- None of the texts before an edit has a NUL, and the first is not empty or
all of them are. -/
def Recorded (content : String) (edits : List Edit) : Prop :=
  (∀ text ∈ textsBefore content edits, '\x00' ∉ text.toList) ∧
    (content ≠ "" ∨ ∀ text ∈ textsBefore content edits, text = "")

private theorem first_nonempty_iff (content : String) (rest : List String) :
    ((content :: rest).find? (fun text => decide (text ≠ ""))).getD "" = content ↔
      content ≠ "" ∨ ∀ text ∈ content :: rest, text = "" := by
  by_cases blank : content = ""
  · subst blank
    rw [List.forall_mem_cons, List.find?_cons_of_neg (by simp)]
    cases found : rest.find? (fun text => decide (text ≠ "")) with
    | none =>
        have blanks : ∀ text ∈ rest, text = "" := by
          intro text listed
          simpa using List.find?_eq_none.mp found text listed
        exact iff_of_true rfl (.inr ⟨rfl, blanks⟩)
    | some text =>
        have nonempty : text ≠ "" := by simpa using List.find?_some found
        refine iff_of_false nonempty ?_
        intro either
        rcases either with first | blanks
        · exact first rfl
        · exact nonempty (blanks.2 text (List.mem_of_find?_eq_some found))
  · rw [List.find?_cons_of_pos (by simp [blank])]
    exact iff_of_true rfl (.inl blank)

/-- After at least one edit the history starts at the first version exactly if
the texts before the edits are `Recorded`. -/
theorem keepsFirst_iff (kind fromUser timestamp : Int) (content : String) (edits : List Edit) (history : History)
    (edited : editAll kind edits (stored fromUser timestamp content) = some history) (some_edit : edits ≠ []) :
    KeepsFirst content history ↔ Recorded content edits := by
  obtain ⟨added, trail, chain⟩ := chain_iff edited
  have audits : history.edits = added := trail
  have original (plain : ∀ text ∈ textsBefore content edits, '\x00' ∉ text.toList) :
      history.row.originalBody = some content ↔ content ≠ "" ∨ ∀ text ∈ textsBefore content edits, text = "" := by
    rw [original_eq edited some_edit rfl plain, Option.some.injEq]
    obtain ⟨first, rest, rfl⟩ := List.exists_cons_of_ne_nil some_edit
    exact first_nonempty_iff content _
  constructor
  · intro keeps
    have plain := chain.mp (audits ▸ keeps.chain)
    exact ⟨plain, (original plain).mp keeps.original⟩
  · intro recorded
    exact ⟨(original recorded.1).mpr recorded.2, audits.symm ▸ chain.mpr recorded.1⟩

/-- An edit by user 7 of a private message. -/
private def by7 (newBody : String) (nowMs : Int) : Edit := { editorId := 7, newBody, msgKind := 0, nowMs }

theorem two_edits_keep_first : ∃ history,
    editAll 0 [by7 "hi" 2000, by7 "bye" 3000] (stored 7 1000 "hello") = some history ∧ KeepsFirst "hello" history :=
  ⟨_, rfl, (keepsFirst_iff 0 7 1000 "hello" [by7 "hi" 2000, by7 "bye" 3000] _ rfl (by decide)).mpr
    ⟨by decide, .inl (by decide)⟩⟩

/-- The second edit takes the empty original for none and overwrites it. -/
theorem empty_first_version_lost :
    ¬ ∀ kind fromUser timestamp content edits history,
      editAll kind edits (stored fromUser timestamp content) = some history → edits ≠ [] →
        KeepsFirst content history := by
  intro always
  have keeps := always 0 7 1000 "" [by7 "hi" 2000, by7 "bye" 3000] _ rfl (by decide)
  have original := keeps.original
  revert original
  decide

end MuduoIm.Server.MessageEdits
