import MuduoIm.Server.Responses.Copies

namespace MuduoIm.Server.Responses

open MuduoIm.Data MuduoIm.Transition MuduoIm.Tools
open MuduoIm.Data.Text (cString)
open MuduoIm.Server.FriendService (Answers CommitAnswer)
open MuduoIm.Tools.ArchiveWorker (Recorded)
open MuduoIm.Tools.EsSyncWorker (Document Worker)

/-! # When an answer has a recalled message or an old text

Neither a recall nor an edit reaches the copies of a row.
-/

variable {Call : Type} {config : Config} {state next : State Call} {text : Text}

/-- Neither is the message recalled nor the text replaced. -/
def Allowed (state : State Call) (text : Text) : Prop :=
  (text.kind, text.msgId) ∉ state.recalled ∧ text ∉ state.superseded

/-- What the last step has sent has no other texts. -/
def ServesCurrent (state : State Call) : Prop :=
  ∀ response, state.response = some response → ∀ entry ∈ response.messages, Allowed state entry.text

/-- All statements of an edit are executed. -/
def Carried (answers : Answers) : Prop :=
  answers.connected = true ∧ answers.active = true ∧ answers.selected = true ∧ answers.executed 0 = true ∧
    answers.executed 1 = true ∧ answers.commit ≠ .refused

/-- When a recall reports a row, nothing has a copy of the message; when an edit
reports that it has changed a text, nothing has a copy of the old one.  What is
read of the new text is not a text that this edit or an earlier one has replaced. -/
def FindsNoCopy (state : State Call) : Event Call → Prop
  | .recallMessage msgId fromUserId now connected answers =>
      connected = true → ∀ kind, answers kind = .committed →
        ∀ row ∈ state.tables kind, recallable msgId fromUserId (now - 120000) row = true →
          ∀ content, ¬ Copied state ⟨kind, msgId, content⟩
  | .editMessage msgId editorId newBody msgKind now answers =>
      Carried answers → ∀ kind, tableOf msgKind = some kind →
        ∀ row ∈ state.tables kind, row.msgId = msgId → row.fromUser = editorId → row.recalled = false →
          now - Transactions.editWindowMs ≤ row.timestamp →
            (answers.commit = .committed → row.content ≠ newBody → ¬ Copied state ⟨kind, msgId, row.content⟩) ∧
              (cString newBody = newBody ∨
                (answers.commit = .committed → cString newBody ≠ row.content) ∧
                  ⟨kind, msgId, cString newBody⟩ ∉ state.superseded)
  | _ => True

/-! ## The invariant -/

/-- `recalled` and `superseded` mention messages that have been saved. -/
structure Clean (config : Config) (state : State Call) : Prop where
  sound : ArchiveQuery.Sound config.calendar state.archive
  recorded : Recorded state.archive.worker
  recalled : ∀ key ∈ state.recalled, ∃ row ∈ state.archive.worker.stored key.1, row.msgId = key.2
  superseded : ∀ text ∈ state.superseded, ∃ row ∈ state.archive.worker.stored text.kind, row.msgId = text.msgId
  sources : ∀ text, Source state text → Allowed state text
  response : ServesCurrent state

theorem Clean.silent (clean : Clean config state) : Clean config { state with response := none } :=
  ⟨clean.sound, clean.recorded, clean.recalled, clean.superseded, clean.sources, nofun⟩

/-- A step that saves, recalls and edits nothing. -/
theorem Clean.of_sources (clean : Clean config state) (sound : ArchiveQuery.Sound config.calendar next.archive)
    (recorded : Recorded next.archive.worker)
    (stored : next.archive.worker.stored = state.archive.worker.stored)
    (recalled : next.recalled = state.recalled) (superseded : next.superseded = state.superseded)
    (sources : ∀ text, Source next text → Source state text)
    (response : ∀ response, next.response = some response → ∀ entry ∈ response.messages, Source state entry.text) :
    Clean config next := by
  have allowed (text : Text) (source : Source state text) : Allowed next text := by
    unfold Allowed
    rw [recalled, superseded]
    exact clean.sources text source
  refine ⟨sound, recorded, ?_, ?_, fun text source => allowed text (sources text source), ?_⟩
  · rw [recalled, stored]
    exact clean.recalled
  · rw [superseded, stored]
    exact clean.superseded
  · intro sent answered entry member
    exact allowed _ (response sent answered entry member)

theorem Clean.row_eq (clean : Clean config state) {kind : Kind} {row other : Row} (member : row ∈ state.tables kind)
    (listed : other ∈ state.tables kind) (same : other.id = row.id ∨ other.msgId = row.msgId) : other = row := by
  have stored := clean.recorded.listed kind row member
  have storedOther := clean.recorded.listed kind other listed
  rcases same with id | msgId
  · exact clean.recorded.ids kind row stored other storedOther id
  · exact clean.recorded.msgIds kind row stored other storedOther msgId

/-! ## Statements on a row -/

section

variable {kind : Kind} {row : Row} {content : String} {recalled : Bool} {archive : ArchiveQuery.Server}

theorem handle_update (config : Config) (member : row ∈ state.tables kind) (content : String) (recalled : Bool) :
    ∃ archive, ArchiveQuery.handle config.calendar state.archive (.worker (.update kind row.id content recalled)) =
        some archive ∧
      write config (.update kind row.id content recalled) state = { state with archive } := by
  have present : ∃ other ∈ state.archive.worker.committed.messages kind, other.id = row.id := ⟨row, member, rfl⟩
  have handled : ArchiveQuery.handle config.calendar state.archive
      (.worker (.update kind row.id content recalled)) = some { state.archive with worker := { state.archive.worker with
        committed := { state.archive.worker.committed with
          messages := state.archive.worker.committed.messages.update kind row.id content recalled }
        stored := state.archive.worker.stored.update kind row.id content recalled } } := by
    simp only [ArchiveQuery.handle, ArchiveWorker.machine, ArchiveWorker.step, if_pos present, Option.map_some]
  exact ⟨_, handled, by rw [write, handled, Option.getD_some]⟩

theorem updated_of_handle
    (handled : ArchiveQuery.handle config.calendar state.archive (.worker (.update kind row.id content recalled)) =
      some archive) :
    archive.worker.committed.messages = state.tables.update kind row.id content recalled ∧
      archive.worker.stored = state.archive.worker.stored.update kind row.id content recalled ∧
      archive.worker.files = state.archive.worker.files ∧ archive.worker.run = state.archive.worker.run := by
  obtain ⟨worker, stepped, rfl⟩ := Option.map_eq_some_iff.mp handled
  obtain ⟨_, rfl⟩ := ArchiveWorker.updates_of_step stepped
  exact ⟨rfl, rfl, rfl, rfl⟩

/-- An update reaches no copy. -/
theorem copied_of_update {text : Text}
    (handled : ArchiveQuery.handle config.calendar state.archive (.worker (.update kind row.id content recalled)) =
      some archive) (copied : Copied { state with archive } text) : Copied state text := by
  obtain ⟨_, _, files, run⟩ := updated_of_handle handled
  cases copied with
  | indexed listed => exact .indexed listed
  | searchable listed => exact .searchable listed
  | batched waiting => exact .batched waiting
  | gathered gathered => exact .gathered gathered
  | archived held =>
      obtain ⟨row, held, shown, same⟩ := held
      exact .archived ⟨row, held.of_files files (.inr run), shown, same⟩

/-- Afterwards the row has the new text, and the other messages have theirs. -/
theorem Clean.present_of_update (clean : Clean config state) {text : Text} (member : row ∈ state.tables kind)
    (present : Present (state.tables.update kind row.id content recalled) text) :
    recalled = false ∧ (text = ⟨kind, row.msgId, content⟩ ∨ text = ⟨kind, row.msgId, cString content⟩) ∨
      Present state.tables text ∧ (text.kind, text.msgId) ≠ (kind, row.msgId) := by
  obtain ⟨other, msgId, said⟩ := text
  obtain ⟨after, listed, shown, same⟩ := present
  have named : after.msgId = msgId := by
    rcases same with whole | read
    · exact (Text.mk.inj whole).2.1
    · exact (Text.mk.inj read).2.1
  rw [mem_update] at listed
  split at listed
  · rename_i sameKind
    obtain ⟨earlier, was, rfl⟩ := listed
    by_cases updated : earlier.id = row.id
    · rw [sameKind] at was
      rw [clean.row_eq member was (.inl updated), rewrite, if_pos rfl] at shown same
      refine .inl ⟨shown, same.imp ?_ ?_⟩
      · intro whole
        rw [← whole, ← sameKind, rowText]
      · intro read
        rw [← read, ← sameKind, shownText]
    · rw [rewrite_of_ne updated] at shown same named
      refine .inr ⟨⟨earlier, was, shown, same⟩, fun sameKey => updated ?_⟩
      obtain ⟨ofKind, sameId⟩ := Prod.mk.inj sameKey
      rw [sameKind] at was
      rw [clean.row_eq member was (.inr (named.trans sameId))]
  · rename_i apart
    exact .inr ⟨⟨after, listed, shown, same⟩, fun sameKey => apart (Prod.mk.inj sameKey).1⟩

/-- What a call must leave that updates a row: the copies, the other messages
and the row itself are allowed by what it has recorded. -/
theorem Clean.update (clean : Clean config state) (member : row ∈ state.tables kind)
    (handled : ArchiveQuery.handle config.calendar state.archive (.worker (.update kind row.id content recalled)) =
      some archive) {keys : List (Kind × String)} {texts : List Text}
    (knownKeys : ∀ key ∈ keys, key = (kind, row.msgId) ∨ key ∈ state.recalled)
    (knownTexts : ∀ text ∈ texts, (text.kind, text.msgId) = (kind, row.msgId) ∨ text ∈ state.superseded)
    (quiet : state.response = none)
    (copies : ∀ text, Copied state text → (text.kind, text.msgId) ∉ keys ∧ text ∉ texts)
    (others : ∀ text, (text.kind, text.msgId) ≠ (kind, row.msgId) → Allowed state text →
      (text.kind, text.msgId) ∉ keys ∧ text ∉ texts)
    (itself : recalled = false → (kind, row.msgId) ∉ keys ∧ (⟨kind, row.msgId, content⟩ : Text) ∉ texts ∧
      (⟨kind, row.msgId, cString content⟩ : Text) ∉ texts) :
    Clean config { state with archive, recalled := keys, superseded := texts } := by
  obtain ⟨messages, stored, _, _⟩ := updated_of_handle handled
  have listed {other : Kind} {msgId : String} (was : ∃ row ∈ state.archive.worker.stored other, row.msgId = msgId) :
      ∃ row ∈ archive.worker.stored other, row.msgId = msgId := by
    obtain ⟨row, held, same⟩ := was
    rw [stored]
    by_cases sameKind : other = kind
    · exact ⟨_, mem_update.mpr (by rw [if_pos sameKind]; exact ⟨row, held, rfl⟩), rewrite_msgId.trans same⟩
    · exact ⟨row, mem_update.mpr (by rw [if_neg sameKind]; exact held), same⟩
  have itselfListed : ∃ other ∈ state.archive.worker.stored kind, other.msgId = row.msgId :=
    ⟨row, clean.recorded.listed kind row member, rfl⟩
  have taken : (ArchiveQuery.machine config.calendar).step state.archive
      (.worker (.update kind row.id content recalled)) = some archive := handled
  obtain ⟨worker, stepped, same⟩ := Option.map_eq_some_iff.mp handled
  refine ⟨clean.sound.step taken, ?_, ?_, ?_, ?_, ?_⟩
  · rw [← same]
    exact clean.recorded.step stepped
  · intro key recorded
    rcases knownKeys key recorded with rfl | earlier
    · exact listed itselfListed
    · exact listed (clean.recalled key earlier)
  · intro text recorded
    rcases knownTexts text recorded with same | earlier
    · obtain ⟨sameKind, sameId⟩ := Prod.mk.inj same
      rw [sameKind, sameId]
      exact listed itselfListed
    · exact listed (clean.superseded text earlier)
  · rintro text (copied | present)
    · exact copies text (copied_of_update handled copied)
    · rw [State.tables, messages] at present
      rcases clean.present_of_update member present with ⟨shown, rfl | rfl⟩ | ⟨present, apart⟩
      · exact ⟨(itself shown).1, (itself shown).2.1⟩
      · exact ⟨(itself shown).1, (itself shown).2.2⟩
      · exact others text apart (clean.sources text (.inr present))
  · intro response answered
    rw [quiet] at answered
    cases answered

end

/-! ## The calls that write -/

section

variable {kind : Kind} {msgId newBody : String} {fromUserId editorId twoMinAgo now msgKind : Int}
variable {answer : CommitAnswer} {answers : Answers} {text : Text}

theorem recallable_msgId {row : Row} (chosen : recallable msgId fromUserId twoMinAgo row = true) : row.msgId = msgId := by
  simp only [recallable, Bool.and_eq_true, decide_eq_true_eq] at chosen
  exact chosen.1.1.1

theorem Clean.markRecalled (clean : Clean config state) (quiet : state.response = none)
    (uncopied : answer = .committed → ∀ row ∈ state.tables kind, recallable msgId fromUserId twoMinAgo row = true →
      ∀ content, ¬ Copied state ⟨kind, msgId, content⟩) :
    Clean config (markRecalled config kind msgId fromUserId twoMinAgo answer state).2 := by
  unfold Responses.markRecalled
  split
  · exact clean
  · rename_i row selected
    have member := List.mem_of_find?_eq_some selected
    have chosen := List.find?_some selected
    obtain rfl := recallable_msgId chosen
    obtain ⟨archive, handled, written⟩ := handle_update config member row.content true
    cases answer with
    | committed =>
        dsimp only
        rw [written]
        refine clean.update member handled ?_ (fun _ held => .inr held) quiet ?_ ?_ nofun
        · exact fun key listed => List.mem_cons.mp listed
        · intro text copied
          obtain ⟨unrecalled, current⟩ := clean.sources text (.inl copied)
          refine ⟨fun listed => ?_, current⟩
          rcases List.mem_cons.mp listed with same | earlier
          · obtain ⟨other, msgId, said⟩ := text
            obtain ⟨rfl, rfl⟩ := Prod.mk.inj same
            exact uncopied rfl row member chosen said copied
          · exact unrecalled earlier
        · intro text apart ⟨unrecalled, current⟩
          refine ⟨fun listed => ?_, current⟩
          exact (List.mem_cons.mp listed).elim apart unrecalled
    | lost =>
        dsimp only
        rw [written]
        exact clean.update member handled (fun _ held => .inr held) (fun _ held => .inr held) quiet
          (fun text copied => clean.sources text (.inl copied)) (fun _ _ allowed => allowed) nofun
    | refused => exact clean

/-- An update that reports no row has at most marked one in its own table. -/
theorem markRecalled_unreported {later : State Call}
    (unreported : markRecalled config kind msgId fromUserId twoMinAgo answer state = (false, later)) :
    (∀ text, Copied later text → Copied state text) ∧ later.response = state.response ∧
      ∀ other, other ≠ kind → later.tables other = state.tables other := by
  unfold markRecalled at unreported
  split at unreported
  · cases unreported
    exact ⟨fun _ copied => copied, rfl, fun _ _ => rfl⟩
  · rename_i row selected
    obtain ⟨archive, handled, written⟩ :=
      handle_update config (List.mem_of_find?_eq_some selected) row.content true
    cases answer with
    | committed => cases unreported
    | lost =>
        dsimp only at unreported
        rw [written] at unreported
        cases unreported
        refine ⟨fun _ copied => copied_of_update handled copied, rfl, fun other apart => ?_⟩
        rw [State.tables, (updated_of_handle handled).1]
        exact if_neg apart
    | refused =>
        cases unreported
        exact ⟨fun _ copied => copied, rfl, fun _ _ => rfl⟩

theorem Clean.recallMessage {connected : Bool} {answers : Kind → CommitAnswer} (clean : Clean config state)
    (quiet : state.response = none)
    (finds : FindsNoCopy state (.recallMessage msgId fromUserId now connected answers)) :
    Clean config (recallMessage config msgId fromUserId now connected answers state).2 := by
  unfold Responses.recallMessage
  cases connected with
  | false => exact clean
  | true =>
      have marked := clean.markRecalled quiet fun answered => finds rfl .privateChat answered
      rw [Bool.not_true, if_neg Bool.false_ne_true]
      dsimp only
      split
      · rename_i later reported
        rw [reported] at marked
        exact marked
      · rename_i later unreported
        rw [unreported] at marked
        obtain ⟨copies, silent, others⟩ := markRecalled_unreported unreported
        refine marked.markRecalled (silent.trans quiet) fun answered row member chosen content copied => ?_
        rw [others .group (by decide)] at member
        exact finds rfl .group answered row member chosen content (copies _ copied)

/-- What an edit has found when it comes to its COMMIT. -/
structure EditChecked (state : State Call) (msgId : String) (editorId msgKind now : Int) (answers : Answers)
    (kind : Kind) (row : Row) : Prop where
  ofKind : tableOf msgKind = some kind
  connected : answers.connected = true
  active : answers.active = true
  selected : answers.selected = true
  member : row ∈ state.tables kind
  named : row.msgId = msgId
  own : row.fromUser = editorId
  shown : row.recalled = false
  recent : now - Transactions.editWindowMs ≤ row.timestamp
  updated : answers.executed 0 = true
  inserted : answers.executed 1 = true

theorem editMessage_spec {after : State Call}
    (edited : (Responses.editMessage config msgId editorId newBody msgKind now answers state).2 = after) :
    after = state ∨ ∃ kind row, EditChecked state msgId editorId msgKind now answers kind row ∧
      ((answers.commit = .committed ∧
          after = { write config (.update kind row.id newBody false) state with
            superseded := (⟨kind, msgId, row.content⟩ ::
              (write config (.update kind row.id newBody false) state).superseded).filter
                fun text => text ≠ ⟨kind, msgId, newBody⟩ }) ∨
        answers.commit = .lost ∧
          after = { write config (.update kind row.id newBody false) state with
            superseded := (write config (.update kind row.id newBody false) state).superseded.filter
              fun text => text ≠ ⟨kind, msgId, newBody⟩ }) := by
  unfold Responses.editMessage at edited
  split at edited
  · exact .inl edited.symm
  rename_i kind ofKind
  split at edited
  · exact .inl edited.symm
  rename_i connected
  split at edited
  · exact .inl edited.symm
  rename_i active
  dsimp only at edited
  split at edited
  · exact .inl edited.symm
  rename_i row found
  split at edited
  · exact .inl edited.symm
  rename_i own
  split at edited
  · exact .inl edited.symm
  rename_i shown
  split at edited
  · exact .inl edited.symm
  rename_i recent
  split at edited
  · exact .inl edited.symm
  rename_i updated
  split at edited
  · exact .inl edited.symm
  rename_i inserted
  simp only [Bool.not_eq_true', Bool.not_eq_false, ne_eq, not_not] at connected active own shown updated inserted
  rw [Bool.not_eq_true] at shown
  have selected : answers.selected = true := by
    by_contra unanswered
    rw [if_neg unanswered] at found
    cases found
  rw [if_pos selected] at found
  have checked : EditChecked state msgId editorId msgKind now answers kind row :=
    ⟨ofKind, connected, active, selected, List.mem_of_find?_eq_some found, by simpa using List.find?_some found,
      own, shown, Int.not_lt.mp recent, updated, inserted⟩
  cases answered : answers.commit with
  | committed =>
      rw [answered] at edited
      exact .inr ⟨kind, row, checked, .inl ⟨rfl, edited.symm⟩⟩
  | lost =>
      rw [answered] at edited
      exact .inr ⟨kind, row, checked, .inr ⟨rfl, edited.symm⟩⟩
  | refused =>
      rw [answered] at edited
      exact .inl edited.symm

theorem Clean.editMessage (clean : Clean config state) (quiet : state.response = none)
    (finds : FindsNoCopy state (.editMessage msgId editorId newBody msgKind now answers)) :
    Clean config (editMessage config msgId editorId newBody msgKind now answers state).2 := by
  generalize edited : (Responses.editMessage config msgId editorId newBody msgKind now answers state).2 = after
  rcases editMessage_spec edited with rfl | ⟨kind, row, checked, effect⟩
  · exact clean
  have member := checked.member
  have named := checked.named
  subst named
  obtain ⟨archive, handled, written⟩ := handle_update config member newBody false
  have unrecalled : (kind, row.msgId) ∉ state.recalled :=
    (clean.sources _ (.inr (.of_row member checked.shown))).1
  have kept {texts : List Text} {text : Text} (listed : text ∈ texts.filter fun text => text ≠ ⟨kind, row.msgId, newBody⟩) :
      text ∈ texts ∧ text ≠ ⟨kind, row.msgId, newBody⟩ := by
    rw [List.mem_filter, decide_eq_true_eq] at listed
    exact listed
  have finds (executed : answers.commit ≠ .refused) := finds ⟨checked.connected, checked.active, checked.selected,
    checked.updated, checked.inserted, executed⟩ kind checked.ofKind row member rfl checked.own checked.shown
    checked.recent
  rcases effect with ⟨answered, result⟩ | ⟨answered, result⟩
  · rw [result, written]
    refine clean.update member handled (fun _ held => .inr held) ?_ quiet ?_ ?_ ?_
    · intro text listed
      rcases List.mem_cons.mp (kept listed).1 with rfl | earlier
      · exact .inl rfl
      · exact .inr earlier
    · intro text copied
      obtain ⟨allowed, current⟩ := clean.sources text (.inl copied)
      refine ⟨allowed, fun listed => ?_⟩
      obtain ⟨replaced, changed⟩ := kept listed
      rcases List.mem_cons.mp replaced with rfl | earlier
      · -- the text that the edit replaces, of which nothing has a copy
        refine (finds (by simp [answered])).1 answered ?_ copied
        exact fun same => changed (by rw [same])
      · exact current earlier
    · intro text apart ⟨allowed, current⟩
      refine ⟨allowed, fun listed => ?_⟩
      rcases List.mem_cons.mp (kept listed).1 with rfl | earlier
      · exact apart rfl
      · exact current earlier
    · refine fun _ => ⟨unrecalled, fun listed => (kept listed).2 rfl, fun listed => ?_⟩
      obtain ⟨replaced, changed⟩ := kept listed
      rcases (finds (by simp [answered])).2 with whole | ⟨other, fresh⟩
      · exact changed (by rw [whole])
      · rcases List.mem_cons.mp replaced with same | earlier
        · exact other answered (Text.mk.inj same).2.2
        · exact fresh earlier
  · rw [result, written]
    refine clean.update member handled (fun _ held => .inr held) (fun _ held => .inr (kept held).1) quiet ?_ ?_ ?_
    · intro text copied
      obtain ⟨allowed, current⟩ := clean.sources text (.inl copied)
      exact ⟨allowed, fun listed => current (kept listed).1⟩
    · intro text _ ⟨allowed, current⟩
      exact ⟨allowed, fun listed => current (kept listed).1⟩
    · refine fun _ => ⟨unrecalled, fun listed => (kept listed).2 rfl, fun listed => ?_⟩
      rcases (finds (by simp [answered])).2 with whole | ⟨_, fresh⟩
      · exact (kept listed).2 (by rw [whole])
      · exact fresh (kept listed).1

end

/-! ## Runs -/

theorem Clean.save {kind : Kind} {row : Row} {archive : ArchiveQuery.Server} (clean : Clean config state)
    (quiet : state.response = none)
    (handled : ArchiveQuery.handle config.calendar state.archive (.worker (.insert kind row)) = some archive) :
    Clean config { state with archive } := by
  have taken : (ArchiveQuery.machine config.calendar).step state.archive (.worker (.insert kind row)) =
      some archive := handled
  obtain ⟨worker, stepped, rfl⟩ := Option.map_eq_some_iff.mp handled
  have recorded := clean.recorded.step stepped
  obtain ⟨fresh, rfl⟩ := ArchiveWorker.inserts_of_step stepped
  have listed {other : Kind} {msgId : String}
      (was : ∃ row ∈ state.archive.worker.stored other, row.msgId = msgId) :
      ∃ held ∈ state.archive.worker.stored.insert kind row other, held.msgId = msgId := by
    obtain ⟨held, stored, same⟩ := was
    exact ⟨held, mem_insert.mpr (.inl stored), same⟩
  refine ⟨clean.sound.step taken, recorded, fun key member => listed (clean.recalled key member),
    fun text member => listed (clean.superseded text member), ?_, ?_⟩
  · rintro text (copied | ⟨held, member, shown, same⟩)
    · refine clean.sources text (.inl ?_)
      cases copied with
      | indexed listed => exact .indexed listed
      | searchable listed => exact .searchable listed
      | batched waiting => exact .batched waiting
      | gathered gathered => exact .gathered gathered
      | archived held =>
          obtain ⟨held, copy, shown, same⟩ := held
          exact .archived ⟨held, copy.of_files rfl (.inr rfl), shown, same⟩
    · rcases mem_insert.mp member with earlier | ⟨ofKind, rfl⟩
      · exact clean.sources text (.inr ⟨held, earlier, shown, same⟩)
      · obtain ⟨other, msgId, said⟩ := text
        obtain rfl : held.msgId = msgId := by
          rcases same with whole | read
          · exact (Text.mk.inj whole).2.1
          · exact (Text.mk.inj read).2.1
        cases ofKind
        -- nobody has seen a message with this id
        refine ⟨fun member => ?_, fun member => ?_⟩
        · obtain ⟨other, stored, same⟩ := clean.recalled _ member
          exact (fresh other stored).2 same
        · obtain ⟨other, stored, same⟩ := clean.superseded _ member
          exact (fresh other stored).2 same
  · intro response answered
    rw [quiet] at answered
    cases answered

theorem Clean.sync {operation : EsSyncWorker.Operation} {index : Worker} (clean : Clean config state)
    (quiet : state.response = none)
    (stepped : state.index.step config.batch state.tables operation = some index) :
    Clean config { state with index } := by
  refine clean.of_sources clean.sound clean.recorded rfl rfl rfl ?_ fun _ answered => ?_
  · have indexes {text : Text} (copied : InIndex index.accepted text ∨ InBatch index text) : Source state text := by
      rcases indexed_of_step stepped copied with listed | waiting | present
      · exact .inl (.indexed listed)
      · exact .inl (.batched waiting)
      · exact .inr present
    rintro text (copied | present)
    · cases copied with
      | indexed listed => exact indexes (.inl listed)
      | searchable listed => exact .inl (.searchable listed)
      | batched waiting => exact indexes (.inr waiting)
      | gathered gathered => exact .inl (.gathered gathered)
      | archived held => exact .inl (.archived held)
    · exact .inr present
  · rw [quiet] at answered
    cases answered

/-- A step of the archive worker or of the query server. -/
theorem Clean.archived {request : ArchiveQuery.Request} {archive : ArchiveQuery.Server} (clean : Clean config state)
    (quiet : state.response = none) (ofArchive : ∀ event, request = .worker event → event.OfWorker)
    (handled : ArchiveQuery.handle config.calendar state.archive request = some archive) :
    Clean config { state with archive } := by
  have sound : ArchiveQuery.Sound config.calendar archive := clean.sound.step handled
  have others (recorded : Recorded archive.worker)
      (stored : archive.worker.stored = state.archive.worker.stored)
      (held : ∀ text, InArchive archive.worker text → Source state text)
      (present : ∀ text, Present archive.worker.committed.messages text → Present state.tables text) :
      Clean config { state with archive } := by
    refine clean.of_sources sound recorded stored rfl rfl ?_ fun _ answered => ?_
    · rintro text (copied | row)
      · cases copied with
        | indexed listed => exact .inl (.indexed listed)
        | searchable listed => exact .inl (.searchable listed)
        | batched waiting => exact .inl (.batched waiting)
        | gathered gathered => exact .inl (.gathered gathered)
        | archived copy => exact held text copy
      · exact .inr (present text row)
    · rw [quiet] at answered
      cases answered
  cases request with
  | worker event =>
      obtain ⟨worker, stepped, rfl⟩ := Option.map_eq_some_iff.mp handled
      obtain ⟨stored, deletes⟩ := ArchiveWorker.deletes_of_step (ofArchive event rfl) stepped
      refine others (clean.recorded.step stepped) stored ?_ ?_
      · intro text copy
        rcases archived_of_step stepped copy with earlier | present
        · exact .inl (.archived earlier)
        · exact .inr present
      · exact fun text ⟨row, member, shown, same⟩ => ⟨row, deletes _ row member, shown, same⟩
  | query conversation before limit =>
      cases handled
      exact others clean.recorded rfl (fun _ copy => .inl (.archived copy)) fun _ present => present
  | restart =>
      cases handled
      exact others clean.recorded rfl (fun _ copy => .inl (.archived copy)) fun _ present => present

theorem InCall.update [DecidableEq Call] {calls : Call → Option Phase} {call : Call} {phase : Option Phase} {text : Text}
    (gathered : InCall (Function.update calls call phase) text) :
    InCall calls text ∨ ∃ after, phase = some after ∧ ∃ entry ∈ after.messages, entry.text = text := by
  obtain ⟨other, after, handling, entry, member, same⟩ := gathered
  rw [Function.update_apply] at handling
  split at handling
  · exact .inr ⟨after, handling, entry, member, same⟩
  · exact .inl ⟨other, after, handling, entry, member, same⟩

/-- A step of a handler; the query server only changes its cache. -/
theorem Clean.handles [DecidableEq Call] {call : Call} {phase : Option Phase} {archive : ArchiveQuery.Server}
    {response : Option Response} (clean : Clean config state)
    (sound : ArchiveQuery.Sound config.calendar archive) (worker : archive.worker = state.archive.worker)
    (gathers : ∀ after, phase = some after → ∀ entry ∈ after.messages, Source state entry.text)
    (answers : ∀ sent, response = some sent → ∀ entry ∈ sent.messages, Source state entry.text) :
    Clean config { state with archive, calls := Function.update state.calls call phase, response } := by
  refine clean.of_sources sound ?_ ?_ rfl rfl ?_ answers
  · dsimp only
    rw [worker]
    exact clean.recorded
  · dsimp only
    rw [worker]
  · rintro text (copied | present)
    · cases copied with
      | indexed listed => exact .inl (.indexed listed)
      | searchable listed => exact .inl (.searchable listed)
      | batched waiting => exact .inl (.batched waiting)
      | gathered gathered =>
          rcases gathered.update with earlier | ⟨after, now, entry, member, rfl⟩
          · exact .inl (.gathered earlier)
          · exact gathers after now entry member
      | archived held =>
          dsimp only at held
          rw [worker] at held
          exact .inl (.archived held)
    · rw [State.tables] at present
      dsimp only at present
      rw [worker] at present
      exact .inr present

theorem queried_worker {archive : ArchiveQuery.Server} {phase : Phase} {reply : Reply} :
    (queried archive phase reply).worker = archive.worker := by
  unfold queried
  split <;> rfl

theorem sound_queried {calendar : ArchiveWorker.Calendar} {archive : ArchiveQuery.Server} {phase : Phase}
    {reply : Reply} (sound : ArchiveQuery.Sound calendar archive) :
    ArchiveQuery.Sound calendar (queried archive phase reply) := by
  unfold queried
  split
  · exact ⟨sound.indexed, sound.coherent.walk⟩
  · exact sound

/-- What becomes visible to searches has been indexed. -/
theorem Clean.refresh (clean : Clean config state) (quiet : state.response = none) :
    Clean config { state with searchable := state.index.accepted } := by
  refine clean.of_sources clean.sound clean.recorded rfl rfl rfl ?_ fun _ answered => ?_
  · rintro text (copied | present)
    · cases copied with
      | indexed listed => exact .inl (.indexed listed)
      | searchable listed => exact .inl (.indexed listed)
      | batched waiting => exact .inl (.batched waiting)
      | gathered gathered => exact .inl (.gathered gathered)
      | archived held => exact .inl (.archived held)
    · exact .inr present
  · rw [quiet] at answered
    cases answered

theorem messages_handleSearchMessages {userId : Int} {keyword : String} :
    (handleSearchMessages config userId keyword).messages = [] := by
  unfold handleSearchMessages
  split
  · rfl
  · split <;> rfl

theorem Clean.advance [DecidableEq Call] {event : Event Call} (clean : Clean config state)
    (quiet : state.response = none) (finds : FindsNoCopy state event)
    (advanced : advance config state event = some next) : Clean config next := by
  have unanswered (sent : Response) (answered : state.response = some sent) :
      ∀ entry ∈ sent.messages, Source state entry.text := by
    rw [quiet] at answered
    cases answered
  cases event with
  | save kind row =>
      simp only [Responses.advance] at advanced
      split at advanced
      · cases advanced
      · obtain ⟨archive, handled, rfl⟩ := Option.map_eq_some_iff.mp advanced
        exact clean.save quiet handled
  | recallMessage msgId fromUserId now connected answers =>
      cases advanced
      exact clean.recallMessage quiet finds
  | editMessage msgId editorId newBody msgKind now answers =>
      cases advanced
      exact clean.editMessage quiet finds
  | sync operation =>
      obtain ⟨index, stepped, rfl⟩ := Option.map_eq_some_iff.mp advanced
      exact clean.sync quiet stepped
  | refresh =>
      cases advanced
      exact clean.refresh quiet
  | archive request =>
      cases request with
      | worker event =>
          simp only [Responses.advance] at advanced
          split at advanced
          · rename_i ofWorker
            obtain ⟨archive, handled, rfl⟩ := Option.map_eq_some_iff.mp advanced
            exact clean.archived quiet (fun other same => by cases same; exact ofWorker) handled
          · cases advanced
      | query conversation before limit =>
          simp only [Responses.advance] at advanced
          obtain ⟨archive, handled, rfl⟩ := Option.map_eq_some_iff.mp advanced
          exact clean.archived quiet (fun _ absurdly => by cases absurdly) handled
      | restart =>
          simp only [Responses.advance] at advanced
          obtain ⟨archive, handled, rfl⟩ := Option.map_eq_some_iff.mp advanced
          exact clean.archived quiet (fun _ absurdly => by cases absurdly) handled
  | request call userId request =>
      simp only [Responses.advance] at advanced
      split at advanced
      · cases advanced
      · cases advanced
        refine clean.handles clean.sound rfl ?_ unanswered
        intro after begun entry member
        cases begun
        cases request with
        | history peerId groupId before => cases member
        | search keyword =>
            rw [messages_handleSearchMessages] at member
            cases member
  | reply call reply =>
      obtain ⟨phase, handling, answered⟩ := Option.bind_eq_some_iff.mp advanced
      obtain ⟨after, received, rfl⟩ := Option.map_eq_some_iff.mp answered
      refine clean.handles (sound_queried clean.sound) queried_worker ?_ unanswered
      intro other same entry member
      cases same
      exact source_of_receive clean.sound handling received member
  | send call =>
      simp only [Responses.advance] at advanced
      split at advanced
      · rename_i response handling
        cases advanced
        refine clean.handles clean.sound rfl nofun ?_
        intro sent same entry member
        cases same
        exact .inl (.gathered ⟨call, _, handling, entry, member, rfl⟩)
      · cases advanced

theorem clean_init : Clean config ({} : State Call) where
  sound := ⟨ArchiveWorker.indexed_init, nofun⟩
  recorded := ArchiveWorker.recorded_init
  recalled := nofun
  superseded := nofun
  sources := by
    rintro text (copied | ⟨_, absurdly, _⟩)
    · exact absurd copied (not_copied_of_fresh rfl rfl rfl (fun _ => rfl) (fun _ => rfl) rfl)
    · cases absurdly
  response := nofun

/-- As long as every recall and every edit that is reported finds no copy of what
it takes back, no answer that is sent afterwards has it. -/
theorem serves_current [DecidableEq Call] (config : Config) {events : List (Event Call)}
    (met : (machine config).Meets FindsNoCopy {} events) : (machine config).Always ServesCurrent {} events := by
  refine (Machine.always_of_meets (Clean config) clean_init ?_ met).mono fun _ clean => clean.response
  intro state event next clean finds stepped
  have found : FindsNoCopy { state with response := none } event := by
    cases event <;> exact finds
  exact clean.silent.advance rfl found stepped

/-- Nothing takes a document out of the index: as long as it is searchable, its
sender finds it. -/
theorem stale_document_served [DecidableEq Call] {call : Call} {doc : Document} {keyword : String}
    (held : indexed state.searchable doc.msgId = some doc) (stale : ¬ Allowed state (documentText doc))
    (enabled : config.esClient = true) (long : 2 ≤ keyword.utf8ByteSize)
    (analyzed : config.analyzed keyword doc.body = true) (free : state.calls call = none) :
    ∃ after, (machine config).run state [.request call doc.senderId (.search keyword),
      .reply call (.elasticsearch (some [doc])), .send call] = some after ∧ ¬ ServesCurrent after := by
  have hits : Hits config state.searchable doc.senderId keyword [doc] := by
    refine ⟨by rw [List.length_singleton]; omega, List.pairwise_singleton _ _, ?_⟩
    simp [held, analyzed, filtered]
  let response : Response := { source := some "elasticsearch", messages := [documentEntry doc] }
  let asking := Function.update state.calls call (some (.searching doc.senderId keyword))
  let ready := Function.update asking call (some (.ready response))
  have asked : (machine config).step state (.request call doc.senderId (.search keyword)) =
      some { state with response := none, calls := asking } := by
    simp only [machine, Responses.advance, free, handleSearchMessages, if_neg (Nat.not_lt.mpr long), enabled, if_true,
      asking]
  have answered : (machine config).step { state with response := none, calls := asking }
      (.reply call (.elasticsearch (some [doc]))) = some { state with response := none, calls := ready } := by
    have handling : asking call = some (.searching doc.senderId keyword) := Function.update_self ..
    simp only [machine, Responses.advance, handling, Option.bind_some, receive, if_pos hits, Option.map_some]
    rfl
  have sent : (machine config).step { state with response := none, calls := ready } (.send call) =
      some { state with response := some response, calls := Function.update ready call none } := by
    have handling : ready call = some (.ready response) := Function.update_self ..
    simp only [machine, Responses.advance, handling]
  refine ⟨_, Machine.run_cons_eq_some.mpr ⟨_, asked, Machine.run_cons_eq_some.mpr ⟨_, answered,
    Machine.run_cons_eq_some.mpr ⟨_, sent, rfl⟩⟩⟩, fun serves => ?_⟩
  exact stale (serves response rfl _ List.mem_cons_self)

def searching : Config where
  batch := 100
  calendar := ArchiveWorker.thirtyDays
  esClient := true
  archiveQueryHost := true
  like keyword content := content = keyword
  analyzed keyword body := body = keyword

def answered : Answers := ⟨true, true, true, fun _ => true, .committed⟩

/-- A message is recalled and another one edited before the sync worker runs. -/
def changedEarly : List (Event Unit) :=
  [.save .privateChat ArchiveWorker.greeting, .save .privateChat ArchiveQuery.answer,
    .recallMessage "m1" 7 4000 true (fun _ => .committed), .editMessage "m2" 7 "welcome" 0 4000 answered,
    .sync .readCursor, .sync .fetch, .sync (.bulk fun _ => true), .refresh, .request () 8 (.search "welcome"),
    .reply () (.elasticsearch (some [⟨"m2", 7, 8, "welcome", .privateChat, 3000⟩])), .send ()]

theorem serves_current_early : ∃ state, (machine searching).run {} changedEarly = some state ∧
    state.recalled = [(.privateChat, "m1")] ∧ state.superseded = [⟨.privateChat, "m2", "hello"⟩] ∧
    ServesCurrent state := by
  have met : (machine searching).Meets FindsNoCopy ({} : State Unit) changedEarly := by
    refine .cons rfl trivial (.cons rfl trivial (.cons rfl ?_ (.cons rfl ?_ ?_)))
    · exact fun _ _ _ _ _ _ _ => not_copied_of_fresh rfl rfl rfl (fun _ => rfl) (fun _ => rfl) rfl
    · exact fun _ _ _ _ _ _ _ _ _ => ⟨fun _ _ => not_copied_of_fresh rfl rfl rfl (fun _ => rfl) (fun _ => rfl) rfl,
        .inl (by decide)⟩
    · exact Machine.meets_of_forall (by simp [FindsNoCopy])
  exact ⟨_, rfl, rfl, rfl, (serves_current searching met).atEnd rfl⟩

/-- The message is in the index when it is recalled, or changed. -/
def changedLate (change : Event Unit) : List (Event Unit) :=
  [.save .privateChat ArchiveWorker.greeting, .sync .readCursor, .sync .fetch, .sync (.bulk fun _ => true), .refresh,
    change, .request () 8 (.search "hello"),
    .reply () (.elasticsearch (some [EsSyncWorker.document .privateChat ArchiveWorker.greeting])), .send ()]

/-- The new text goes on after a NUL. -/
def changedBehindNul : List (Event Unit) :=
  [.save .privateChat ArchiveWorker.greeting, .editMessage "m1" 7 "hello\x00!" 0 4000 answered,
    .request () 7 (.history "8" "" ""), .reply () (.mysql true fun _ => false), .reply () (.archive false), .send ()]

/-- The search still finds it, with its old text.  The history shows the old
text of a message whose new text starts with it and a NUL. -/
theorem recalled_message_found :
    (¬ (machine searching).Always ServesCurrent {}
      (changedLate (.recallMessage "m1" 7 4000 true fun _ => .committed))) ∧
    (¬ (machine searching).Always ServesCurrent {} (changedLate (.editMessage "m1" 7 "welcome" 0 4000 answered))) ∧
    ¬ (machine searching).Always ServesCurrent {} changedBehindNul := by
  refine ⟨?_, ?_, ?_⟩
  · intro always
    exact (always.atEnd rfl _ rfl _ List.mem_cons_self).1 (by decide)
  · intro always
    exact (always.atEnd rfl _ rfl _ List.mem_cons_self).2 (by decide)
  · intro always
    exact (always.atEnd rfl _ rfl _ List.mem_cons_self).2 (by decide)

end MuduoIm.Server.Responses
