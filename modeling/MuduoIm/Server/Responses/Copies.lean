import MuduoIm.Server.Responses

namespace MuduoIm.Server.Responses

open MuduoIm.Data MuduoIm.Transition MuduoIm.Tools
open MuduoIm.Tools.ArchiveQuery (Conversation)
open MuduoIm.Tools.ArchiveWorker (Held)
open MuduoIm.Tools.EsSyncWorker (Document Worker)

/-! # Where the text of an answer comes from

The workers and the handlers read rows that are not recalled and keep what they
have read.  Each copy goes back to such a row or to another copy.
-/

/-- The text of a row that is not recalled, as the workers copy it or as the
server reads it. -/
def Present (tables : Tools.Tables) (text : Text) : Prop :=
  ∃ row ∈ tables text.kind, row.recalled = false ∧ (rowText text.kind row = text ∨ shownText text.kind row = text)

def InIndex (accepted : List Document) (text : Text) : Prop :=
  ∃ doc, indexed accepted doc.msgId = some doc ∧ documentText doc = text

/-- A document that waits for the next bulk request. -/
def InBatch (worker : Worker) (text : Text) : Prop :=
  ∃ docs cursor, worker.phase = .fetched docs cursor ∧ ∃ doc ∈ docs, documentText doc = text

def InArchive (worker : ArchiveWorker.State) (text : Text) : Prop :=
  ∃ row, Held worker text.kind row ∧ row.recalled = false ∧ rowText text.kind row = text

variable {Call : Type}

def InCall (calls : Call → Option Phase) (text : Text) : Prop :=
  ∃ call phase, calls call = some phase ∧ ∃ entry ∈ phase.messages, entry.text = text

inductive Copy (archive : ArchiveWorker.State) (index : Worker) (visible : List Document)
    (calls : Call → Option Phase) (text : Text) : Prop where
  | indexed (listed : InIndex index.accepted text)
  | searchable (listed : InIndex visible text)
  | batched (waiting : InBatch index text)
  | gathered (gathered : InCall calls text)
  | archived (held : InArchive archive text)

def Copied (state : State Call) (text : Text) : Prop :=
  Copy state.archive.worker state.index state.searchable state.calls text

/-! ## What is copied -/

section

variable {tables : Tools.Tables} {text : Text} {kind : Kind} {row : Row}

theorem Present.of_row (member : row ∈ tables kind) (shown : row.recalled = false) :
    Present tables (rowText kind row) :=
  ⟨row, member, shown, .inl rfl⟩

theorem Present.of_read (member : row ∈ tables kind) (shown : row.recalled = false) :
    Present tables (shownText kind row) :=
  ⟨row, member, shown, .inr rfl⟩

theorem InIndex.append {accepted docs : List Document} (listed : InIndex (accepted ++ docs) text) :
    InIndex accepted text ∨ ∃ doc ∈ docs, documentText doc = text := by
  obtain ⟨doc, held, same⟩ := listed
  rw [indexed, List.reverse_append, List.find?_append] at held
  cases newer : docs.reverse.find? fun other => other.msgId = doc.msgId with
  | none =>
      rw [newer, Option.none_or] at held
      exact .inl ⟨doc, held, same⟩
  | some other =>
      rw [newer, Option.some_or, Option.some.injEq] at held
      subst held
      exact .inr ⟨other, List.mem_reverse.mp (List.mem_of_find?_eq_some newer), same⟩

theorem present_of_fetchNew {batch : Nat} {cursor : Kind → Nat} {doc : Document}
    (member : doc ∈ (EsSyncWorker.fetchNew batch tables cursor).1) : Present tables (documentText doc) := by
  obtain ⟨kind, row, fetched, rfl⟩ := EsSyncWorker.mem_fetchNew.mp member
  obtain ⟨listed, _, shown⟩ := EsSyncWorker.mem_fetchRows fetched
  exact .of_row listed shown

/-- What the sync worker has after a step, it had before or has just read. -/
theorem indexed_of_step {batch : Nat} {worker later : Worker} {operation : EsSyncWorker.Operation}
    (stepped : worker.step batch tables operation = some later)
    (copied : InIndex later.accepted text ∨ InBatch later text) :
    InIndex worker.accepted text ∨ InBatch worker text ∨ Present tables text := by
  have idle {accepted : List Document} {cursor : Kind → Nat}
      (copied : InIndex accepted text ∨ InBatch ⟨cursor, accepted, .idle⟩ text) : InIndex accepted text := by
    rcases copied with listed | ⟨docs, cursor, absurdly, _⟩
    · exact listed
    · cases absurdly
  have accepted {docs : List Document} {new : Kind → Nat} {accepts : Document → Bool}
      (phase : worker.phase = .fetched docs new) (listed : InIndex (worker.accepted ++ docs.filter accepts) text) :
      InIndex worker.accepted text ∨ InBatch worker text ∨ Present tables text := by
    rcases listed.append with earlier | ⟨doc, member, same⟩
    · exact .inl earlier
    · exact .inr (.inl ⟨docs, new, phase, doc, List.mem_of_mem_filter member, same⟩)
  cases operation with
  | readCursor =>
      simp only [Worker.step] at stepped
      split at stepped <;> cases stepped
      rcases copied with listed | ⟨docs, cursor, absurdly, _⟩
      · exact .inl listed
      · cases absurdly
  | fetch =>
      simp only [Worker.step] at stepped
      split at stepped <;> cases stepped
      rcases copied with listed | ⟨docs, new, phase, doc, member, same⟩
      · exact .inl listed
      · dsimp only at phase
        split at phase
        · cases phase
        · cases phase
          exact .inr (.inr (same ▸ present_of_fetchNew member))
  | bulk accepts =>
      simp only [Worker.step] at stepped
      split at stepped <;> cases stepped
      rename_i docs new phase
      rcases copied with listed | ⟨docs, cursor, absurdly, _⟩
      · exact accepted phase listed
      · cases absurdly
  | bulkFails accepts =>
      simp only [Worker.step] at stepped
      split at stepped <;> cases stepped
      rename_i docs new phase
      exact accepted phase (idle copied)
  | hset =>
      simp only [Worker.step] at stepped
      split at stepped <;> cases stepped
      exact .inl (idle copied)
  | crash =>
      cases stepped
      exact .inl (idle copied)
  | restore cursor =>
      simp only [Worker.step] at stepped
      split at stepped <;> cases stepped
      exact copied.imp_right .inl

theorem archived_of_step {calendar : ArchiveWorker.Calendar} {worker later : ArchiveWorker.State}
    {event : ArchiveWorker.Event} (stepped : (ArchiveWorker.machine calendar).step worker event = some later)
    (copied : InArchive later text) : InArchive worker text ∨ Present worker.committed.messages text := by
  obtain ⟨row, held, shown, same⟩ := copied
  rcases held.of_step stepped with earlier | member
  · exact .inl ⟨row, earlier, shown, same⟩
  · exact .inr ⟨row, member, shown, .inl same⟩

/-! ## What a handler receives -/

theorem present_of_getHistory {conversation : Conversation} {limit : Nat} {before : Int} {entry : Entry}
    (member : entry ∈ getHistory tables conversation limit before) : Present tables entry.text := by
  have selected (member : entry ∈ selectHistory tables conversation limit before) : Present tables entry.text := by
    obtain ⟨row, paged, rfl⟩ := List.mem_map.mp member
    obtain ⟨listed, chosen⟩ := mem_of_mem_page paged
    rw [MessageQueries.Row.listed, Bool.and_eq_true, Bool.and_eq_true, Bool.not_eq_true'] at chosen
    exact .of_read listed chosen.2.1
  cases conversation with
  | privateChat userId peerId => exact selected member
  | group groupId => exact selected member

theorem present_of_found {config : Config} {userId : Int} {joined : Int → Bool} {keyword : String} {limit : Nat}
    {entry : Entry} (member : entry ∈ found config tables userId joined keyword limit kind) :
    Present tables entry.text := by
  obtain ⟨row, paged, rfl⟩ := List.mem_map.mp member
  obtain ⟨listed, chosen⟩ := mem_of_mem_page paged
  rw [Bool.and_eq_true, Bool.not_eq_true'] at chosen
  exact .of_read listed chosen.2

theorem inArchive_of_queryArchive {calendar : ArchiveWorker.Calendar} {archive : ArchiveQuery.Server}
    {conversation : Conversation} {before : Int} {messages : List Entry} {entry : Entry}
    (sound : ArchiveQuery.Sound calendar archive) (member : entry ∈ queryArchive archive conversation before messages) :
    InArchive archive.worker entry.text := by
  obtain ⟨found, walked, rfl⟩ := List.mem_map.mp member
  rcases ArchiveQuery.mem_walk sound.coherent walked with absurdly | ⟨month, rows, read, row, held, listed, rfl⟩
  · cases absurdly
  · obtain ⟨uri, ofKind, written⟩ := ArchiveQuery.exists_file_of_readPartition sound.indexed read
    rw [ArchiveQuery.listed, Bool.and_eq_true, Bool.and_eq_true, Bool.not_eq_true'] at listed
    exact ⟨row, .file uri rows written ofKind held, listed.1.2, rfl⟩

end

variable {config : Config} {state next : State Call} {text : Text}

/-- Where a message of an answer comes from. -/
def Source (state : State Call) (text : Text) : Prop := Copied state text ∨ Present state.tables text

theorem source_of_receive {call : Call} {phase after : Phase} {reply : Reply} {entry : Entry}
    (sound : ArchiveQuery.Sound config.calendar state.archive) (handling : state.calls call = some phase)
    (received : receive config state phase reply = some after) (member : entry ∈ after.messages) :
    Source state entry.text := by
  have gathered (member : entry ∈ phase.messages) : Source state entry.text :=
    .inl (.gathered ⟨call, phase, handling, entry, member, rfl⟩)
  have fromHistory {conversation : Conversation} {before : Int} {messages : List Entry}
      (member : entry ∈ (afterHistory config conversation before messages).messages) : entry ∈ messages := by
    unfold afterHistory at member
    split at member
    · exact member
    · exact member
  unfold receive at received
  split at received
  · rename_i userId keyword hits
    split at received
    · rename_i answers
      cases received
      obtain ⟨doc, listed, rfl⟩ := List.mem_map.mp member
      exact .inl (.searchable ⟨doc, (answers.2.2 doc listed).1, rfl⟩)
    · cases received
  · cases received
    cases member
  · cases received
    cases member
  · rename_i userId keyword result joined
    cases received
    cases result with
    | false => cases member
    | true => exact .inr (present_of_found member)
  · rename_i userId keyword messages result joined
    cases received
    rcases List.mem_append.mp member with earlier | new
    · exact gathered earlier
    · cases result with
      | false => cases new
      | true => exact .inr (present_of_found new)
  · cases received
    cases fromHistory member
  · rename_i conversation before result joined
    cases received
    cases result with
    | false => cases fromHistory member
    | true => exact .inr (present_of_getHistory (fromHistory member))
  · rename_i conversation before messages answered
    cases received
    rcases List.mem_append.mp member with earlier | new
    · exact gathered earlier
    · cases answered with
      | false => cases new
      | true => exact .inl (.archived (inArchive_of_queryArchive sound new))
  · cases received

/-- The workers and the handlers have not read anything yet. -/
theorem not_copied_of_fresh (accepted : state.index.accepted = []) (searchable : state.searchable = [])
    (phase : state.index.phase = .idle) (calls : ∀ call, state.calls call = none)
    (files : ∀ uri, state.archive.worker.files uri = none) (run : state.archive.worker.run = none) :
    ¬ Copied state text := by
  intro copied
  cases copied with
  | indexed listed =>
      obtain ⟨doc, held, _⟩ := listed
      rw [accepted] at held
      cases held
  | searchable listed =>
      obtain ⟨doc, held, _⟩ := listed
      rw [searchable] at held
      cases held
  | batched waiting =>
      obtain ⟨docs, cursor, fetched, _⟩ := waiting
      rw [phase] at fetched
      cases fetched
  | gathered gathered =>
      obtain ⟨call, phase, handling, _⟩ := gathered
      rw [calls] at handling
      cases handling
  | archived held =>
      obtain ⟨row, held, _⟩ := held
      cases held with
      | file uri rows written _ _ =>
          rw [files] at written
          cases written
      | selected other rows running _ _ _ =>
          rw [run] at running
          cases running
      | snapshot other db running _ _ _ =>
          rw [run] at running
          cases running

end MuduoIm.Server.Responses
