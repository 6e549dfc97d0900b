import MuduoIm.Server.MessageQueue.Flush

namespace MuduoIm.Server.MessageQueue

open MuduoIm.Transition

/-! # Conservation of queued messages

LRANGE and LTRIM are two commands, and LTRIM counts from the head of the list,
where `queueMessage` pushes.  A message is therefore lost exactly when a trim
removes a text that no flush has read.
-/

variable {Call : Type}

/-- Every message ever pushed is in the queue, in the local batch of a flush
that has read it and not yet saved it, or in its table. -/
def Conserved (state : State Call) : Prop :=
  ∀ item ∈ state.pushed,
    .item item ∈ state.store.queue ∨ InBatch state.flushes (.item item) ∨
      item.StoredIn state.store.tables

/-- What an LTRIM is about to remove has been returned by some LRANGE. -/
def TrimsOnlyRead (state : State Call) : Event Call → Prop
  | .ltrim call =>
      ∀ text ∈ state.store.queue.take (state.flushes call).batch.length, text ∈ state.read
  | _ => True

/-- What holds in every run: where the copies of a message come from, and that
a message once read is held by a flush until it is stored. -/
structure Traced (state : State Call) : Prop where
  distinct : state.store.queue.Nodup
  queued : ∀ text ∈ state.store.queue, ∃ item ∈ state.pushed, text = .item item
  readPushed : ∀ text ∈ state.read, ∃ item ∈ state.pushed, text = .item item
  batchRead : ∀ text, InBatch state.flushes text → text ∈ state.read
  storedRead : ∀ item : QueueItem, item.StoredIn state.store.tables → .item item ∈ state.read
  readHeld : ∀ item, .item item ∈ state.read →
    InBatch state.flushes (.item item) ∨ item.StoredIn state.store.tables
  unique : ∀ first ∈ state.pushed, ∀ second ∈ state.pushed,
    first.msgId = second.msgId → first = second

theorem traced_init : Traced ({} : State Call) where
  distinct := List.nodup_nil
  queued := by simp
  readPushed := by simp
  batchRead := by
    intro text given
    obtain ⟨call, member⟩ := given
    simp [FlushPhase.batch] at member
  storedRead := by
    intro item stored
    cases item <;> simp [QueueItem.StoredIn] at stored
  readHeld := by simp
  unique := by simp

variable {state next : State Call} {call : Call} {item : QueueItem}

theorem Traced.pushed_of_read (traced : Traced state) (read : .item item ∈ state.read) : item ∈ state.pushed := by
  obtain ⟨source, pushed, same⟩ := traced.readPushed _ read
  cases same
  exact pushed

theorem Traced.storedPushed (traced : Traced state)
    (stored : item.StoredIn state.store.tables) : item ∈ state.pushed :=
  traced.pushed_of_read (traced.storedRead _ stored)

/-- After its save a message of the batch is stored: by this save, or by the
earlier save of another flush that read it too. -/
theorem Traced.saved_stored {text : QueueText} (traced : Traced state) (read : text ∈ state.read)
    (same : text = .item item) : item.StoredIn (state.store.tables.saveText true text).2 := by
  subst same
  refine MessageTables.saveText_stores (fun other stored sameId => ?_)
  exact traced.unique other (traced.storedPushed stored) item (traced.pushed_of_read read) sameId

variable [DecidableEq Call]

theorem Traced.queueMessage (traced : Traced state)
    (stepped : step state (.queueMessage item) = some next) : Traced next := by
  obtain ⟨fresh, rfl⟩ := queueMessage_eq_some stepped
  have absent : item ∉ state.pushed := fun member => fresh item member rfl
  refine { traced with distinct := ?_, queued := ?_, readPushed := ?_, unique := ?_ }
  · refine List.nodup_cons.mpr ⟨fun member => ?_, traced.distinct⟩
    obtain ⟨source, pushed, same⟩ := traced.queued _ member
    cases same
    exact absent pushed
  · intro text member
    rcases List.mem_cons.mp member with rfl | earlier
    · exact ⟨item, List.mem_cons_self, rfl⟩
    · obtain ⟨source, pushed, same⟩ := traced.queued text earlier
      exact ⟨source, List.mem_cons_of_mem _ pushed, same⟩
  · intro text member
    obtain ⟨source, pushed, same⟩ := traced.readPushed text member
    exact ⟨source, List.mem_cons_of_mem _ pushed, same⟩
  · intro first firstPushed second secondPushed same
    rcases List.mem_cons.mp firstPushed with rfl | firstEarlier <;>
      rcases List.mem_cons.mp secondPushed with rfl | secondEarlier
    · rfl
    · exact absurd same.symm (fresh second secondEarlier)
    · exact absurd same (fresh first firstEarlier)
    · exact traced.unique first firstEarlier second secondEarlier same

theorem Traced.lrange (traced : Traced state)
    (stepped : step state (.lrange call) = some next) : Traced next := by
  obtain ⟨idle, rfl | rfl⟩ := lrange_eq_some stepped
  · exact traced
  have unused : ∀ text, text ∉ (state.flushes call).batch := by simp [idle, FlushPhase.batch]
  refine { traced with readPushed := ?_, batchRead := ?_, storedRead := ?_, readHeld := ?_ }
  · intro text member
    rcases List.mem_append.mp member with earlier | fetched
    · exact traced.readPushed text earlier
    · exact traced.queued text (List.mem_of_mem_take fetched)
  · intro text held
    rcases inBatch_update held with fetched | earlier
    · exact List.mem_append_right _ fetched
    · exact List.mem_append_left _ (traced.batchRead text earlier)
  · exact fun other stored => List.mem_append_left _ (traced.storedRead other stored)
  · intro other member
    rcases List.mem_append.mp member with earlier | fetched
    · rcases traced.readHeld other earlier with held | stored
      · exact .inl (held.update (fun used => absurd used (unused _)))
      · exact .inr stored
    · exact .inl (inBatch_of_member fetched)

theorem Traced.ltrim (traced : Traced state)
    (stepped : step state (.ltrim call) = some next) : Traced next := by
  obtain ⟨messages, phase, rfl⟩ := ltrim_eq_some stepped
  refine { traced with distinct := ?_, queued := ?_, batchRead := ?_, readHeld := ?_ }
  · exact traced.distinct.sublist (List.drop_sublist _ _)
  · exact fun text member => traced.queued text (List.mem_of_mem_drop member)
  · intro text held
    rcases inBatch_update held with member | earlier
    · exact traced.batchRead text ⟨call, by rw [phase]; exact member⟩
    · exact traced.batchRead text earlier
  · intro other member
    rcases traced.readHeld other member with held | stored
    · exact .inl (held.update (by rw [phase]; exact id))
    · exact .inr stored

theorem Traced.save (traced : Traced state)
    (stepped : step state (.save call) = some next) : Traced next := by
  obtain ⟨text, rest, successCount, failCount, phase, current, remaining, rfl⟩ := save_eq_some stepped
  have holds : InBatch state.flushes text := ⟨call, by rw [current]; exact List.mem_cons_self⟩
  refine { traced with batchRead := ?_, storedRead := ?_, readHeld := ?_ }
  · intro other held
    rcases inBatch_update held with member | earlier
    · rw [remaining] at member
      exact traced.batchRead other ⟨call, by rw [current]; exact List.mem_cons_of_mem _ member⟩
    · exact traced.batchRead other earlier
  · intro other stored
    rcases MessageTables.saveText_adds stored with earlier | added
    · exact traced.storedRead other earlier
    · exact added ▸ traced.batchRead text holds
  · intro other member
    by_cases same : text = .item other
    · exact .inr (traced.saved_stored (traced.batchRead text holds) same)
    · rcases traced.readHeld other member with held | stored
      · refine .inl (held.update (fun used => ?_))
        rw [current] at used
        rcases List.mem_cons.mp used with first | later
        · exact absurd first.symm same
        · rw [remaining]
          exact later
      · exact .inr (MessageTables.saveText_keeps stored)

theorem Traced.finish (traced : Traced state)
    (stepped : step state (.finish call) = some next) : Traced next := by
  obtain ⟨successCount, failCount, current, rfl⟩ := finish_eq_some stepped
  have empty : (state.flushes call).batch = [] := by rw [current]; rfl
  refine { traced with batchRead := ?_, readHeld := ?_ }
  · intro text held
    rcases inBatch_update held with member | earlier
    · exact absurd member (by simp [FlushPhase.batch])
    · exact traced.batchRead text earlier
  · intro other member
    rcases traced.readHeld other member with held | stored
    · exact .inl (held.update (by simp [empty]))
    · exact .inr stored

theorem Traced.step {event : Event Call} (traced : Traced state)
    (stepped : (machine Call).step state event = some next) : Traced next := by
  cases event with
  | queueMessage item => exact traced.queueMessage stepped
  | lrange call => exact traced.lrange stepped
  | ltrim call => exact traced.ltrim stepped
  | save call => exact traced.save stepped
  | finish call => exact traced.finish stepped

/-- Reading keeps every message; a push, a save and the end of a flush too. -/
theorem Conserved.step {event : Event Call} (conserved : Conserved state) (traced : Traced state)
    (stepped : (machine Call).step state event = some next) (other : ∀ call, event ≠ .ltrim call) :
    Conserved next := by
  cases event with
  | queueMessage item =>
      obtain ⟨_, rfl⟩ := queueMessage_eq_some stepped
      intro message member
      rcases List.mem_cons.mp member with rfl | earlier
      · exact .inl List.mem_cons_self
      · exact (conserved message earlier).imp_left (List.mem_cons_of_mem _)
  | lrange call =>
      obtain ⟨idle, rfl | rfl⟩ := lrange_eq_some stepped
      · exact conserved
      · intro message member
        exact (conserved message member).imp_right
          (Or.imp_left (fun held => held.update (by simp [idle, FlushPhase.batch])))
  | ltrim call => exact absurd rfl (other call)
  | save call =>
      have later := traced.save stepped
      obtain ⟨text, rest, successCount, failCount, phase, current, remaining, rfl⟩ :=
        save_eq_some stepped
      intro message member
      rcases conserved message member with queued | held | stored
      · exact .inl queued
      · exact .inr (later.readHeld message (traced.batchRead _ held))
      · exact .inr (.inr (MessageTables.saveText_keeps stored))
  | finish call =>
      obtain ⟨successCount, failCount, current, rfl⟩ := finish_eq_some stepped
      intro message member
      exact (conserved message member).imp_right
        (Or.imp_left (fun held => held.update (by simp [current, FlushPhase.batch])))

theorem conserved_ltrim_iff (conserved : Conserved state) (traced : Traced state)
    (stepped : (machine Call).step state (.ltrim call) = some next) :
    Conserved next ↔ TrimsOnlyRead state (.ltrim call) := by
  have later := traced.ltrim stepped
  obtain ⟨messages, current, rfl⟩ := ltrim_eq_some stepped
  simp only [TrimsOnlyRead, current, FlushPhase.batch]
  constructor
  · intro kept text removed
    obtain ⟨message, pushed, rfl⟩ := traced.queued text (List.mem_of_mem_take removed)
    rcases kept message pushed with queued | held | stored
    · exact absurd queued (List.disjoint_left.mp
        (List.disjoint_take_drop traced.distinct (Nat.le_refl messages.length)) removed)
    · exact later.batchRead _ held
    · exact later.storedRead _ stored
  · intro onlyRead message pushed
    rcases conserved message pushed with queued | held | stored
    · rw [← List.take_append_drop messages.length state.store.queue] at queued
      rcases List.mem_append.mp queued with removed | kept
      · exact .inr (later.readHeld message (onlyRead _ removed))
      · exact .inl kept
    · exact .inr (later.readHeld message (traced.batchRead _ held))
    · exact .inr (.inr stored)

/-- Messages are conserved throughout a run of pushes and flushes exactly if
every LTRIM of the run removes only texts that an LRANGE has returned before. -/
theorem conserved_iff_trims_only_read (events : List (Event Call)) :
    (machine Call).Always Conserved {} events ↔ (machine Call).Meets TrimsOnlyRead {} events := by
  refine Machine.always_iff_meets Traced (by simp [Conserved]) traced_init
    (fun _ _ _ traced stepped => traced.step stepped) ?_
  intro state event next traced conserved stepped
  cases event with
  | ltrim call => exact conserved_ltrim_iff conserved traced stepped
  | queueMessage item => exact iff_of_true (conserved.step traced stepped nofun) trivial
  | lrange call => exact iff_of_true (conserved.step traced stepped nofun) trivial
  | save call => exact iff_of_true (conserved.step traced stepped nofun) trivial
  | finish call => exact iff_of_true (conserved.step traced stepped nofun) trivial

/-! ## A push between the read and the trim -/

private def hello : QueueItem := .privateMessage ⟨"101", 1, 2, "hello", 1000⟩

private def reply : QueueItem := .privateMessage ⟨"102", 2, 1, "hi", 1001⟩

/-- One flush reads `hello`; `reply` is pushed; the flush trims one text from
the head, which is now `reply`, and saves `hello`. -/
private def pushBetween : List (Event Nat) :=
  [.queueMessage hello, .lrange 0, .queueMessage reply, .ltrim 0, .save 0, .finish 0]

theorem push_between_read_and_trim_is_lost :
    ∃ state, (machine Nat).run {} pushBetween = some state ∧ reply ∈ state.pushed ∧
      ¬ Conserved state := by
  refine ⟨_, rfl, by decide, fun conserved => ?_⟩
  rcases conserved reply (by decide) with queued | ⟨call, held⟩ | stored
  · exact absurd queued (by decide)
  · by_cases flush : call = 0 <;>
      simp [flush, Function.update_of_ne, FlushPhase.batch] at held
  · exact absurd stored (by decide)

end MuduoIm.Server.MessageQueue
