import Mathlib.Data.List.Nodup
import MuduoIm.Server.MessageQueue.Conservation

namespace MuduoIm.Server.MessageQueue

open MuduoIm.Data MuduoIm.Transition

/-! # Send order

One call of `flushMessageQueue` at a time; pushes come between its commands.
`queueMessage` pushes at the end of the list at which LRANGE reads, so a batch
has the newest message first.
-/

/-- The message tables, each with its rows in the order in which they were
inserted, which is the order of their auto-increment ids. -/
def all (tables : MessageTables) : List (List QueueItem) :=
  [tables.privateMessages.map .privateMessage, tables.groupMessages.map .groupMessage]

def rowsFrom (sender : Int) (tables : MessageTables) : List QueueItem :=
  (all tables).flatten.filter (fun item => item.fromUser = sender)

/-- The sender's messages among the texts that have no row yet. -/
def unsavedFrom (sender : Int) (tables : MessageTables) (texts : List QueueText) : List QueueItem :=
  texts.filterMap fun
    | .item item => if item.fromUser = sender ∧ ¬ item.StoredIn tables then some item else none
    | .unreadable => none

/-- `pushed` has the newest message first. -/
def SentBefore (state : State Unit) (earlier later : QueueItem) : Prop :=
  [later, earlier].Sublist state.pushed

/-- A row that the step inserts was sent after all rows that are there. -/
def InsertsInOrder (sender : Int) (state : State Unit) (event : Event Unit) : Prop :=
  ∀ next, step state event = some next → ∀ item ∈ rowsFrom sender next.store.tables,
    item ∉ rowsFrom sender state.store.tables →
      ∀ earlier ∈ rowsFrom sender state.store.tables, SentBefore state earlier item

/-- In each table the ids of the sender's rows follow the order of sending. -/
def IdsInOrder (sender : Int) (state : State Unit) : Prop :=
  ∀ table ∈ all state.store.tables,
    (table.filter (fun item => item.fromUser = sender)).Pairwise (SentBefore state)

/-- The texts have at most one message of the sender to save, which was sent
after those that have a row. -/
def SavesInOrder (sender : Int) (state : State Unit) (texts : List QueueText) : Prop :=
  ∀ item ∈ unsavedFrom sender state.store.tables texts,
    (∀ other ∈ unsavedFrom sender state.store.tables texts, other = item) ∧
      ∀ earlier ∈ rowsFrom sender state.store.tables, SentBefore state earlier item

def TakesInOrder (sender : Int) (state : State Unit) : Event Unit → Prop
  | .lrange _ => SavesInOrder sender state (state.store.queue.take 100)
  | _ => True

instance (state : State Unit) (earlier later : QueueItem) : Decidable (SentBefore state earlier later) :=
  inferInstanceAs (Decidable ([later, earlier].Sublist state.pushed))

instance (sender : Int) (state : State Unit) : Decidable (IdsInOrder sender state) :=
  inferInstanceAs (Decidable (∀ _ ∈ _, _))

instance (sender : Int) (state : State Unit) (texts : List QueueText) :
    Decidable (SavesInOrder sender state texts) :=
  inferInstanceAs (Decidable (∀ _ ∈ _, _))

instance (sender : Int) (state : State Unit) (event : Event Unit) : Decidable (TakesInOrder sender state event) :=
  match event with
  | .lrange _ => inferInstanceAs (Decidable (SavesInOrder _ _ _))
  | .queueMessage _ | .ltrim _ | .save _ | .finish _ => inferInstanceAs (Decidable True)

variable {sender : Int} {tables : MessageTables} {texts : List QueueText} {item : QueueItem} {text : QueueText}

@[simp] theorem mem_rowsFrom : item ∈ rowsFrom sender tables ↔ item.StoredIn tables ∧ item.fromUser = sender := by
  cases item <;> simp [rowsFrom, all, QueueItem.StoredIn]

@[simp] theorem mem_unsavedFrom :
    item ∈ unsavedFrom sender tables texts ↔
      .item item ∈ texts ∧ item.fromUser = sender ∧ ¬ item.StoredIn tables := by
  rw [unsavedFrom, List.mem_filterMap]
  constructor
  · intro found
    obtain ⟨text, member, chosen⟩ := found
    cases text with
    | unreadable => contradiction
    | item other =>
        simp only [Option.ite_none_right_eq_some, Option.some.injEq] at chosen
        obtain ⟨unsaved, rfl⟩ := chosen
        exact ⟨member, unsaved⟩
  · intro unsaved
    exact ⟨.item item, unsaved.1, if_pos unsaved.2⟩

/-- A save leaves a table as it is or adds the row of its text at the end. -/
theorem all_saveText {table : List QueueItem} (listed : table ∈ all (tables.saveText true text).2) :
    table ∈ all tables ∨
      ∃ item before, text = .item item ∧ ¬ item.StoredIn tables ∧ before ∈ all tables ∧ table = before ++ [item] := by
  simp only [MessageTables.saveText] at listed
  split at listed
  · next message =>
      simp only [MessageTables.savePrivateMessage] at listed
      split at listed
      · next fresh =>
          have unsaved : ¬ QueueItem.StoredIn tables (.privateMessage message) :=
            fun stored => fresh.2 message stored rfl
          rcases List.mem_cons.mp listed with rfl | other
          · exact .inr ⟨_, _, rfl, unsaved, List.mem_cons_self, List.map_append⟩
          · exact .inl (List.mem_cons_of_mem _ other)
      · exact .inl listed
  · next message =>
      simp only [MessageTables.saveGroupMessage] at listed
      split at listed
      · next fresh =>
          have unsaved : ¬ QueueItem.StoredIn tables (.groupMessage message) :=
            fun stored => fresh.2 message stored rfl
          rcases List.mem_cons.mp listed with rfl | other
          · exact .inl List.mem_cons_self
          · cases List.mem_singleton.mp other
            exact .inr ⟨_, _, rfl, unsaved, List.mem_cons_of_mem _ (List.mem_singleton_self _), List.map_append⟩
      · exact .inl listed
  · exact .inl listed

variable {state next : State Unit} {event : Event Unit} {earlier later : QueueItem}

/-- What a step does to the messages that were sent. -/
theorem pushed_of_step (stepped : (machine Unit).step state event = some next) :
    next.pushed = state.pushed ∨ ∃ item, item ∉ state.pushed ∧ next.pushed = item :: state.pushed := by
  cases event with
  | queueMessage item =>
      obtain ⟨fresh, rfl⟩ := queueMessage_eq_some stepped
      exact .inr ⟨item, fun member => fresh item member rfl, rfl⟩
  | lrange call =>
      obtain ⟨_, rfl | rfl⟩ := lrange_eq_some stepped <;> exact .inl rfl
  | ltrim call =>
      obtain ⟨_, _, rfl⟩ := ltrim_eq_some stepped
      exact .inl rfl
  | save call =>
      obtain ⟨_, _, _, _, _, _, _, rfl⟩ := save_eq_some stepped
      exact .inl rfl
  | finish call =>
      obtain ⟨_, _, _, rfl⟩ := finish_eq_some stepped
      exact .inl rfl

/-- Only a save changes the tables. -/
theorem tables_of_step (stepped : (machine Unit).step state event = some next) (other : ∀ call, event ≠ .save call) :
    next.store.tables = state.store.tables := by
  cases event with
  | queueMessage item =>
      obtain ⟨_, rfl⟩ := queueMessage_eq_some stepped
      rfl
  | lrange call =>
      obtain ⟨_, rfl | rfl⟩ := lrange_eq_some stepped <;> rfl
  | ltrim call =>
      obtain ⟨_, _, rfl⟩ := ltrim_eq_some stepped
      rfl
  | save call => exact absurd rfl (other call)
  | finish call =>
      obtain ⟨_, _, _, rfl⟩ := finish_eq_some stepped
      rfl

/-- What was sent stays sent in its order. -/
theorem SentBefore.step (before : SentBefore state earlier later)
    (stepped : (machine Unit).step state event = some next) : SentBefore next earlier later := by
  rw [SentBefore] at before ⊢
  obtain same | ⟨item, _, same⟩ := pushed_of_step stepped
  · rwa [same]
  · rw [same]
    exact before.trans (List.sublist_cons_self _ _)

/-! ## A run that takes the messages of a sender one by one -/

/-- What such a run keeps. -/
structure KeepsOrder (sender : Int) (state : State Unit) : Prop where
  traced : Traced state
  ids : IdsInOrder sender state
  batch : SavesInOrder sender state (state.flushes ()).batch

theorem keepsOrder_init : KeepsOrder sender {} where
  traced := traced_init
  ids := by
    intro table listed
    simp only [all, List.map_nil, List.mem_cons, List.not_mem_nil, or_false, or_self] at listed
    rw [listed]
    exact List.Pairwise.nil
  batch := by
    intro item unsaved
    cases (mem_unsavedFrom.mp unsaved).1

/-- With the tables as they are, only the texts and what was sent count. -/
theorem SavesInOrder.step {others : List QueueText} (ordered : SavesInOrder sender state texts)
    (stepped : (machine Unit).step state event = some next) (same : next.store.tables = state.store.tables)
    (fewer : others ⊆ texts) : SavesInOrder sender next others := by
  intro item unsaved
  rw [same] at unsaved ⊢
  have among {item : QueueItem} (unsaved : item ∈ unsavedFrom sender state.store.tables others) :
      item ∈ unsavedFrom sender state.store.tables texts := by
    obtain ⟨member, unsaved⟩ := mem_unsavedFrom.mp unsaved
    exact mem_unsavedFrom.mpr ⟨fewer member, unsaved⟩
  obtain ⟨only, after⟩ := ordered item (among unsaved)
  exact ⟨fun other member => only other (among member), fun earlier saved => (after earlier saved).step stepped⟩

theorem IdsInOrder.step (ordered : IdsInOrder sender state)
    (stepped : (machine Unit).step state event = some next) (same : next.store.tables = state.store.tables) :
    IdsInOrder sender next := by
  intro table listed
  rw [same] at listed
  exact (ordered table listed).imp fun before => before.step stepped

/-- The message that is saved was sent after all those with a row. -/
theorem KeepsOrder.sentBefore {rest : List QueueText} {successCount failCount : Nat} {call : Unit}
    (kept : KeepsOrder sender state) (current : state.flushes call = .saving (.item item :: rest) successCount failCount)
    (sent : item.fromUser = sender) (unsaved : ¬ item.StoredIn state.store.tables)
    (saved : earlier ∈ rowsFrom sender state.store.tables) : SentBefore state earlier item := by
  have batch : (state.flushes ()).batch = .item item :: rest := by rw [current]; rfl
  have among : item ∈ unsavedFrom sender state.store.tables (state.flushes ()).batch := by
    rw [batch]
    exact mem_unsavedFrom.mpr ⟨List.mem_cons_self, sent, unsaved⟩
  exact (kept.batch item among).2 earlier saved

theorem KeepsOrder.save {call : Unit} (kept : KeepsOrder sender state)
    (stepped : (machine Unit).step state (.save call) = some next) : KeepsOrder sender next := by
  have traced := kept.traced.step stepped
  have later {first second : QueueItem} (before : SentBefore state first second) : SentBefore next first second :=
    before.step stepped
  obtain ⟨text, rest, successCount, failCount, phase, current, remaining, rfl⟩ := save_eq_some stepped
  refine ⟨traced, ?_, ?_⟩
  · intro table listed
    rcases all_saveText listed with unchanged | ⟨item, before, rfl, unsaved, unchanged, rfl⟩
    · exact (kept.ids table unchanged).imp later
    rw [List.filter_append, List.pairwise_append]
    refine ⟨(kept.ids before unchanged).imp later, List.Pairwise.filter _ (List.pairwise_singleton _ _), ?_⟩
    intro earlier saved newest member
    obtain ⟨saved, sent⟩ := List.mem_filter.mp saved
    obtain ⟨same, sentToo⟩ := List.mem_filter.mp member
    cases List.mem_singleton.mp same
    have row : earlier ∈ rowsFrom sender state.store.tables :=
      List.mem_filter.mpr ⟨List.mem_flatten.mpr ⟨before, unchanged, saved⟩, sent⟩
    exact later (kept.sentBefore current (of_decide_eq_true sentToo) unsaved row)
  · -- what waits after the save waited before it
    have waited {item : QueueItem}
        (waiting : item ∈ unsavedFrom sender (state.store.tables.saveText true text).2
          (Function.update state.flushes call phase ()).batch) :
        item ∈ unsavedFrom sender state.store.tables (state.flushes ()).batch := by
      obtain ⟨member, sent, unsaved⟩ := mem_unsavedFrom.mp waiting
      rw [Function.update_self, remaining] at member
      rw [current]
      exact mem_unsavedFrom.mpr
        ⟨List.mem_cons_of_mem _ member, sent, fun stored => unsaved (MessageTables.saveText_keeps stored)⟩
    intro item waiting
    obtain ⟨only, after⟩ := kept.batch item (waited waiting)
    refine ⟨fun other otherWaiting => only other (waited otherWaiting), ?_⟩
    intro earlier saved
    obtain ⟨stored, sent⟩ := mem_rowsFrom.mp saved
    by_cases old : earlier.StoredIn state.store.tables
    · exact later (after earlier (mem_rowsFrom.mpr ⟨old, sent⟩))
    · have first : text = .item earlier := (MessageTables.saveText_adds stored).resolve_left old
      have among : earlier ∈ unsavedFrom sender state.store.tables (state.flushes ()).batch := by
        rw [current, first]
        exact mem_unsavedFrom.mpr ⟨List.mem_cons_self, sent, old⟩
      rw [only earlier among] at stored
      exact absurd stored (mem_unsavedFrom.mp waiting).2.2

theorem KeepsOrder.step (kept : KeepsOrder sender state) (taken : TakesInOrder sender state event)
    (stepped : (machine Unit).step state event = some next) : KeepsOrder sender next := by
  have traced := kept.traced.step stepped
  have ids (same : next.store.tables = state.store.tables) := kept.ids.step stepped same
  cases event with
  | queueMessage item =>
      have same := stepped
      obtain ⟨_, rfl⟩ := queueMessage_eq_some stepped
      exact ⟨traced, ids rfl, kept.batch.step same rfl fun _ => id⟩
  | lrange call =>
      have same := stepped
      obtain ⟨_, rfl | rfl⟩ := lrange_eq_some stepped
      · exact kept
      · refine ⟨traced, ids rfl, taken.step same rfl ?_⟩
        simp only [Function.update_self, FlushPhase.batch, List.Subset.refl]
  | ltrim call =>
      have same := stepped
      obtain ⟨messages, current, rfl⟩ := ltrim_eq_some stepped
      refine ⟨traced, ids rfl, kept.batch.step same rfl ?_⟩
      simp [current, FlushPhase.batch]
  | save call => exact kept.save stepped
  | finish call =>
      have same := stepped
      obtain ⟨_, _, current, rfl⟩ := finish_eq_some stepped
      refine ⟨traced, ids rfl, kept.batch.step same rfl ?_⟩
      simp [current, FlushPhase.batch]

/-- Only a save inserts a row, and it inserts the message that it saves. -/
theorem KeepsOrder.insertsInOrder (kept : KeepsOrder sender state) : InsertsInOrder sender state event := by
  intro after again item inserted absent earlier saved
  by_cases saves : ∃ call, event = .save call
  · obtain ⟨call, rfl⟩ := saves
    obtain ⟨text, rest, successCount, failCount, phase, current, remaining, rfl⟩ := save_eq_some again
    obtain ⟨stored, sent⟩ := mem_rowsFrom.mp inserted
    have unsaved : ¬ item.StoredIn state.store.tables := fun old => absent (mem_rowsFrom.mpr ⟨old, sent⟩)
    have first : text = .item item := (MessageTables.saveText_adds stored).resolve_left unsaved
    rw [first] at current
    exact kept.sentBefore current sent unsaved saved
  · rw [tables_of_step again (not_exists.mp saves)] at inserted
    exact absurd inserted absent

/-! ## A run that takes two of them at once, or one after a newer one -/

section Order

variable {Item : Type} {first second head : Item} {list tail : List Item}

theorem pair_sublist_cons :
    [first, second].Sublist (head :: tail) ↔ [first, second].Sublist tail ∨ first = head ∧ second ∈ tail := by
  constructor
  · intro pair
    obtain later | ⟨_, same, rest⟩ := List.sublist_cons_iff.mp pair
    · exact .inl later
    · cases same
      exact .inr ⟨rfl, List.singleton_sublist.mp rest⟩
  · intro either
    obtain later | ⟨rfl, member⟩ := either
    · exact later.cons head
    · exact (List.singleton_sublist.mpr member).cons_cons first

/-- Two items of a list stand in one order or the other. -/
theorem pair_sublist (differ : first ≠ second) (firstIn : first ∈ list) (secondIn : second ∈ list) :
    [first, second].Sublist list ∨ [second, first].Sublist list := by
  induction list with
  | nil => cases firstIn
  | cons head tail ih =>
      rcases List.mem_cons.mp firstIn with rfl | firstLater <;> rcases List.mem_cons.mp secondIn with rfl | secondLater
      · exact absurd rfl differ
      · exact .inl (pair_sublist_cons.mpr (.inr ⟨rfl, secondLater⟩))
      · exact .inr (pair_sublist_cons.mpr (.inr ⟨rfl, firstLater⟩))
      · exact (ih firstLater secondLater).imp (·.cons head) (·.cons head)

/-- Without repetition they do not stand in both. -/
theorem not_pair_sublist (distinct : list.Nodup) (pair : [first, second].Sublist list) :
    ¬ [second, first].Sublist list := by
  induction list with
  | nil => cases pair
  | cons head tail ih =>
      obtain ⟨absent, distinct⟩ := List.nodup_cons.mp distinct
      intro swapped
      obtain later | ⟨rfl, _⟩ := pair_sublist_cons.mp pair
      · obtain swappedLater | ⟨rfl, _⟩ := pair_sublist_cons.mp swapped
        · exact ih distinct later swappedLater
        · exact absent (later.subset (by simp))
      · obtain swappedLater | ⟨_, member⟩ := pair_sublist_cons.mp swapped
        · exact absent (swappedLater.subset (by simp))
        · exact absent member

end Order

/-- The queue and the batch hold what was pushed, the newest first. -/
structure NewestFirst (state : State Unit) : Prop where
  distinct : state.pushed.Nodup
  queued : state.store.queue.Sublist (state.pushed.map .item)
  batched : (state.flushes ()).batch.Sublist (state.pushed.map .item)

theorem newestFirst_init : NewestFirst {} := ⟨List.nodup_nil, List.nil_sublist _, List.nil_sublist _⟩

theorem NewestFirst.step (ordered : NewestFirst state)
    (stepped : (machine Unit).step state event = some next) : NewestFirst next := by
  obtain ⟨distinct, queued, batched⟩ := ordered
  cases event with
  | queueMessage item =>
      obtain ⟨fresh, rfl⟩ := queueMessage_eq_some stepped
      have absent : item ∉ state.pushed := fun member => fresh item member rfl
      exact ⟨List.nodup_cons.mpr ⟨absent, distinct⟩, queued.cons_cons _, batched.cons _⟩
  | lrange call =>
      obtain ⟨_, rfl | rfl⟩ := lrange_eq_some stepped
      · exact ⟨distinct, queued, batched⟩
      · refine ⟨distinct, queued, ?_⟩
        simpa [FlushPhase.batch] using (List.take_sublist _ _).trans queued
  | ltrim call =>
      obtain ⟨messages, current, rfl⟩ := ltrim_eq_some stepped
      refine ⟨distinct, (List.drop_sublist _ _).trans queued, ?_⟩
      simpa [current, FlushPhase.batch] using batched
  | save call =>
      obtain ⟨text, rest, _, _, phase, current, remaining, rfl⟩ := save_eq_some stepped
      refine ⟨distinct, queued, ?_⟩
      rw [current] at batched
      simpa [remaining] using (List.sublist_cons_self text rest).trans batched
  | finish call =>
      obtain ⟨_, _, _, rfl⟩ := finish_eq_some stepped
      refine ⟨distinct, queued, ?_⟩
      simp [FlushPhase.batch]

/-- What is not newer was not sent after it: the converse of `SentBefore.step` for messages that
were pushed before the step. -/
theorem SentBefore.back (ordered : SentBefore next earlier later) (known : later ∈ state.pushed)
    (stepped : (machine Unit).step state event = some next) : SentBefore state earlier later := by
  rw [SentBefore] at ordered ⊢
  obtain same | ⟨item, fresh, same⟩ := pushed_of_step stepped
  · rwa [same] at ordered
  · rw [same] at ordered
    obtain before | ⟨rfl, _⟩ := pair_sublist_cons.mp ordered
    · exact before
    · exact absurd known fresh

/-- A message that is still to be saved was not sent after another one, which has a row or is to
be saved before it. -/
def Overtaken (sender : Int) (state : State Unit) : Prop :=
  ∃ item ∈ unsavedFrom sender state.store.tables (state.flushes ()).batch, ∃ newer,
    ¬ SentBefore state newer item ∧ newer.fromUser = sender ∧
      (newer.StoredIn state.store.tables ∨ [.item newer, .item item].Sublist (state.flushes ()).batch)

theorem Overtaken.save {call : Unit} (overtaken : Overtaken sender state) (traced : Traced state)
    (ordered : NewestFirst state) (inOrder : InsertsInOrder sender state (.save call))
    (stepped : (machine Unit).step state (.save call) = some next) : Overtaken sender next := by
  have steps := stepped
  obtain ⟨item, waiting, newer, notBefore, sentNewer, ahead⟩ := overtaken
  obtain ⟨text, rest, successCount, failCount, phase, current, remaining, rfl⟩ := save_eq_some stepped
  have batch : (state.flushes ()).batch = text :: rest := by rw [current]; rfl
  rw [batch] at waiting ahead
  obtain ⟨member, sent, unsaved⟩ := mem_unsavedFrom.mp waiting
  have held : InBatch state.flushes (.item item) := ⟨(), by rw [batch]; exact member⟩
  have read := traced.batchRead _ held
  have distinct : (text :: rest).Nodup :=
    batch ▸ ordered.batched.nodup (List.Nodup.map (fun _ _ same => QueueText.item.inj same) ordered.distinct)
  -- the save is of another message: where `newer` has a row, because the step inserts in order
  have other : text ≠ .item item := by
    intro same
    subst same
    rcases ahead with stored | before
    · have inserted := traced.saved_stored read rfl
      refine notBefore (inOrder _ steps item (mem_rowsFrom.mpr ⟨inserted, sent⟩) ?_ newer
        (mem_rowsFrom.mpr ⟨stored, sentNewer⟩))
      exact fun row => unsaved (mem_rowsFrom.mp row).1
    · refine (List.nodup_cons.mp distinct).1 ?_
      obtain later | ⟨_, member⟩ := pair_sublist_cons.mp before
      · exact later.subset (by simp)
      · exact member
  have stays : item ∈ unsavedFrom sender (state.store.tables.saveText true text).2
      (Function.update state.flushes call phase ()).batch := by
    rw [Function.update_self, remaining]
    refine mem_unsavedFrom.mpr ⟨(List.mem_cons.mp member).resolve_left other.symm, sent, fun stored => ?_⟩
    exact other ((MessageTables.saveText_adds stored).resolve_left unsaved)
  refine ⟨item, stays, newer, fun before => notBefore (before.back (traced.pushed_of_read read) steps), sentNewer, ?_⟩
  rcases ahead with stored | before
  · exact .inl (MessageTables.saveText_keeps stored)
  · obtain later | ⟨same, _⟩ := pair_sublist_cons.mp before
    · refine .inr ?_
      simpa [remaining] using later
    · have heldText : InBatch state.flushes text := ⟨(), by rw [batch]; exact List.mem_cons_self⟩
      exact .inl (traced.saved_stored (traced.batchRead _ heldText) same.symm)

theorem Overtaken.step (overtaken : Overtaken sender state) (traced : Traced state) (ordered : NewestFirst state)
    (inOrder : InsertsInOrder sender state event) (stepped : (machine Unit).step state event = some next) :
    Overtaken sender next := by
  have steps := stepped
  obtain ⟨item, waiting, newer, notBefore, sentNewer, ahead⟩ := overtaken
  have held : InBatch state.flushes (.item item) := ⟨(), (mem_unsavedFrom.mp waiting).1⟩
  have still : ¬ SentBefore next newer item :=
    fun before => notBefore (before.back (traced.pushed_of_read (traced.batchRead _ held)) steps)
  cases event with
  | queueMessage _ =>
      obtain ⟨_, rfl⟩ := queueMessage_eq_some stepped
      exact ⟨item, waiting, newer, still, sentNewer, ahead⟩
  | lrange call =>
      obtain ⟨idle, _⟩ := lrange_eq_some stepped
      obtain ⟨_, member⟩ := held
      rw [idle] at member
      cases member
  | ltrim call =>
      obtain ⟨messages, current, rfl⟩ := ltrim_eq_some stepped
      have same : (Function.update state.flushes call (.saving messages 0 0) ()).batch = (state.flushes ()).batch := by
        rw [Function.update_self, current]
        rfl
      exact ⟨item, same ▸ waiting, newer, still, sentNewer, same ▸ ahead⟩
  | save call =>
      exact Overtaken.save ⟨item, waiting, newer, notBefore, sentNewer, ahead⟩ traced ordered inOrder steps
  | finish call =>
      obtain ⟨_, _, current, _⟩ := finish_eq_some stepped
      obtain ⟨_, member⟩ := held
      rw [current] at member
      cases member

theorem lrange_batch {call : Unit} (stepped : (machine Unit).step state (.lrange call) = some next) :
    (next.flushes ()).batch = state.store.queue.take 100 ∧ next.store = state.store ∧ next.pushed = state.pushed := by
  have range : RedisList.lrange state.store.queue 0 99 = state.store.queue.take 100 :=
    RedisList.lrange_prefix state.store.queue 99
  simp only [machine, step, range] at stepped
  cases phase : state.flushes call with
  | idle =>
      simp only [phase] at stepped
      split at stepped <;> cases stepped
      · next empty => exact ⟨by rw [empty, phase, FlushPhase.batch], rfl, rfl⟩
      · exact ⟨by simp only [Function.update_self, FlushPhase.batch], rfl, rfl⟩
  | fetched messages => simp [phase] at stepped
  | saving messages successCount failCount => simp [phase] at stepped

/-- A batch that is not in order overtakes a message. -/
theorem overtaken_lrange {call : Unit} (ordered : NewestFirst state) (taken : ¬ TakesInOrder sender state (.lrange call))
    (stepped : (machine Unit).step state (.lrange call) = some next) : Overtaken sender next := by
  obtain ⟨batch, store, pushed⟩ := lrange_batch stepped
  simp only [TakesInOrder, SavesInOrder, not_forall, not_and_or] at taken
  rw [← batch, ← store] at taken
  have unlike {earlier later : QueueItem} (notBefore : ¬ SentBefore state earlier later) :
      ¬ SentBefore next earlier later := by rwa [SentBefore, pushed]
  obtain ⟨item, waiting, ⟨other, otherWaiting, differ⟩ | ⟨newer, saved, notBefore⟩⟩ := taken
  · have later := ordered.step stepped
    have injective : Function.Injective QueueText.item := fun _ _ same => QueueText.item.inj same
    have overtakes {newer older : QueueItem} (pair : [.item newer, .item older].Sublist (next.flushes ()).batch)
        (waits : older ∈ unsavedFrom sender next.store.tables (next.flushes ()).batch)
        (sent : newer.fromUser = sender) : Overtaken sender next := by
      obtain ⟨items, sub, same⟩ := List.sublist_map_iff.mp (pair.trans later.batched)
      cases List.map_injective_iff.mpr injective (show [newer, older].map QueueText.item = _ from same)
      exact ⟨older, waits, newer, not_pair_sublist later.distinct sub, sent, .inr pair⟩
    obtain ⟨member, sent, _⟩ := mem_unsavedFrom.mp waiting
    obtain ⟨otherMember, otherSent, _⟩ := mem_unsavedFrom.mp otherWaiting
    rcases pair_sublist (fun same => differ (injective same)) otherMember member with pair | pair
    · exact overtakes pair waiting otherSent
    · exact overtakes pair otherWaiting sent
  · obtain ⟨stored, sent⟩ := mem_rowsFrom.mp saved
    exact ⟨item, waiting, newer, unlike notBefore, sent, .inl stored⟩

/-- At the end of a flush no message is overtaken, so every batch was in order. -/
theorem takesInOrder_of_insertsInOrder {events : List (Event Unit)} {after : State Unit}
    (traced : Traced state) (ordered : NewestFirst state)
    (inserted : (machine Unit).Meets (InsertsInOrder sender) state events)
    (completed : (machine Unit).run state events = some after) (idle : after.flushes () = .idle) :
    (machine Unit).Meets (TakesInOrder sender) state events := by
  induction events generalizing state with
  | nil => trivial
  | cons event rest ih =>
      intro next stepped
      obtain ⟨between, begun, completed⟩ := Machine.run_cons_eq_some.mp completed
      rw [stepped] at begun
      cases begun
      have laterTraced := traced.step stepped
      have laterOrdered := ordered.step stepped
      have later := (inserted next stepped).2
      refine ⟨?_, ih laterTraced laterOrdered later completed⟩
      by_contra taken
      have lost : Overtaken sender next := by
        cases event with
        | lrange call => exact overtaken_lrange ordered taken stepped
        | queueMessage _ | ltrim _ | save _ | finish _ => exact absurd trivial taken
      have stays := Machine.always_of_meets
        (fun state => Traced state ∧ NewestFirst state ∧ Overtaken sender state)
        ⟨laterTraced, laterOrdered, lost⟩
        (fun state event next held inOrder stepped => ⟨held.1.step stepped, held.2.1.step stepped,
          held.2.2.step held.1 held.2.1 inOrder stepped⟩) later
      obtain ⟨_, _, item, waiting, _⟩ := stays.atEnd completed
      rw [idle] at waiting
      cases (mem_unsavedFrom.mp waiting).1

/-- The rows of a sender are inserted in the order in which the messages were pushed in every run
whose batches have at most one unsaved message of the sender, sent after those that are saved; and
in no other run that ends between two flushes. -/
theorem send_order_kept_iff_takes_in_order (sender : Int) (events : List (Event Unit)) :
    ((machine Unit).Meets (TakesInOrder sender) {} events →
      (machine Unit).Meets (InsertsInOrder sender) {} events ∧
        (machine Unit).Always (IdsInOrder sender) {} events) ∧
    ∀ after, (machine Unit).run {} events = some after → after.flushes () = .idle →
      ((machine Unit).Meets (InsertsInOrder sender) {} events ↔
        (machine Unit).Meets (TakesInOrder sender) {} events) := by
  have inserted (taken : (machine Unit).Meets (TakesInOrder sender) {} events) :
      (machine Unit).Meets (InsertsInOrder sender) {} events :=
    taken.required_of_kept (KeepsOrder sender) keepsOrder_init (fun _ _ _ kept => kept.step)
      fun _ _ _ kept _ _ => kept.insertsInOrder
  refine ⟨fun taken => ⟨inserted taken, ?_⟩, fun after completed idle => ⟨fun inOrder => ?_, inserted⟩⟩
  · have kept := Machine.always_of_meets (KeepsOrder sender) keepsOrder_init (fun _ _ _ kept => kept.step) taken
    exact kept.mono fun _ kept => kept.ids
  · exact takesInOrder_of_insertsInOrder traced_init newestFirst_init inOrder completed idle

private def question : QueueItem := .privateMessage ⟨"201", 1, 2, "question", 1000⟩

private def answer : QueueItem := .privateMessage ⟨"202", 1, 2, "answer", 2000⟩

private def flush : List (Event Unit) := [.lrange (), .ltrim (), .save (), .finish ()]

/-- Two messages with a flush after each. -/
theorem send_order_kept_one_by_one :
    (machine Unit).Always (IdsInOrder 1) {}
      (.queueMessage question :: flush ++ .queueMessage answer :: flush) := by
  have taken : (machine Unit).Meets (TakesInOrder 1) {}
      (.queueMessage question :: flush ++ .queueMessage answer :: flush) :=
    .cons rfl (by decide) <| .cons rfl (by decide) <| .cons rfl (by decide) <| .cons rfl (by decide) <|
      .cons rfl (by decide) <| .cons rfl (by decide) <| .cons rfl (by decide) <| .cons rfl (by decide) <|
      .cons rfl (by decide) <| .cons rfl (by decide) trivial
  exact ((send_order_kept_iff_takes_in_order 1 _).1 taken).2

private def oneBatch : List (Event Unit) :=
  [.queueMessage question, .queueMessage answer, .lrange (), .ltrim (), .save (), .save (), .finish ()]

/-- Two messages in one batch. -/
theorem newest_inserted_first :
    ∃ after, (machine Unit).run {} oneBatch = some after ∧
      after.pushed = [answer, question] ∧ rowsFrom 1 after.store.tables = [answer, question] ∧
      ¬ (∀ (sender : Int) (events : List (Event Unit)), (machine Unit).Always (IdsInOrder sender) {} events) := by
  refine ⟨_, rfl, rfl, by decide, fun always => ?_⟩
  have inOrder := (always 1 oneBatch).atEnd (show (machine Unit).run {} oneBatch = some _ from rfl)
  exact absurd inOrder (by decide)

end MuduoIm.Server.MessageQueue
