import MuduoIm.Server.Recall

namespace MuduoIm.Server.Recall

open MuduoIm.Transition MuduoIm.Server

/-! # When a recall takes effect

The update of `recallMessage` finds the message if and only if its row has been
inserted.  The flush before it inserts what it reads itself: it does not reach
a message that lies deeper in the queue than one batch, and it does not wait
for a message that another flush has trimmed and not yet saved.
-/

variable {tables : MessageTables} {recalled : RecalledRows} {item : QueueItem}
variable {msgId : String} {fromUserId now : Int}

theorem mem_affectedRows {rows : List QueueItem} {twoMinAgo : Int} {marked : List String}
    {row : QueueItem} (member : row ∈ rows) (selected : Selects msgId fromUserId twoMinAgo marked row) :
    row.msgId ∈ affectedRows rows msgId fromUserId twoMinAgo marked :=
  List.mem_map_of_mem (List.mem_filter.mpr ⟨member, decide_eq_true selected⟩)

theorem exists_of_affectedRows {rows : List QueueItem} {twoMinAgo : Int} {marked : List String}
    (affected : ¬ (affectedRows rows msgId fromUserId twoMinAgo marked).length ≤ 0) :
    ∃ row ∈ rows, Selects msgId fromUserId twoMinAgo marked row := by
  have nonempty : affectedRows rows msgId fromUserId twoMinAgo marked ≠ [] := by
    intro empty
    simp [empty] at affected
  obtain ⟨id, member⟩ := List.exists_mem_of_ne_nil _ nonempty
  obtain ⟨row, selected, _⟩ := List.mem_map.mp member
  obtain ⟨stored, selects⟩ := List.mem_filter.mp selected
  exact ⟨row, stored, of_decide_eq_true selects⟩

/-- A row once marked stays marked. -/
theorem recallMessage_keeps (marked : recalled.Has item) :
    (recallMessage tables recalled msgId fromUserId now).2.Has item := by
  simp only [recallMessage]
  split
  · cases item with
    | privateMessage message => exact marked
    | groupMessage message => exact List.mem_append_right _ marked
  · cases item with
    | privateMessage message => exact List.mem_append_right _ marked
    | groupMessage message => exact marked

/-- The update marks the recent, unmarked row of the sender.  The group table
is only updated when no private row was, and no private row has the id of a
group message. -/
theorem recallMessage_marks (stored : item.StoredIn tables)
    (unique : ∀ other : QueueItem, other.StoredIn tables → other.msgId = item.msgId → other = item)
    (mine : item.fromUser = fromUserId) (recent : now < item.timestamp + 120000)
    (unmarked : ¬ recalled.Has item) :
    (recallMessage tables recalled item.msgId fromUserId now).1 = true ∧
      (recallMessage tables recalled item.msgId fromUserId now).2.Has item := by
  have young : item.timestamp > now - 120000 := by omega
  simp only [recallMessage]
  cases item with
  | privateMessage message =>
      have member := mem_affectedRows (List.mem_map_of_mem (f := QueueItem.privateMessage) stored)
        ⟨rfl, mine, young, unmarked⟩
      have affected := List.length_pos_of_mem member
      rw [if_neg (by omega)]
      exact ⟨rfl, List.mem_append_left _ member⟩
  | groupMessage message =>
      have member := mem_affectedRows (List.mem_map_of_mem (f := QueueItem.groupMessage) stored)
        ⟨rfl, mine, young, unmarked⟩
      have affected := List.length_pos_of_mem member
      split
      · exact ⟨decide_eq_true affected, List.mem_append_left _ member⟩
      · rename_i updated
        obtain ⟨row, privateRow, selected⟩ := exists_of_affectedRows updated
        obtain ⟨other, otherStored, rfl⟩ := List.mem_map.mp privateRow
        exact absurd (unique (.privateMessage other) otherStored selected.1) nofun

variable {Call : Type}

/-- Every recall that was due has returned true, and its row is there and
marked. -/
def Effective (state : State Call) : Prop :=
  ∀ entry ∈ state.settled,
    entry.2 = true ∧ entry.1.StoredIn state.base.store.tables ∧ state.recalled.Has entry.1

/-- When `recallMessage` runs, the row of the message whose recall is due has
been inserted. -/
def RowInserted (state : State Call) : Event Call → Prop
  | .recallMessage call now =>
      ∀ request, state.recalls call = .flushed request → ∀ item,
        Due request now state.recalled item → item.StoredIn state.base.store.tables
  | _ => True

/-- What holds in every run. -/
structure Sound (state : State Call) : Prop where
  traced : MessageQueue.Traced state.base
  acknowledged : ∀ item ∈ state.acknowledged, item ∈ state.base.pushed
  asked : ∀ call request, (state.recalls call).request = some request →
    ∀ item ∈ request.acknowledged, item ∈ state.base.pushed

theorem sound_init : Sound ({} : State Call) where
  traced := MessageQueue.traced_init
  acknowledged := by simp
  asked := by simp [RecallPhase.request]

variable [DecidableEq Call] {state next : State Call} {call : Call}

theorem pushed_mono {base after : MessageQueue.State Call} {event : MessageQueue.Event Call}
    (stepped : MessageQueue.step base event = some after) :
    ∀ item ∈ base.pushed, item ∈ after.pushed := by
  intro item member
  cases event with
  | queueMessage pushed =>
      obtain ⟨_, rfl⟩ := MessageQueue.queueMessage_eq_some stepped
      exact List.mem_cons_of_mem _ member
  | lrange call =>
      obtain ⟨_, rfl | rfl⟩ := MessageQueue.lrange_eq_some stepped <;> exact member
  | ltrim call =>
      obtain ⟨_, _, rfl⟩ := MessageQueue.ltrim_eq_some stepped
      exact member
  | save call =>
      obtain ⟨_, _, _, _, _, _, _, rfl⟩ := MessageQueue.save_eq_some stepped
      exact member
  | finish call =>
      obtain ⟨_, _, _, rfl⟩ := MessageQueue.finish_eq_some stepped
      exact member

theorem stored_mono {base after : MessageQueue.State Call} {event : MessageQueue.Event Call}
    (stepped : MessageQueue.step base event = some after)
    (stored : item.StoredIn base.store.tables) : item.StoredIn after.store.tables := by
  cases event with
  | queueMessage pushed =>
      obtain ⟨_, rfl⟩ := MessageQueue.queueMessage_eq_some stepped
      exact stored
  | lrange call =>
      obtain ⟨_, rfl | rfl⟩ := MessageQueue.lrange_eq_some stepped <;> exact stored
  | ltrim call =>
      obtain ⟨_, _, rfl⟩ := MessageQueue.ltrim_eq_some stepped
      exact stored
  | save call =>
      obtain ⟨_, _, _, _, _, _, _, rfl⟩ := MessageQueue.save_eq_some stepped
      exact MessageTables.saveText_keeps stored
  | finish call =>
      obtain ⟨_, _, _, rfl⟩ := MessageQueue.finish_eq_some stepped
      exact stored

theorem Sound.step {event : Event Call} (sound : Sound state)
    (stepped : (machine Call).step state event = some next) : Sound next := by
  cases event with
  | queue event =>
      obtain ⟨base, recalls, flushed, rfl, same⟩ := queue_eq_some stepped
      have grows := pushed_mono flushed
      refine ⟨sound.traced.step flushed, ?_, ?_⟩
      · exact fun item member => grows item (sound.acknowledged item member)
      · intro call request current item member
        exact grows item (sound.asked call request ((same call).symm.trans current) item member)
  | ack item =>
      obtain ⟨pushed, rfl⟩ := ack_eq_some stepped
      refine ⟨sound.traced, ?_, sound.asked⟩
      intro other member
      rcases List.mem_cons.mp member with rfl | earlier
      · exact pushed
      · exact sound.acknowledged other earlier
  | handleRecall call msgId fromUserId =>
      rcases handleRecall_eq_some stepped with rfl | rfl
      · exact sound
      refine ⟨sound.traced, sound.acknowledged, ?_⟩
      intro other request current item member
      by_cases same : other = call
      · simp only [same, Function.update_self] at current
        cases current
        exact sound.acknowledged item member
      · simp only [Function.update_of_ne same] at current
        exact sound.asked other request current item member
  | recallMessage call now =>
      obtain ⟨request, current, rfl⟩ := recallMessage_eq_some stepped
      refine ⟨sound.traced, sound.acknowledged, ?_⟩
      intro other asked phase item member
      by_cases same : other = call
      · simp only [same, Function.update_self] at phase
        contradiction
      · simp only [Function.update_of_ne same] at phase
        exact sound.asked other asked phase item member

theorem Effective.queue {event : MessageQueue.Event Call} (effective : Effective state)
    (stepped : Recall.step state (.queue event) = some next) : Effective next := by
  obtain ⟨base, recalls, flushed, rfl, _⟩ := queue_eq_some stepped
  intro entry member
  obtain ⟨returned, stored, marked⟩ := effective entry member
  exact ⟨returned, stored_mono flushed stored, marked⟩

theorem Effective.recallMessage_iff (effective : Effective state) (sound : Sound state)
    (stepped : Recall.step state (.recallMessage call now) = some next) :
    Effective next ↔ RowInserted state (.recallMessage call now) := by
  obtain ⟨request, current, rfl⟩ := recallMessage_eq_some stepped
  constructor
  · intro later asked phase item due
    rw [current] at phase
    cases phase
    have member : item ∈ request.acknowledged.filter
        (fun item => Due request now state.recalled item) :=
      List.mem_filter.mpr ⟨due.1, decide_eq_true due⟩
    exact (later _ (List.mem_append_right _ (List.mem_map_of_mem member))).2.1
  · intro inserted entry member
    rcases List.mem_append.mp member with earlier | settled
    · obtain ⟨returned, stored, marked⟩ := effective entry earlier
      exact ⟨returned, stored, recallMessage_keeps marked⟩
    · obtain ⟨item, selected, rfl⟩ := List.mem_map.mp settled
      have due : Due request now state.recalled item :=
        of_decide_eq_true (List.mem_filter.mp selected).2
      have stored := inserted request current item due
      have pushed := sound.asked call request (by rw [current]; rfl) item due.1
      have unique (other : QueueItem) (there : other.StoredIn state.base.store.tables)
          (same : other.msgId = item.msgId) : other = item :=
        sound.traced.unique other (sound.traced.storedPushed there) item pushed same
      obtain ⟨_, named, mine, recent, unmarked⟩ := due
      have marks := recallMessage_marks stored unique mine recent unmarked
      rw [named] at marks
      exact ⟨marks.1, stored, marks.2⟩

/-- Every recall that is due takes effect, and lastingly, throughout a run
exactly if each `recallMessage` of the run finds the row of its message
inserted. -/
theorem recall_effective_iff_inserted (events : List (Event Call)) :
    (machine Call).Always Effective {} events ↔ (machine Call).Meets RowInserted {} events := by
  refine Machine.always_iff_meets Sound (by simp [Effective]) sound_init
    (fun _ _ _ sound stepped => sound.step stepped) ?_
  intro state event next sound effective stepped
  cases event with
  | queue event => exact iff_of_true (effective.queue stepped) trivial
  | ack item =>
      obtain ⟨_, rfl⟩ := ack_eq_some stepped
      exact iff_of_true effective trivial
  | handleRecall call msgId fromUserId =>
      rcases handleRecall_eq_some stepped with rfl | rfl <;> exact iff_of_true effective trivial
  | recallMessage call now => exact effective.recallMessage_iff sound stepped

/-! ## A recall during another flush -/

private def typo : QueueItem := .privateMessage ⟨"101", 1, 2, "helo", 1000⟩

/-- The flush of the timer has trimmed the acknowledged message when the task
of the recall finds the queue empty; it saves the message afterwards. -/
private def recallDuringFlush : List (Event Nat) :=
  [.queue (.queueMessage typo), .ack typo, .queue (.lrange 0), .queue (.ltrim 0),
    .handleRecall 1 "101" 1, .queue (.lrange 1), .recallMessage 1 2000, .queue (.save 0)]

theorem recall_during_flush_fails :
    ∃ state, (machine Nat).run {} recallDuringFlush = some state ∧
      typo.StoredIn state.base.store.tables ∧ ¬ state.recalled.Has typo ∧ ¬ Effective state := by
  refine ⟨_, rfl, by decide, by decide, fun effective => ?_⟩
  have settled := effective (typo, false) (by decide)
  exact absurd settled.1 (by decide)

end MuduoIm.Server.Recall
