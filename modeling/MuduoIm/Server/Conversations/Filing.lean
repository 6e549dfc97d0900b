import MuduoIm.Server.Conversations
import MuduoIm.Server.MessageHandlers.Acknowledged

namespace MuduoIm.Server

open MuduoIm.Data MuduoIm.Server.MessageHandlers MuduoIm.Server.MessageQueue

/-! # Messages and the conversations in which they were sent

Every message that is queued or stored, and every task, is recorded under a
conversation.
-/

/-! ## Where the messages of a store come from -/

variable {store : MessageStore} {tables : MessageTables} {item : QueueItem} {text : QueueText}

theorem MessageQueue.saveBatch_adds {fault : Nat → Option SaveFault} {position : Nat} {messages : List QueueText}
    (stored : item.StoredIn (saveBatch fault tables position messages).tables) :
    item.StoredIn tables ∨ .item item ∈ messages := by
  induction messages generalizing tables position with
  | nil => exact .inl stored
  | cons text rest ih =>
      rw [saveBatch_tables] at stored
      rcases ih stored with saved | batch
      · rcases MessageTables.saveText_adds saved with earlier | same
        · exact .inl earlier
        · exact .inr (same ▸ List.mem_cons_self)
      · exact .inr (List.mem_cons_of_mem _ batch)

/-- A flush holds no message that was not held before. -/
theorem MessageQueue.has_flush {outcome : FlushOutcome} (has : (flushMessageQueue outcome store).store.Has item) :
    store.Has item := by
  by_cases proceeds : outcome.Proceeds
  · rw [(flushMessageQueue_proceeds store proceeds).2] at has
    rcases has with queued | stored
    · exact .inl (List.mem_of_mem_drop queued)
    · rcases saveBatch_adds stored with earlier | batch
      · exact .inr earlier
      · exact .inl (List.mem_of_mem_take batch)
  · have unchanged : (flushMessageQueue outcome store).store = store := by
      obtain ⟨redisPool, breakerAllows, connected, fault⟩ := outcome
      cases redisPool <;> cases breakerAllows <;> cases connected <;>
        simp [FlushOutcome.Proceeds, flushMessageQueue] at proceeds ⊢
    rwa [unchanged] at has

theorem MessageStore.has_directSaveMessage_adds {reachable : Bool} {other : QueueItem}
    (has : (store.directSaveMessage reachable (.item item)).Has other) : store.Has other ∨ other = item := by
  rcases has with queued | stored
  · exact .inl (.inl queued)
  · rcases MessageTables.saveText_adds stored with earlier | same
    · exact .inl (.inr earlier)
    · exact .inr (QueueText.item.inj same).symm

theorem MessageStore.has_queueMessage_adds {redisPool : Bool} {outcome : QueueOutcome} {other : QueueItem}
    (has : (store.queueMessage redisPool outcome (.item item)).Has other) : store.Has other ∨ other = item := by
  rw [queueMessage] at has
  split at has
  · exact has_directSaveMessage_adds has
  · split at has
    · split at has
      · rcases has with queued | stored
        · rcases List.mem_cons.mp queued with same | earlier
          · exact .inr (QueueText.item.inj same)
          · exact .inl (.inl earlier)
        · exact .inl (.inr stored)
      · exact .inl has
    · exact has_directSaveMessage_adds has

/-- The persistence of a message adds that message at most. -/
theorem MessageHandlers.has_persist_adds {config : Config} {outcome : PersistOutcome} {other : QueueItem}
    (has : (persist config outcome store item).Has other) : store.Has other ∨ other = item := by
  have save {reachable : Bool} := @MessageStore.has_directSaveMessage_adds store item reachable other
  cases item with
  | groupMessage message =>
      simp only [persist, persistGroup] at has
      split at has
      · exact MessageStore.has_queueMessage_adds has
      · exact save has
  | privateMessage message =>
      simp only [persist, persistPrivate] at has
      have fallback (has : (if config.redisPool then
            store.queueMessage true outcome.queue (.item (.privateMessage message))
          else { store with tables := (store.tables.savePrivateMessage outcome.saved message).2 }).Has other) :
          store.Has other ∨ other = .privateMessage message := by
        split at has
        · exact MessageStore.has_queueMessage_adds has
        · exact save has
      cases service : config.outboxService with
      | false =>
          simp only [service, Bool.false_eq_true, if_false] at has
          exact fallback has
      | true =>
          simp only [service, if_true] at has
          cases persisted : (outboxTransaction outcome.outbox store message).1 with
          | false =>
              rw [persisted, outboxTransaction_aborted persisted] at has
              exact fallback has
          | true =>
              rw [persisted, outboxTransaction_committed persisted, if_pos rfl] at has
              exact save has

namespace Conversations

open MuduoIm.Transition MuduoIm.Server.Delivery MuduoIm.Server.Recall

/-! ## What holds in every run -/

section

variable {Instance Session : Type} (state : State Instance Session)

/-- The message was sent in this conversation, or is a file that was sent with a
group open. -/
def Filed (conversations : Table String Conversation) : QueueItem → Prop
  | .privateMessage message =>
      conversations.lookup message.msgId = some (.direct message.fromUser message.toUser) ∨
        ∃ groupId, conversations.lookup message.msgId = some (.group groupId)
  | .groupMessage message => conversations.lookup message.msgId = some (.group message.groupId)

def TaskFiled (conversations : Table String Conversation) : Task → Prop
  | .text (.privateMessage _ message) _ _ =>
      conversations.lookup message.msgId = some (.direct message.fromUser message.toUser) ∧
        0 < message.toUser ∧ message.toUser < 2 ^ 63
  | .text (.groupMessage _ message _) _ _ => conversations.lookup message.msgId = some (.group message.groupId)
  | .file task =>
      conversations.lookup task.msgId = some (.direct task.fromUserId task.toUserId) ∨
        ∃ groupId, conversations.lookup task.msgId = some (.group groupId)

/-- Nobody is user 0 and no group is group 0, which stand for an id that could
not be read. -/
structure Sound : Prop where
  filed : ∀ item, state.records.store.Has item → Filed state.conversations item
  outboxed : ∀ message ∈ state.records.outbox,
    state.conversations.lookup message.msgId = some (.direct message.fromUser message.toUser)
  submitted : ∀ server, ∀ task ∈ (state.servers server).submitted, TaskFiled state.conversations task
  nobody : ∀ server dev, (state.managers server).sessions.find 0 dev = none
  groups : ∀ groupId userId, (groupId, userId) ∈ state.records.members → 0 < groupId

end

variable {Instance Session : Type} {state next : State Instance Session} {isOpen : Session → Bool}
variable {server : Instance} {user : Int} {session : Session} {msgId : String}
variable {records edited : Records} {conversations : Table String Conversation} {outcome : FlushOutcome}
variable {settings : Settings} {work : WorkOutcome Instance}

/-! ## Rows and edits -/

theorem filed_flushed (filed : ∀ item, records.store.Has item → Filed conversations item) :
    ∀ item, (records.flushed outcome).store.Has item → Filed conversations item :=
  fun item has => filed item (MessageQueue.has_flush has)

/-- A change of other columns does not change what a query selects. -/
theorem find_changed {Row Column : Type} {rows : List Row} {change : Row → Row} {selected : Row → Bool}
    {column : Row → Column} (kept : ∀ row, selected (change row) = selected row)
    (same : ∀ row, column (change row) = column row) :
    ((rows.map change).find? selected).map column = (rows.find? selected).map column := by
  have selects : selected ∘ change = selected := funext kept
  have columns : column ∘ change = column := funext same
  rw [List.find?_map, Option.map_map, selects, columns]

/-- What an edit of one message keeps: the groups, and all columns of the
messages but the content. -/
structure Kept (before after : Records) : Prop where
  members : after.members = before.members
  toUser : ∀ id, (after.privateRow id).map (·.toUser) = (before.privateRow id).map (·.toUser)
  groupId : ∀ id, (after.groupRow id).map (·.groupId) = (before.groupRow id).map (·.groupId)
  outbox : after.outbox = before.outbox
  filed : ∀ conversations, (∀ item, before.store.Has item → Filed conversations item) →
    ∀ item, after.store.Has item → Filed conversations item

theorem editMessage_kept {answered : Bool} {now : Int} {newBody : String} {kind : ConvType}
    (accepted : editMessage answered records msgId user now newBody kind = some edited) :
    Kept records edited := by
  cases kind with
  | privateChat =>
      simp only [editMessage] at accepted
      split at accepted
      · cases accepted
      · obtain ⟨_, same⟩ := Option.ite_none_right_eq_some.mp accepted
        cases same
        refine ⟨rfl, fun id => ?_, fun id => rfl, rfl, ?_⟩
        · apply find_changed <;> (intro row; split <;> rfl)
        · intro conversations filed item has
          rcases has with queued | stored
          · exact filed item (.inl queued)
          · cases item with
            | groupMessage message => exact filed _ (.inr stored)
            | privateMessage message =>
                obtain ⟨old, member, rfl⟩ := List.mem_map.mp stored
                have before := filed (.privateMessage old) (.inr member)
                split
                · exact before
                · exact before
  | group =>
      simp only [editMessage] at accepted
      split at accepted
      · cases accepted
      · obtain ⟨_, same⟩ := Option.ite_none_right_eq_some.mp accepted
        cases same
        refine ⟨rfl, fun id => rfl, fun id => ?_, rfl, ?_⟩
        · apply find_changed <;> (intro row; split <;> rfl)
        · intro conversations filed item has
          rcases has with queued | stored
          · exact filed item (.inl queued)
          · cases item with
            | privateMessage message => exact filed _ (.inr stored)
            | groupMessage message =>
                obtain ⟨old, member, rfl⟩ := List.mem_map.mp stored
                have before := filed (.groupMessage old) (.inr member)
                split
                · exact before
                · exact before

theorem sound_init : Sound ({} : State Instance Session) where
  filed := by
    intro item has
    cases item <;> simp [MessageStore.Has, QueueItem.StoredIn] at has
  outboxed := by simp
  submitted := by simp
  nobody := fun _ _ => rfl
  groups := by simp

/-- What a handler leaves of the records: the groups as they are, and messages
that are filed. -/
structure Harmless (conversations : Table String Conversation) (before after : Records) : Prop where
  members : after.members = before.members
  filed : (∀ item, before.store.Has item → Filed conversations item) →
    ∀ item, after.store.Has item → Filed conversations item
  outboxed : ∀ message ∈ after.outbox, message ∈ before.outbox ∨
    conversations.lookup message.msgId = some (.direct message.fromUser message.toUser)

theorem Harmless.afterEdit {before : Records} (harmless : Harmless conversations before records)
    (kept : Kept records edited) : Harmless conversations before edited where
  members := kept.members.trans harmless.members
  filed := fun filed => kept.filed _ (harmless.filed filed)
  outboxed := by
    rw [kept.outbox]
    exact harmless.outboxed

theorem handleEdit_harmless {managers : Instance → OnlineManager Session} {unread : Unread} {frame : Json}
    {now : Int} {answers : Answers} : Harmless conversations records
      (handleEdit managers isOpen server user session records unread frame now answers).records := by
  have unchanged : Harmless conversations records records := ⟨rfl, id, fun _ => .inl⟩
  have flushed : Harmless conversations records (records.flushed answers.flush) :=
    ⟨rfl, filed_flushed, fun _ => .inl⟩
  simp only [handleEdit]
  split
  · split
    · exact unchanged
    · split
      · exact unchanged
      · split
        · rename_i edited accepted
          exact flushed.afterEdit (editMessage_kept accepted)
        · split
          · rename_i edited accepted
            exact flushed.afterEdit (editMessage_kept accepted)
          · exact flushed
  · exact unchanged

theorem handleReaction_harmless {managers : Instance → OnlineManager Session} {weightString : String → List Nat}
    {unread : Unread} {frame : Json} {answers : Answers} : Harmless conversations records
      (handleReaction managers isOpen server user session weightString records unread frame answers).records := by
  have unchanged : Harmless conversations records records := ⟨rfl, id, fun _ => .inl⟩
  have flushed : Harmless conversations records (records.flushed answers.flush) :=
    ⟨rfl, filed_flushed, fun _ => .inl⟩
  have stored {reactions} : Harmless conversations records
      { records.flushed answers.flush with reactions := reactions } :=
    ⟨flushed.members, flushed.filed, flushed.outboxed⟩
  simp only [handleReaction]
  split
  · split
    · exact unchanged
    · split
      · exact unchanged
      · split
        · exact flushed
        · split
          · exact stored
          · split
            · exact stored
            · exact stored
  · exact unchanged

theorem work_harmless {managers : Instance → OnlineManager Session} {unread : Unread} {task : Task}
    (filed : TaskFiled conversations task) : Harmless conversations records
      (task.work managers isOpen settings server work records unread).records := by
  cases task with
  | text task replyTo senderDevice =>
      cases task with
      | privateMessage clientMsgId message =>
          refine ⟨rfl, ?_, ?_⟩
          · intro before item has
            rcases MessageHandlers.has_persist_adds has with earlier | rfl
            · exact before item earlier
            · exact .inl filed.1
          · intro other listed
            simp only [Task.work, workPrivate] at listed
            split at listed
            · rcases List.mem_append.mp listed with earlier | added
              · exact .inl earlier
              · rw [List.mem_singleton.mp added]
                exact .inr filed.1
            · exact .inl listed
      | groupMessage clientMsgId message mentions =>
          refine ⟨rfl, ?_, fun _ => .inl⟩
          intro before item has
          rcases MessageHandlers.has_persist_adds has with earlier | rfl
          · exact before item earlier
          · exact filed
  | file task =>
      refine ⟨rfl, ?_, fun _ => .inl⟩
      intro before item has
      have has : (records.store.directSaveMessage work.saved
        (.item (.privateMessage (task.row settings.dump)))).Has item := has
      rcases MessageStore.has_directSaveMessage_adds has with earlier | rfl
      · exact before item earlier
      · exact filed

theorem Sound.settle {effect : Effect Instance Session} (sound : Sound state)
    (harmless : Harmless state.conversations state.records effect.records) :
    Sound (state.settle user effect) where
  filed := harmless.filed sound.filed
  outboxed := by
    intro message listed
    rcases harmless.outboxed message listed with earlier | direct
    · exact sound.outboxed message earlier
    · exact direct
  submitted := sound.submitted
  nobody := sound.nobody
  groups := by
    intro groupId userId member
    exact sound.groups groupId userId (harmless.members ▸ member)

theorem Sound.quiet (sound : Sound state) : Sound (state.quiet user) :=
  ⟨sound.filed, sound.outboxed, sound.submitted, sound.nobody, sound.groups⟩

variable [DecidableEq Instance]

theorem submitted_setServer {chat : ChatServer Session} {other : Instance} {task : Task}
    (listed : task ∈ ((state.setServer server chat).servers other).submitted) :
    task ∈ chat.submitted ∨ task ∈ (state.servers other).submitted := by
  simp only [State.setServer, Function.update_apply] at listed
  split at listed
  · exact .inl listed
  · exact .inr listed

theorem managers_setServer {chat : ChatServer Session} {other : Instance} :
    (state.setServer server chat).managers other =
      if other = server then chat.onlineManager else state.managers other := by
  simp only [State.managers, State.setServer, Function.update_apply]
  split <;> rfl

theorem Sound.setServer {chat : ChatServer Session} (sound : Sound state)
    (submitted : ∀ task ∈ chat.submitted, TaskFiled state.conversations task)
    (nobody : ∀ dev, chat.onlineManager.sessions.find 0 dev = none) : Sound (state.setServer server chat) where
  filed := sound.filed
  outboxed := sound.outboxed
  submitted := by
    intro other task listed
    rcases submitted_setServer listed with added | earlier
    · exact submitted task added
    · exact sound.submitted other task earlier
  nobody := by
    intro other dev
    rw [managers_setServer]
    split
    · exact nobody dev
    · exact sound.nobody other dev
  groups := sound.groups

theorem lookup_fresh {id fresh : String} {conversation inserted : Conversation}
    (unused : conversations.lookup fresh = none) (found : conversations.lookup id = some conversation) :
    (conversations.insert fresh inserted).lookup id = some conversation := by
  have other : id ≠ fresh := by
    rintro rfl
    rw [unused] at found
    cases found
  rw [Table.lookup_insert_ite, if_neg other, found]

theorem Filed.insert {item : QueueItem} {fresh : String} {conversation : Conversation}
    (unused : conversations.lookup fresh = none) (filed : Filed conversations item) :
    Filed (conversations.insert fresh conversation) item := by
  cases item with
  | privateMessage message =>
      rcases filed with direct | ⟨groupId, ofGroup⟩
      · exact .inl (lookup_fresh unused direct)
      · exact .inr ⟨groupId, lookup_fresh unused ofGroup⟩
  | groupMessage message => exact lookup_fresh unused filed

theorem TaskFiled.insert {task : Task} {fresh : String} {conversation : Conversation}
    (unused : conversations.lookup fresh = none) (filed : TaskFiled conversations task) :
    TaskFiled (conversations.insert fresh conversation) task := by
  cases task with
  | text task replyTo senderDevice =>
      cases task with
      | privateMessage clientMsgId message => exact ⟨lookup_fresh unused filed.1, filed.2⟩
      | groupMessage clientMsgId message mentions => exact lookup_fresh unused filed
  | file task =>
      rcases filed with direct | ⟨groupId, ofGroup⟩
      · exact .inl (lookup_fresh unused direct)
      · exact .inr ⟨groupId, lookup_fresh unused ofGroup⟩

/-- A task is filed under the conversation that is recorded for it. -/
theorem Sound.submit {recentMsgIds : List String} {reply : Option Reply} {accepted : Option (Task × Conversation)}
    (sound : Sound state) (unused : ∀ entry ∈ accepted, state.conversations.lookup entry.1.msgId = none)
    (filed : ∀ entry ∈ accepted, TaskFiled (state.conversations.insert entry.1.msgId entry.2) entry.1) :
    Sound (state.submit server user recentMsgIds reply accepted) := by
  have nobody : ∀ other dev, ((state.submit server user recentMsgIds reply accepted).managers other).sessions.find
      0 dev = none := by
    intro other dev
    have kept := @managers_setServer _ _ state server _ { state.servers server with
      recentMsgIds, submitted := (state.servers server).submitted ++ (accepted.map Prod.fst).toList } other
    have same : (state.submit server user recentMsgIds reply accepted).managers other = state.managers other := by
      refine kept.trans ?_
      split
      · rename_i here
        rw [here]
        rfl
      · rfl
    rw [same]
    exact sound.nobody other dev
  cases accepted with
  | none =>
      refine ⟨sound.filed, sound.outboxed, ?_, nobody, sound.groups⟩
      intro other task listed
      rcases submitted_setServer listed with here | elsewhere
      · rw [Option.map_none, Option.toList_none, List.append_nil] at here
        exact sound.submitted server task here
      · exact sound.submitted other task elsewhere
  | some entry =>
      have fresh := unused entry rfl
      refine ⟨fun item has => (sound.filed item has).insert fresh,
        fun message listed => lookup_fresh fresh (sound.outboxed message listed), ?_, nobody, sound.groups⟩
      intro other task listed
      rcases submitted_setServer listed with here | elsewhere
      · rcases List.mem_append.mp here with earlier | added
        · exact (sound.submitted server task earlier).insert fresh
        · have same : task = entry.1 := List.mem_singleton.mp added
          rw [same]
          exact filed entry rfl
      · exact (sound.submitted other task elsewhere).insert fresh

variable {frame : Json} {arrival : Arrival} {answers : Answers} {device : String}

theorem Sound.submitText {handler : Handler} (sound : Sound state)
    (unused : state.conversations.lookup arrival.msgId = none) :
    Sound (state.submitText settings server user device frame arrival handler) := by
  have handed {task : MessageHandlers.Task}
      (accepted : (handler.handle settings.config.moderation (state.servers server).recentMsgIds frame user
        arrival).task = some task) :
      task.msgId = arrival.msgId ∧ TaskFiled (state.conversations.insert task.msgId (textConversation task))
        (.text task ((frame.valueString "replyTo" "").getD "") device) := by
    cases handler with
    | privateMessage =>
        obtain ⟨arguments, checked, rfl⟩ := handleFrame_task accepted
        exact ⟨rfl, AList.lookup_insert _, checkArguments_target checked⟩
    | groupMessage =>
        obtain ⟨arguments, checked, rfl⟩ := handleFrame_task accepted
        exact ⟨rfl, AList.lookup_insert _⟩
  apply sound.submit
  · intro entry member
    obtain ⟨task, accepted, rfl⟩ := Option.map_eq_some_iff.mp member
    have same : (Task.text task ((frame.valueString "replyTo" "").getD "") device).msgId = arrival.msgId :=
      (handed accepted).1
    rw [same]
    exact unused
  · intro entry member
    obtain ⟨task, accepted, rfl⟩ := Option.map_eq_some_iff.mp member
    exact (handed accepted).2

theorem Sound.submitFile (sound : Sound state) (unused : state.conversations.lookup arrival.msgId = none) :
    Sound (state.submitFile server user frame arrival) := by
  apply sound.submit
  · intro entry member
    obtain ⟨task, accepted, rfl⟩ := Option.map_eq_some_iff.mp member
    have same : (Task.file task).msgId = arrival.msgId := handleFileMessage_msgId accepted
    rw [same]
    exact unused
  · intro entry member
    obtain ⟨task, accepted, rfl⟩ := Option.map_eq_some_iff.mp member
    have recorded : (state.conversations.insert task.msgId (fileConversation frame task)).lookup task.msgId =
        some (fileConversation frame task) := AList.lookup_insert _
    have between : fileConversation frame task = .direct task.fromUserId task.toUserId ∨
        ∃ groupId, fileConversation frame task = .group groupId := by
      rw [fileConversation]
      split
      · exact .inr ⟨_, rfl⟩
      · exact .inl rfl
    rcases between with direct | ⟨groupId, ofGroup⟩
    · exact .inl (recorded.trans (congrArg some direct))
    · exact .inr ⟨groupId, recorded.trans (congrArg some ofGroup)⟩

theorem Sound.handleMessage (sound : Sound state) (unused : state.conversations.lookup arrival.msgId = none) :
    Sound (state.handleMessage settings server user session device frame arrival answers isOpen) := by
  rw [State.handleMessage]
  split
  · exact sound.quiet
  · split
    · exact ⟨sound.filed, sound.outboxed, sound.submitted, sound.nobody, sound.groups⟩
    · split
      · exact sound.submitText unused
      · exact sound.submitText unused
      · exact sound.submitFile unused
      · exact sound.settle handleEdit_harmless
      · exact sound.settle handleReaction_harmless
      · exact sound.quiet
      · exact ⟨sound.filed, sound.outboxed, sound.submitted, sound.nobody, sound.groups⟩

/-- A step that handles no frame, no task and no command. -/
def Event.Quiet : Event Instance Session → Prop
  | .message .. => False
  | .work .. => False
  | .pushCommand .. => False
  | _ => True

/-- What a step can do. -/
theorem step_cases {event : Event Instance Session} (stepped : step settings state event = some next) :
    (∃ server user session device frame arrival answers isOpen,
      event = .message server user session device frame arrival answers isOpen ∧
      state.conversations.lookup arrival.msgId = none ∧
      next = state.handleMessage settings server user session device frame arrival answers isOpen) ∨
    (∃ server msgId work isOpen task, event = .work server msgId work isOpen ∧
      (state.servers server).submitted.find? (fun task => task.msgId = msgId) = some task ∧
      next = (state.setServer server { state.servers server with
        submitted := (state.servers server).submitted.filter (fun other => other.msgId ≠ msgId) }).settle
          task.fromUser (task.work state.managers isOpen settings server work state.records state.unread)) ∨
    (∃ server message isOpen, event = .pushCommand server message isOpen ∧ message ∈ state.records.outbox ∧
      next = state.settle message.fromUser
        (deliverCommand state.managers isOpen server state.records state.unread message)) ∨
    (∃ user records, (∃ outcome recalled, records = { state.records.flushed outcome with recalled }) ∧
      event.Quiet ∧ next = { state.quiet user with records }) ∨
    (∃ server user manager,
      (∀ dev, (state.managers server).sessions.find 0 dev = none → manager.sessions.find 0 dev = none) ∧
      event.Quiet ∧
      next = (state.setServer server { state.servers server with onlineManager := manager }).quiet user) ∨
    (∃ rows : List (Int × Int), (∀ row ∈ rows, 0 < row.1) ∧ event.Quiet ∧
      next = { state.quiet 0 with records := { state.records with members := rows } }) := by
  cases event with
  | message server user session device frame arrival answers isOpen =>
      obtain ⟨fresh, same⟩ := Option.ite_none_left_eq_some.mp stepped
      cases same
      exact .inl ⟨_, _, _, _, _, _, _, _, rfl, by simpa using fresh, rfl⟩
  | work server msgId work isOpen =>
      simp only [step] at stepped
      split at stepped
      · cases stepped
      · rename_i task found
        cases stepped
        exact .inr (.inl ⟨_, _, _, _, task, rfl, found, rfl⟩)
  | pushCommand server message isOpen =>
      obtain ⟨listed, same⟩ := Option.ite_none_right_eq_some.mp stepped
      cases same
      exact .inr (.inr (.inl ⟨_, _, _, rfl, listed, rfl⟩))
  | recallMessage outcome msgId user now =>
      cases stepped
      exact .inr (.inr (.inr (.inl ⟨user, _, ⟨outcome, _, rfl⟩, trivial, rfl⟩)))
  | flush outcome =>
      cases stepped
      exact .inr (.inr (.inr (.inl ⟨0, _, ⟨outcome, _, rfl⟩, trivial, rfl⟩)))
  | connect server user device session =>
      obtain ⟨positive, same⟩ := Option.ite_none_right_eq_some.mp stepped
      cases same
      refine .inr (.inr (.inr (.inr (.inl ⟨server, user, _, ?_, trivial, rfl⟩))))
      intro dev absent
      rw [OnlineManager.find_addDevice, if_neg (by omega)]
      exact absent
  | close server user device =>
      cases stepped
      refine .inr (.inr (.inr (.inr (.inl ⟨server, user, _, ?_, trivial, rfl⟩))))
      intro dev absent
      rw [OnlineManager.find_removeDevice]
      split
      · rfl
      · exact absent
  | members rows =>
      obtain ⟨positive, same⟩ := Option.ite_none_right_eq_some.mp stepped
      cases same
      exact .inr (.inr (.inr (.inr (.inr ⟨rows, positive, trivial, rfl⟩))))

theorem Sound.step {event : Event Instance Session} (sound : Sound state)
    (stepped : step settings state event = some next) : Sound next := by
  rcases step_cases stepped with
    ⟨server, user, session, device, frame, arrival, answers, isOpen, _, unused, rfl⟩ |
    ⟨server, msgId, work, isOpen, task, _, found, rfl⟩ | ⟨server, message, isOpen, _, _, rfl⟩ |
    ⟨user, records, ⟨outcome, recalled, rfl⟩, _, rfl⟩ | ⟨server, user, manager, nobody, _, rfl⟩ |
    ⟨rows, positive, _, rfl⟩
  · exact sound.handleMessage unused
  · have filed := sound.submitted server task (List.mem_of_find?_eq_some found)
    have kept : Sound (state.setServer server { state.servers server with
        submitted := (state.servers server).submitted.filter (fun other => other.msgId ≠ msgId) }) := by
      apply sound.setServer
      · intro other listed
        exact sound.submitted server other (List.mem_of_mem_filter listed)
      · exact sound.nobody server
    exact kept.settle (work_harmless filed)
  · exact sound.settle ⟨rfl, id, fun _ => .inl⟩
  · exact ⟨filed_flushed sound.filed, sound.outboxed, sound.submitted, sound.nobody, sound.groups⟩
  · have kept : Sound (state.setServer server { state.servers server with onlineManager := manager }) := by
      apply sound.setServer
      · exact sound.submitted server
      · exact fun dev => nobody dev (sound.nobody server dev)
    exact kept.quiet
  · exact ⟨sound.filed, sound.outboxed, sound.submitted, sound.nobody, fun groupId userId member => positive _ member⟩

end Conversations

end MuduoIm.Server
