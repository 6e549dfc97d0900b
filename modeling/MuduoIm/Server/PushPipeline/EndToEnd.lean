import MuduoIm.Server.PushPipeline

namespace MuduoIm.Server.PushPipeline

open MuduoIm.Data MuduoIm.Data.LogReader MuduoIm.Transition
open MuduoIm.PushRouter (PushOut Word pushCommands route)
open MuduoIm.PushRouter.Transactional (CommitsInSequence InSequence)
open MuduoIm.Server.Conversations (readCommand readCommand_route)
open MuduoIm.Server.OutboxService (Entry System SystemEvent Traced kafkaPayload systemStep)

/-! # No message is lost between the outbox and the devices -/

variable {R Txn Instance Session : Type}

/-! ## The histories of the stages -/

section

variable {state next : PushRouter.Transactional.State} {event : PushRouter.Transactional.Event}

theorem endTx_history (process : PushRouter.Transactional.Process) (ok offsetsSent committed : Bool) :
    (PushRouter.Transactional.endTx state process ok offsetsSent committed).log = state.log ∧
      ∃ more, (PushRouter.Transactional.endTx state process ok offsetsSent committed).commands =
        state.commands ++ more := by
  unfold PushRouter.Transactional.endTx
  split
  · exact ⟨rfl, process.buffer, rfl⟩
  · exact ⟨rfl, [], (List.append_nil _).symm⟩

/-- The router does not write to its input, and only adds to its output. -/
theorem router_history (reads : ∀ record, event ≠ .publish record)
    (stepped : PushRouter.Transactional.step state event = some next) :
    next.log = state.log ∧ ∃ more, next.commands = state.commands ++ more := by
  have same : state.log = state.log ∧ ∃ more, state.commands = state.commands ++ more :=
    ⟨rfl, [], (List.append_nil _).symm⟩
  cases event with
  | publish record => exact absurd rfl (reads record)
  | start =>
      simp only [PushRouter.Transactional.step] at stepped
      split at stepped
      · cases stepped
        exact same
      · cases stepped
  | beginTransaction began =>
      simp only [PushRouter.Transactional.step] at stepped
      split at stepped
      · cases stepped
      · split at stepped
        · cases stepped
        · split at stepped <;> cases stepped <;> exact same
  | consumeOnce consumed =>
      simp only [PushRouter.Transactional.step] at stepped
      split at stepped
      · cases stepped
      · split at stepped
        · obtain ⟨process, _, rfl⟩ := Option.map_eq_some_iff.mp stepped
          exact same
        · cases stepped
  | endTx offsetsSent committed =>
      simp only [PushRouter.Transactional.step] at stepped
      split at stepped
      · cases stepped
      · rename_i process _
        obtain ⟨ok, _, rfl⟩ := Option.map_eq_some_iff.mp stepped
        exact endTx_history process ok offsetsSent committed
  | crash =>
      cases stepped
      exact same

end

section

variable [DecidableEq R] {batchSize : ℕ} {state next : OutboxService.State R Json} {event : OutboxService.Event R Json}

/-- What was handed to Kafka stays so, and a new delivery is one that a callback
reports. -/
theorem relay_history (stepped : OutboxService.step batchSize state event = some next) :
    (∀ entry ∈ state.handed, entry ∈ next.handed) ∧
      ∀ entry ∈ next.delivered, entry ∈ state.delivered ∨ ∃ relay context executed,
        event = .callback relay context true executed ∧
          (state.relays relay).outstanding[context]? = some entry := by
  have same : (∀ entry ∈ state.handed, entry ∈ state.handed) ∧
      ∀ entry ∈ state.delivered, entry ∈ state.delivered ∨ ∃ relay context executed,
        event = .callback relay context true executed ∧
          (state.relays relay).outstanding[context]? = some entry :=
    ⟨fun _ member => member, fun _ member => .inl member⟩
  cases event with
  | commit row =>
      obtain ⟨_, _, rfl⟩ := OutboxService.commit_eq_some stepped
      exact same
  | tick elapsed =>
      cases stepped
      exact same
  | start relay executed =>
      obtain ⟨_, rfl⟩ := OutboxService.start_eq_some stepped
      exact same
  | select relay executed =>
      obtain ⟨_, _, _, _, _, rfl⟩ := OutboxService.select_eq_some stepped
      exact same
  | claim relay executed =>
      obtain ⟨_, _, _, ⟨_, _, rfl⟩ | ⟨_, rfl⟩⟩ := OutboxService.claim_eq_some stepped
      · exact same
      · exact same
  | produce relay queued executed =>
      obtain ⟨_, _, _, _, ⟨_, rfl⟩ | ⟨_, rfl⟩⟩ := OutboxService.produce_eq_some stepped
      · exact ⟨fun _ member => .tail _ member, same.2⟩
      · exact ⟨fun _ member => .tail _ member, same.2⟩
  | callback relay context ok executed =>
      obtain ⟨entry, before, later, outstanding, rfl, rfl⟩ := OutboxService.callback_eq_some stepped
      refine ⟨same.1, fun other member => ?_⟩
      cases ok with
      | false => exact .inl member
      | true =>
          obtain earlier | last := List.mem_append.mp member
          · exact .inl earlier
          · refine .inr ⟨relay, before.length, executed, rfl, ?_⟩
            rw [outstanding, List.getElem?_append_right (Nat.le_refl _), Nat.sub_self, List.mem_singleton.mp last]
            rfl
  | crash relay =>
      cases stepped
      exact same

end

section

variable [DecidableEq R] [DecidableEq Txn] {batchSize : ℕ} {system next : System R Txn} {event : SystemEvent R Txn}

/-- The values of the transactions and of the stored messages are of their types. -/
structure Ranged (system : System R Txn) : Prop where
  stored : ∀ message ∈ system.tables.privateMessages, InRange message
  running : ∀ txn transaction, system.transactions txn = some transaction → InRange transaction.message

omit [DecidableEq R] in
theorem Ranged.setTransaction (ranged : Ranged system) (txn : Txn) (transaction : Option OutboxService.Transaction)
    (inRange : ∀ new, transaction = some new → InRange new.message) : Ranged (system.setTransaction txn transaction) where
  stored := ranged.stored
  running other held found := by
    by_cases same : other = txn
    · subst same
      simp only [System.setTransaction, Function.update_self] at found
      exact inRange held found
    · simp only [System.setTransaction, Function.update_of_ne same] at found
      exact ranged.running other held found

theorem Ranged.preserved (ranged : Ranged system)
    (begins : ∀ txn message, event = .begin txn message → InRange message)
    (stepped : systemStep batchSize system event = some next) : Ranged next := by
  cases event with
  | begin txn message =>
      simp only [systemStep] at stepped
      split at stepped
      · cases stepped
        exact ranged.setTransaction _ _ fun new same => by
          rw [← Option.some.inj same]
          exact begins txn message rfl
      · cases stepped
  | savePrivateMessageTx txn executed =>
      simp only [systemStep] at stepped
      split at stepped
      · rename_i message held
        have inRange := ranged.running txn _ held
        cases stepped
        exact ranged.setTransaction _ _ fun new same => by
          rw [← Option.some.inj same]
          exact inRange
      · cases stepped
  | insertOutbox txn executed =>
      simp only [systemStep] at stepped
      split at stepped
      · rename_i message savedRow held
        have inRange := ranged.running txn _ held
        cases stepped
        refine ⟨ranged.stored, (ranged.setTransaction _ _ fun new same => ?_).running⟩
        rw [← Option.some.inj same]
        exact inRange
      · cases stepped
  | finish txn committed =>
      have ended : Ranged (system.setTransaction txn none) := ranged.setTransaction _ _ fun _ same => by cases same
      simp only [systemStep] at stepped
      split at stepped
      · cases stepped
      · rename_i message row held
        split at stepped
        · split at stepped
          · rename_i tables relays saved _
            cases stepped
            refine ⟨fun other member => ?_, ended.running⟩
            rw [OutboxService.savePrivateMessage_saved saved] at member
            obtain earlier | last := List.mem_append.mp member
            · exact ranged.stored other earlier
            · rw [List.mem_singleton.mp last]
              exact ranged.running txn _ held
          · cases stepped
        · cases stepped
          exact ended
      · cases stepped
        exact ended
  | relay event =>
      simp only [systemStep] at stepped
      split at stepped
      · cases stepped
      · obtain ⟨relays, _, rfl⟩ := Option.map_eq_some_iff.mp stepped
        exact ⟨ranged.stored, ranged.running⟩

end

/-! ## The invariant -/

/-- The callback ran on the command at this index. -/
def Handled (commands : List (ℕ × PushOut)) (index : ℕ) (handling : Handling Session) : Prop :=
  ∃ command, commands[index]? = some command ∧ handle handling.manager handling.isOpen command = some (handling, true)

theorem handled_of_handle {manager : OnlineManager Session} {isOpen : Session → Bool} {command : ℕ × PushOut}
    {handling : Handling Session} {isDone : Bool} (returned : handle manager isOpen command = some (handling, isDone)) :
    handle handling.manager handling.isOpen command = some (handling, true) := by
  have whole := returned
  unfold handle at returned
  split at returned
  · cases returned
  · cases returned
    exact whole

theorem Handled.grow {commands more : List (ℕ × PushOut)} {index : ℕ} {handling : Handling Session}
    (handled : Handled commands index handling) : Handled (commands ++ more) index handling := by
  obtain ⟨command, found, returned⟩ := handled
  refine ⟨command, ?_, returned⟩
  rw [List.getElem?_append_left (List.getElem?_eq_some_iff.mp found).1]
  exact found

/-- The stages fit together. -/
structure Piped (state : State R Txn Instance Session) : Prop where
  traced : Traced state.system
  ranged : Ranged state.system
  routed : InSequence state.router
  log : state.router.log = state.appended.map fun entry => some entry.payload
  handed : ∀ entry ∈ state.appended, entry ∈ state.system.relays.handed
  delivered : ∀ entry ∈ state.system.relays.delivered, entry ∈ state.appended
  covers : ∀ server, Covers (Handled state.router.commands) (state.readers server)
  sourced : ∀ server, Sourced (Handled state.router.commands) (state.readers server)

variable {state next : State R Txn Instance Session}

theorem piped_start : Piped ({} : State R Txn Instance Session) where
  traced := by refine ⟨⟨?_, ?_, ?_, ?_, ?_, ?_⟩, ?_, ?_⟩ <;> simp [OutboxService.entries]
  ranged := ⟨fun _ member => absurd member List.not_mem_nil, fun _ _ found => by cases found⟩
  routed := ⟨Nat.le_refl 0, outputs_self.symm, fun _ running => by cases running⟩
  log := rfl
  handed _ member := absurd member List.not_mem_nil
  delivered _ member := absurd member List.not_mem_nil
  covers _ := covers_new
  sourced _ _ _ member := absurd member List.not_mem_nil

theorem Piped.append {entry : Entry Json} (piped : Piped state) (handed : entry ∈ state.system.relays.handed) :
    Piped { state with
      appended := state.appended ++ [entry]
      router := { state.router with log := state.router.log ++ [some entry.payload] } } := by
  refine ⟨piped.traced, piped.ranged, ?_, ?_, fun other member => ?_, fun other member => ?_, piped.covers,
    piped.sourced⟩
  · exact @InSequence.preserved _ _ (.publish (some entry.payload)) piped.routed trivial rfl
  · simp only [List.map_append, List.map_cons, List.map_nil, piped.log]
  · obtain before | last := List.mem_append.mp member
    · exact piped.handed other before
    · exact List.mem_singleton.mp last ▸ handed
  · exact List.mem_append_left _ (piped.delivered other member)

theorem Piped.router {event : PushRouter.Transactional.Event} {router : PushRouter.Transactional.State}
    (piped : Piped state) (reads : ∀ record, event ≠ .publish record) (keeps : CommitsInSequence state.router event)
    (stepped : PushRouter.Transactional.step state.router event = some router) : Piped { state with router } := by
  obtain ⟨log, more, grown⟩ := router_history reads stepped
  refine ⟨piped.traced, piped.ranged, piped.routed.preserved keeps stepped, log.trans piped.log, piped.handed,
    piped.delivered, fun server => (piped.covers server).mono fun index handling handled => ?_,
    fun server => (piped.sourced server).mono fun index handling handled => ?_⟩
  · rw [grown]
    exact handled.grow
  · rw [grown]
    exact handled.grow

/-- The reader of one instance takes a step. -/
theorem Piped.read [DecidableEq Instance] {server : Instance} {reader : Reader (Handling Session)} (piped : Piped state)
    (covers : Covers (Handled state.router.commands) reader) (sourced : Sourced (Handled state.router.commands) reader) :
    Piped { state with readers := Function.update state.readers server reader } := by
  refine ⟨piped.traced, piped.ranged, piped.routed, piped.log, piped.handed, piped.delivered, fun other => ?_,
    fun other => ?_⟩
  · by_cases same : other = server
    · subst same
      simpa only [Function.update_self] using covers
    · simpa only [Function.update_of_ne same] using piped.covers other
  · by_cases same : other = server
    · subst same
      simpa only [Function.update_self] using sourced
    · simpa only [Function.update_of_ne same] using piped.sourced other

section

variable [DecidableEq R] [DecidableEq Txn] {batchSize : ℕ}

theorem Piped.outbox {event : SystemEvent R Txn} {system : System R Txn} (piped : Piped state)
    (permitted : state.permits event = true) (stepped : systemStep batchSize state.system event = some system) :
    Piped { state with system } := by
  have traced : Traced system := piped.traced.preserved stepped
  have ranged : Ranged system := by
    refine piped.ranged.preserved (fun txn message same => ?_) stepped
    subst same
    exact of_decide_eq_true permitted
  have histories : (∀ entry ∈ state.system.relays.handed, entry ∈ system.relays.handed) ∧
      ∀ entry ∈ system.relays.delivered, entry ∈ state.appended := by
    cases event with
    | begin txn message =>
        simp only [systemStep] at stepped
        split at stepped <;> cases stepped
        exact ⟨fun _ member => member, piped.delivered⟩
    | savePrivateMessageTx txn executed =>
        simp only [systemStep] at stepped
        split at stepped <;> cases stepped
        exact ⟨fun _ member => member, piped.delivered⟩
    | insertOutbox txn executed =>
        simp only [systemStep] at stepped
        split at stepped <;> cases stepped
        exact ⟨fun _ member => member, piped.delivered⟩
    | finish txn committed =>
        simp only [systemStep] at stepped
        split at stepped
        · cases stepped
        · split at stepped
          · split at stepped
            · rename_i inserted
              cases stepped
              obtain ⟨_, _, rfl⟩ := OutboxService.commit_eq_some inserted
              exact ⟨fun _ member => member, piped.delivered⟩
            · cases stepped
          · cases stepped
            exact ⟨fun _ member => member, piped.delivered⟩
        · cases stepped
          exact ⟨fun _ member => member, piped.delivered⟩
    | relay event =>
        simp only [systemStep] at stepped
        split at stepped
        · cases stepped
        · obtain ⟨relays, moved, rfl⟩ := Option.map_eq_some_iff.mp stepped
          obtain ⟨handed, delivered⟩ := relay_history moved
          refine ⟨handed, fun entry member => ?_⟩
          obtain before | ⟨relay, context, executed, rfl, outstanding⟩ := delivered entry member
          · exact piped.delivered entry before
          · -- the entry that was written has the id of this one, and so is this one
            simp only [State.permits, outstanding, Option.all_some, List.any_eq_true, decide_eq_true_eq] at permitted
            obtain ⟨written, listed, sameId⟩ := permitted
            have sound := piped.traced.relays
            have known : written ∈ OutboxService.entries state.system.relays.outbox :=
              (sound.committed written).mp (sound.handed written (piped.handed written listed))
            have flying : entry ∈ OutboxService.entries state.system.relays.outbox :=
              (sound.committed entry).mp (sound.inFlight relay entry
                (List.mem_append_right _ (List.mem_of_getElem? outstanding)))
            exact List.inj_on_of_nodup_map sound.distinct known flying sameId ▸ listed
  exact ⟨traced, ranged, piped.routed, piped.log, fun entry member => histories.1 entry (piped.handed entry member),
    histories.2, piped.covers, piped.sourced⟩

variable [DecidableEq Instance]

theorem Piped.preserved {event : Event R Txn Instance Session} (piped : Piped state)
    (keeps : RoutesInSequence state event) (stepped : step batchSize state event = some next) : Piped next := by
  cases event with
  | outbox event =>
      simp only [step] at stepped
      split at stepped
      · rename_i permitted
        obtain ⟨system, moved, rfl⟩ := Option.map_eq_some_iff.mp stepped
        exact piped.outbox permitted moved
      · cases stepped
  | append index =>
      simp only [step] at stepped
      split at stepped
      · cases stepped
      · rename_i entry found
        cases stepped
        exact piped.append (List.mem_of_getElem? found)
  | router event =>
      simp only [step] at stepped
      split at stepped
      · cases stepped
      · rename_i reads
        obtain ⟨router, moved, rfl⟩ := Option.map_eq_some_iff.mp stepped
        exact piped.router reads keeps moved
  | sessions managers isOpen =>
      cases stepped
      exact ⟨piped.traced, piped.ranged, piped.routed, piped.log, piped.handed, piped.delivered, piped.covers,
        piped.sourced⟩
  | start server =>
      obtain ⟨reader, started, rfl⟩ := Option.map_eq_some_iff.mp stepped
      exact piped.read ((piped.covers server).start started) ((piped.sourced server).start started)
  | consume server crashes =>
      obtain ⟨taken, took, rfl⟩ := Option.map_eq_some_iff.mp stepped
      have source (position : ℕ) (command : ℕ × PushOut) (handling : Handling Session) (isDone : Bool)
          (found : state.router.commands[position]? = some command)
          (returned : handle (state.managers server) state.isOpen command = some (handling, isDone)) :
          Handled state.router.commands position handling := ⟨command, found, handled_of_handle returned⟩
      exact piped.read
        ((piped.covers server).take (fun position command handling => source position command handling true) took)
        ((piped.sourced server).take source took)
  | crash server =>
      cases stepped
      exact piped.read (piped.covers server).crash (piped.sourced server)

end

/-! ## What arrives -/

/-- The frame that an instance would send of the message itself, but for the
reference of a reply, which the outbox row does not have. -/
def Carries (message : PrivateMessage) (frame : Json) : Prop :=
  ∀ key, frame.member key = (Frame.msg message "").json.member key

/-- The callback has pushed the message to every session that was open then. -/
def Handling.Reaches (handling : Handling Session) (message : PrivateMessage) : Prop :=
  ∀ dev session, handling.manager.sessions.find message.toUser dev = some session → handling.isOpen session = true →
    ∃ push ∈ handling.pushes, push.user = message.toUser ∧ push.session = session ∧ Carries message push.frame

/-- A command of `im.push.commands` at this index is one of the message, and
every instance is still to read it, or has read it. -/
def Commanded (state : State R Txn Instance Session) (message : PrivateMessage) : Prop :=
  ∃ index < state.router.commands.length, ∀ server, (state.readers server).committedOffset ≤ index ∨
    ∃ handling, (index, handling) ∈ (state.readers server).handled ∧ handling.Reaches message

structure EndToEnd (state : State R Txn Instance Session) : Prop where
  /-- An outbox row is not yet sent, or its record not yet routed, or its command
  is with the instances. -/
  conserved : ∀ entry ∈ state.system.relays.committed, ∃ message ∈ state.system.tables.privateMessages,
    (message, entry) ∈ state.system.commits ∧
      ((∃ row ∈ state.system.relays.outbox, row.toEntry = entry ∧ row.status ≠ .sent) ∨
        (∃ offset, state.router.committedOffset ≤ offset ∧ state.appended[offset]? = some entry) ∨
        Commanded state message)
  /-- A pushed frame is one of a stored message, to a session of its receiver. -/
  authentic : ∀ server index handling, (index, handling) ∈ (state.readers server).handled →
    ∀ push ∈ handling.pushes, ∃ message ∈ state.system.tables.privateMessages,
      push.user = message.toUser ∧ Carries message push.frame ∧ handling.isOpen push.session = true ∧
        ∃ dev, handling.manager.sessions.find push.user dev = some push.session

theorem command_of_message {message : PrivateMessage} (inRange : InRange message) :
    ∃ command payload, pushCommands (some (kafkaPayload message)) = [command] ∧
      readCommand command.value = some (message.toUser, payload) ∧ Carries message payload := by
  obtain ⟨positive, toUser, fromUser, timestamp⟩ := inRange
  obtain ⟨command, routed, payload, read, carries⟩ := readCommand_route positive toUser fromUser timestamp
  exact ⟨command, payload, by rw [pushCommands, routed]; rfl, read, carries⟩

theorem pushes_of_handle {manager : OnlineManager Session} {isOpen : Session → Bool} {command : ℕ × PushOut}
    {handling : Handling Session} {isDone : Bool} {user : Int} {frame : Json}
    (returned : handle manager isOpen command = some (handling, isDone))
    (read : readCommand command.2.value = some (user, frame)) :
    handling.pushes = (manager.getSessions isOpen user).map fun session => { user, session, frame } := by
  unfold handle at returned
  split at returned
  · cases returned
  · cases returned
    rw [read]

/-- The commands are those of stored messages. -/
theorem Piped.message_of_command (piped : Piped state) {command : ℕ × PushOut} (member : command ∈ state.router.commands) :
    ∃ message ∈ state.system.tables.privateMessages, ∃ payload,
      readCommand command.2.value = some (message.toUser, payload) ∧ Carries message payload := by
  rw [piped.routed.commands] at member
  obtain ⟨offset, _, found⟩ := List.mem_flatMap.mp member
  unfold outputsAt at found
  split at found
  · rename_i record recorded
    obtain ⟨output, listed, rfl⟩ := List.mem_map.mp found
    rw [piped.log, List.getElem?_map] at recorded
    obtain ⟨entry, appended, rfl⟩ := Option.map_eq_some_iff.mp recorded
    have handed := piped.handed entry (List.mem_of_getElem? appended)
    obtain ⟨message, stored, _, payload⟩ := piped.traced.commits entry (piped.traced.relays.handed entry handed)
    obtain ⟨only, frame, routed, read, carries⟩ := command_of_message (piped.ranged.stored message stored)
    rw [payload, routed, List.mem_singleton] at listed
    exact ⟨message, stored, frame, by rw [listed]; exact read, carries⟩
  · cases found

theorem Piped.reaches (piped : Piped state) {server : Instance} {index : ℕ} {command : ℕ × PushOut}
    {message : PrivateMessage} {frame : Json} (found : state.router.commands[index]? = some command)
    (read : readCommand command.2.value = some (message.toUser, frame)) (carries : Carries message frame)
    (passed : index < (state.readers server).committedOffset) :
    ∃ handling, (index, handling) ∈ (state.readers server).handled ∧ handling.Reaches message := by
  obtain ⟨handling, member, other, same, returned⟩ := (piped.covers server).handled index passed
  rw [found] at same
  cases same
  refine ⟨handling, member, fun dev session held opened => ?_⟩
  rw [pushes_of_handle returned read]
  have session := OnlineManager.mem_getSessions.mpr ⟨⟨dev, held⟩, opened⟩
  exact ⟨_, List.mem_map.mpr ⟨_, session, rfl⟩, rfl, rfl, carries⟩

theorem Piped.endToEnd (piped : Piped state) : EndToEnd state where
  conserved entry committed := by
    obtain ⟨message, stored, together, payload⟩ := piped.traced.commits entry committed
    refine ⟨message, stored, together, ?_⟩
    obtain ⟨row, member, rfl⟩ := OutboxService.mem_entries.mp ((piped.traced.relays.committed entry).mp committed)
    by_cases sent : row.status = .sent
    · have delivered := piped.delivered _ (piped.traced.relays.sentDelivered row member sent)
      obtain ⟨offset, appended⟩ := List.mem_iff_getElem?.mp delivered
      by_cases routed : offset < state.router.committedOffset
      · refine .inr (.inr ?_)
        obtain ⟨command, frame, only, read, carries⟩ := command_of_message (piped.ranged.stored message stored)
        have recorded : state.router.log[offset]? = some (some (kafkaPayload message)) := by
          rw [piped.log, List.getElem?_map, appended, ← payload]
          rfl
        have listed : (offset, command) ∈ state.router.commands := by
          rw [piped.routed.commands]
          refine List.mem_flatMap.mpr ⟨offset, List.mem_range'_1.mpr ⟨Nat.zero_le _, by omega⟩, ?_⟩
          rw [outputsAt, recorded]
          exact List.mem_map.mpr ⟨command, by rw [only]; exact .head _, rfl⟩
        obtain ⟨index, found⟩ := List.mem_iff_getElem?.mp listed
        refine ⟨index, (List.getElem?_eq_some_iff.mp found).1, fun server => ?_⟩
        by_cases passed : index < (state.readers server).committedOffset
        · exact .inr (piped.reaches found read carries passed)
        · exact .inl (Nat.le_of_not_lt passed)
      · exact .inr (.inl ⟨offset, Nat.le_of_not_lt routed, appended⟩)
    · exact .inl ⟨row, member, rfl, sent⟩
  authentic server index handling member push pushed := by
    obtain ⟨command, found, returned⟩ := piped.sourced server index handling member
    obtain ⟨message, stored, frame, read, carries⟩ := piped.message_of_command (List.mem_of_getElem? found)
    rw [pushes_of_handle returned read] at pushed
    obtain ⟨session, listed, rfl⟩ := List.mem_map.mp pushed
    obtain ⟨held, opened⟩ := OnlineManager.mem_getSessions.mp listed
    exact ⟨message, stored, rfl, carries, opened, held⟩

/-- In every run of outbox transactions, relays, Kafka, the transactional router
and the instances, with crashes and restarts of each, whose router loses nothing. -/
theorem pipeline_conserves [DecidableEq R] [DecidableEq Txn] [DecidableEq Instance] (batchSize : ℕ)
    {events : List (Event R Txn Instance Session)}
    (met : (machine R Txn Instance Session batchSize).Meets RoutesInSequence {} events) :
    (machine R Txn Instance Session batchSize).Always EndToEnd {} events :=
  (Machine.always_of_meets Piped piped_start (fun _ _ _ piped keeps stepped => piped.preserved keeps stepped) met).mono
    fun _ piped => piped.endToEnd

/-- A message from user 1 to user 2, who has one session. -/
def oneMessage : List (Event Unit Unit Unit Unit) :=
  [.outbox (.begin () { msgId := "101", fromUser := 1, toUser := 2, content := "hello", timestamp := 0 }),
    .outbox (.savePrivateMessageTx () true), .outbox (.insertOutbox () true), .outbox (.finish () true),
    .outbox (.relay (.start () true)), .outbox (.relay (.select () true)), .outbox (.relay (.claim () true)),
    .outbox (.relay (.produce () true true)), .append 0, .outbox (.relay (.callback () 0 true true)),
    .router .start, .router (.beginTransaction true), .router (.consumeOnce (.record fun _ => true)),
    .router (.consumeOnce .timeout), .router (.endTx true true),
    .sessions (fun _ => (OnlineManager.addDevice {} 2 "phone" ()).1) (fun _ => true), .start (), .consume () false]

theorem oneMessage_conserved :
    ∃ state, (machine Unit Unit Unit Unit 10).run {} oneMessage = some state ∧
      (state.readers ()).committedOffset = 1 ∧ EndToEnd state := by
  have met : (machine Unit Unit Unit Unit 10).Meets RoutesInSequence {} oneMessage :=
    .cons rfl trivial <| .cons rfl trivial <| .cons rfl trivial <| .cons rfl trivial <|
    .cons rfl trivial <| .cons rfl trivial <| .cons rfl trivial <| .cons rfl trivial <|
    .cons rfl trivial <| .cons rfl trivial <| .cons rfl trivial <| .cons rfl trivial <|
    .cons rfl trivial <| .cons rfl trivial <| .cons rfl (fun process running _ _ => by
      cases running
      exact ⟨.inl rfl, rfl⟩) <| .cons rfl trivial <| .cons rfl trivial <| .cons rfl trivial trivial
  exact ⟨_, rfl, rfl, (pipeline_conserves 10 met).atEnd rfl⟩

end MuduoIm.Server.PushPipeline
