import MuduoIm.Server.OutboxService.Payload
import MuduoIm.Server.OutboxService.RelaysSound

namespace MuduoIm.Server.OutboxService

open MuduoIm.Data MuduoIm.Transition

/-! # Every outbox row is backed by its message and its delivery -/

/-! ## The transactions of the outbox branch -/

/-- How far an open transaction has come, with the results of its INSERTs. -/
inductive Stage where
  | begun
  | saved (savedRow : Bool)
  | inserted (savedRow : Bool) (outboxRow : Option (Row Json))

structure Transaction where
  message : PrivateMessage
  stage : Stage

/-- `commits` is history: the message and the outbox entry of each transaction
that was committed. -/
structure System (R Txn : Type) where
  relays : State R Json := {}
  tables : MessageTables := {}
  nextId : Nat := 1
  transactions : Txn → Option Transaction := fun _ => none
  commits : List (PrivateMessage × Entry Json) := []

inductive SystemEvent (R Txn : Type) where
  | begin (txn : Txn) (message : PrivateMessage)
  | savePrivateMessageTx (txn : Txn) (executed : Bool)
  | insertOutbox (txn : Txn) (executed : Bool)
  | finish (txn : Txn) (committed : Bool)
  | relay (event : Event R Json)

variable {R Txn : Type}

section

variable [DecidableEq R] [DecidableEq Txn]

def System.setTransaction (system : System R Txn) (txn : Txn) (transaction : Option Transaction) :
    System R Txn :=
  { system with transactions := Function.update system.transactions txn transaction }

def systemStep (batchSize : Nat) (system : System R Txn) : SystemEvent R Txn → Option (System R Txn)
  | .begin txn message =>
      match system.transactions txn with
      | none => some (system.setTransaction txn (some ⟨message, .begun⟩))
      | some _ => none
  | .savePrivateMessageTx txn executed =>
      match system.transactions txn with
      | some ⟨message, .begun⟩ =>
          let savedRow := (system.tables.savePrivateMessage executed message).1
          some (system.setTransaction txn (some ⟨message, .saved savedRow⟩))
      | _ => none
  | .insertOutbox txn executed =>
      match system.transactions txn with
      | some ⟨message, .saved savedRow⟩ =>
          let row : Row Json := {
            id := system.nextId, topic := "im.messages"
            msgKey := convKey message.fromUser message.toUser, payload := kafkaPayload message
            createdAt := system.relays.now }
          let outboxRow := if executed then some row else none
          some { system.setTransaction txn (some ⟨message, .inserted savedRow outboxRow⟩) with
            nextId := system.nextId + 1 }
      | _ => none
  | .finish txn committed =>
      match system.transactions txn with
      | none => none
      | some ⟨message, .inserted true (some row)⟩ =>
          if committed then
            -- the unique index lets only one transaction with this id get here
            match system.tables.savePrivateMessage true message, step batchSize system.relays (.commit row) with
            | (true, tables), some relays =>
                some { system.setTransaction txn none with
                  relays, tables, commits := (message, row.toEntry) :: system.commits }
            | _, _ => none
          else some (system.setTransaction txn none)
      -- anything else ends in a rollback, an early crash included
      | some _ => some (system.setTransaction txn none)
  | .relay event =>
      match event with
      | .commit _ => none
      | _ => (step batchSize system.relays event).map fun relays => { system with relays }

def systemMachine (R Txn : Type) [DecidableEq R] [DecidableEq Txn] (batchSize : Nat) :
    Machine (System R Txn) (SystemEvent R Txn) := ⟨systemStep batchSize⟩

end

/-! ## Soundness -/

/-- The row was inserted together with the message that its payload names, and
that message is stored. -/
def Backed (system : System R Txn) (row : Row Json) : Prop :=
  ∃ message ∈ system.tables.privateMessages, (message, row.toEntry) ∈ system.commits ∧
    row.payload.valueString "msgId" "" = some message.msgId

structure OutboxSound (system : System R Txn) : Prop where
  backed : ∀ row ∈ system.relays.outbox, Backed system row
  handed : ∀ entry ∈ system.relays.handed, entry ∈ system.relays.committed
  delivered : ∀ row ∈ system.relays.outbox, row.status = .sent → row.toEntry ∈ system.relays.delivered
  kept : ∀ entry ∈ system.relays.committed, ∃ row ∈ system.relays.outbox, row.toEntry = entry ∧
    (row.status = .sent ∨ row.status = .pending ∨ row.status = .sending)

structure Traced (system : System R Txn) : Prop where
  relays : RelaysSound system.relays
  commits : ∀ entry ∈ system.relays.committed, ∃ message ∈ system.tables.privateMessages,
    (message, entry) ∈ system.commits ∧ entry.payload = kafkaPayload message
  payloads : ∀ txn message savedRow row,
    system.transactions txn = some ⟨message, .inserted savedRow (some row)⟩ →
      row.payload = kafkaPayload message

variable {batchSize : Nat} {current after : System R Txn} {txn : Txn}

theorem savePrivateMessage_saved {tables saved : MessageTables} {reachable : Bool}
    {message : PrivateMessage} (inserted : tables.savePrivateMessage reachable message = (true, saved)) :
    saved.privateMessages = tables.privateMessages ++ [message] := by
  simp only [MessageTables.savePrivateMessage] at inserted
  split at inserted
  · cases inserted
    rfl
  · cases inserted

theorem kafkaPayload_msgId (message : PrivateMessage) :
    (kafkaPayload message).valueString "msgId" "" = some message.msgId := rfl

theorem Traced.outboxSound (traced : Traced current) : OutboxSound current where
  backed := fun row member => by
    have known := (traced.relays.committed row.toEntry).mpr (mem_entries.mpr ⟨row, member, rfl⟩)
    obtain ⟨message, stored, together, payload⟩ := traced.commits row.toEntry known
    exact ⟨message, stored, together, by rw [payload, kafkaPayload_msgId]⟩
  handed := traced.relays.handed
  delivered := traced.relays.sentDelivered
  kept := fun entry known => by
    obtain ⟨row, member, same⟩ := mem_entries.mp ((traced.relays.committed entry).mp known)
    refine ⟨row, member, same, ?_⟩
    have unfailed := traced.relays.unfailed row member
    cases status : row.status with
    | failed => exact absurd status unfailed
    | pending => exact .inr (.inl rfl)
    | sending => exact .inr (.inr rfl)
    | sent => exact .inl rfl

/-! ## Runs -/

variable [DecidableEq Txn]

theorem Traced.setTransaction (traced : Traced current) (txn : Txn) (transaction : Option Transaction)
    (payload : ∀ message savedRow row, transaction = some ⟨message, .inserted savedRow (some row)⟩ →
      row.payload = kafkaPayload message) : Traced (current.setTransaction txn transaction) where
  relays := traced.relays
  commits := traced.commits
  payloads := fun other message savedRow row found => by
    by_cases same : other = txn
    · subst same
      simp only [System.setTransaction, Function.update_self] at found
      exact payload message savedRow row found
    · simp only [System.setTransaction, Function.update_of_ne same] at found
      exact traced.payloads other message savedRow row found

variable [DecidableEq R]

theorem Traced.finish {committed : Bool} (traced : Traced current)
    (stepped : systemStep batchSize current (.finish txn committed) = some after) : Traced after := by
  simp only [systemStep] at stepped
  split at stepped
  · contradiction
  · rename_i message row open_
    split at stepped
    · split at stepped
      · rename_i tables relays saved inserted
        cases stepped
        have payload := traced.payloads txn message true row open_
        have stored := savePrivateMessage_saved saved
        have ended := traced.setTransaction txn none nofun
        have soundRelays := traced.relays.preserved inserted
        obtain ⟨_, _, rfl⟩ := commit_eq_some inserted
        refine ⟨soundRelays, fun entry member => ?_, ended.payloads⟩
        simp only [stored]
        rcases List.mem_cons.mp member with rfl | earlier
        · exact ⟨message, List.mem_append_right _ (List.mem_singleton_self _), List.mem_cons_self, payload⟩
        · obtain ⟨other, member, known, same⟩ := traced.commits entry earlier
          exact ⟨other, List.mem_append_left _ member, .tail _ known, same⟩
      · contradiction
    · cases stepped
      exact traced.setTransaction _ _ nofun
  · cases stepped
    exact traced.setTransaction _ _ nofun

theorem committed_of_relay_step {Payload : Type} {state next : State R Payload} {event : Event R Payload}
    (other : ∀ row, event ≠ .commit row) (stepped : step batchSize state event = some next) :
    next.committed = state.committed := by
  cases event with
  | commit row => exact absurd rfl (other row)
  | tick elapsed => cases stepped; rfl
  | start relay executed =>
      obtain ⟨_, rfl⟩ := start_eq_some stepped
      rfl
  | select relay executed =>
      obtain ⟨_, _, _, _, _, rfl⟩ := select_eq_some stepped
      rfl
  | claim relay executed =>
      obtain ⟨_, _, _, ⟨_, _, rfl⟩ | ⟨_, rfl⟩⟩ := claim_eq_some stepped <;> rfl
  | produce relay queued executed =>
      obtain ⟨_, _, _, _, ⟨_, rfl⟩ | ⟨_, rfl⟩⟩ := produce_eq_some stepped <;> rfl
  | callback relay context ok executed =>
      obtain ⟨_, _, _, _, _, rfl⟩ := callback_eq_some stepped
      rfl
  | crash relay => cases stepped; rfl

theorem Traced.relayStep {event : Event R Json} (traced : Traced current)
    (stepped : systemStep batchSize current (.relay event) = some after) : Traced after := by
  have ordinary : (∀ row, event ≠ .commit row) ∧
      ∃ relays, step batchSize current.relays event = some relays ∧ after = { current with relays } := by
    cases event with
    | commit row => cases stepped
    | _ =>
        simp only [systemStep, Option.map_eq_some_iff] at stepped
        obtain ⟨relays, moved, same⟩ := stepped
        exact ⟨nofun, relays, moved, same.symm⟩
  obtain ⟨other, relays, moved, rfl⟩ := ordinary
  refine ⟨traced.relays.preserved moved, fun entry member => ?_, traced.payloads⟩
  simp only [committed_of_relay_step other moved] at member
  exact traced.commits entry member

theorem Traced.preserved {event : SystemEvent R Txn} (traced : Traced current)
    (stepped : (systemMachine R Txn batchSize).step current event = some after) : Traced after := by
  cases event with
  | begin txn message =>
      simp only [systemMachine, systemStep] at stepped
      split at stepped
      · cases stepped
        exact traced.setTransaction _ _ nofun
      · contradiction
  | savePrivateMessageTx txn executed =>
      simp only [systemMachine, systemStep] at stepped
      split at stepped
      · cases stepped
        exact traced.setTransaction _ _ nofun
      · contradiction
  | insertOutbox txn executed =>
      simp only [systemMachine, systemStep] at stepped
      split at stepped
      · cases stepped
        refine ⟨traced.relays, traced.commits,
          (traced.setTransaction _ _ fun message savedRow row same => ?_).payloads⟩
        cases executed <;> cases same
        rfl
      · contradiction
  | finish txn committed => exact traced.finish stepped
  | relay event => exact traced.relayStep stepped

/-- In every state of every run of outbox transactions, relays, deliveries,
crashes and restarts. -/
theorem outbox_sound (batchSize : Nat) (events : List (SystemEvent R Txn)) :
    (systemMachine R Txn batchSize).Always OutboxSound {} events := by
  refine (Machine.always_of_step Traced ?_ fun _ _ _ traced stepped =>
    traced.preserved stepped).mono fun _ traced => traced.outboxSound
  refine ⟨⟨?_, ?_, ?_, ?_, ?_, ?_⟩, ?_, ?_⟩ <;> simp [entries]

end MuduoIm.Server.OutboxService
