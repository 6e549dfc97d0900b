import Mathlib.Logic.Function.Basic
import MuduoIm.Server.MessageStore
import MuduoIm.Transition.Machine

namespace MuduoIm.Server.MessageQueue

open MuduoIm.Data MuduoIm.Transition

/-! # Concurrent flushes of the message queue

`flushMessageQueue` is called by the timer, by worker threads and by IO
threads, with no lock around it.  The machine below interleaves any number of
these calls with any number of `queueMessage` calls.  A step is one Redis
command or one save; both breakers are closed and every command succeeds.
-/

/-- Where a call of `flushMessageQueue` stands.  `messages` is its local
vector: the texts that LRANGE returned, less those already saved. -/
inductive FlushPhase where
  | idle
  | fetched (messages : List QueueText)
  | saving (messages : List QueueText) (successCount failCount : Nat)
deriving DecidableEq, Repr

def FlushPhase.batch : FlushPhase → List QueueText
  | .idle => []
  | .fetched messages => messages
  | .saving messages _ _ => messages

inductive BreakerCall where
  | recordSuccess
  | recordFailure
deriving DecidableEq, Repr

/-- `pushed` and `read` are history: every item that was pushed, and every
text that some LRANGE has returned. -/
structure State (Call : Type) where
  store : MessageStore := {}
  flushes : Call → FlushPhase := fun _ => .idle
  mysqlBreaker : List BreakerCall := []
  pushed : List QueueItem := []
  read : List QueueText := []

inductive Event (Call : Type) where
  | queueMessage (item : QueueItem)
  | lrange (call : Call)
  | ltrim (call : Call)
  | save (call : Call)
  | finish (call : Call)
deriving DecidableEq, Repr

variable {Call : Type} [DecidableEq Call]

/-- The breaker opens only on a batch in which nothing was saved. -/
def breakerCalls (successCount failCount : Nat) : List BreakerCall :=
  (if successCount > 0 then [.recordSuccess] else []) ++
    if failCount > 0 ∧ successCount = 0 then [.recordFailure] else []

def step (state : State Call) : Event Call → Option (State Call)
  -- server ids come from Snowflake, which never issues one twice
  | .queueMessage item =>
      if ∀ earlier ∈ state.pushed, earlier.msgId ≠ item.msgId then
        some { state with
          store := state.store.queueMessage true {} (.item item)
          pushed := item :: state.pushed }
      else none
  | .lrange call =>
      match state.flushes call with
      | .idle =>
          let messages := RedisList.lrange state.store.queue 0 99
          if messages = [] then some state
          else some { state with
            flushes := Function.update state.flushes call (.fetched messages)
            read := state.read ++ messages }
      | _ => none
  | .ltrim call =>
      match state.flushes call with
      | .fetched messages =>
          some { state with
            store.queue := RedisList.ltrim state.store.queue messages.length (-1)
            flushes := Function.update state.flushes call (.saving messages 0 0) }
      | _ => none
  | .save call =>
      match state.flushes call with
      | .saving (text :: rest) successCount failCount =>
          let saved := state.store.tables.saveText true text
          some { state with
            store.tables := saved.2
            flushes := Function.update state.flushes call
              (if saved.1 then .saving rest (successCount + 1) failCount
               else .saving rest successCount (failCount + 1)) }
      | _ => none
  | .finish call =>
      match state.flushes call with
      | .saving [] successCount failCount =>
          some { state with
            flushes := Function.update state.flushes call .idle
            mysqlBreaker := state.mysqlBreaker ++ breakerCalls successCount failCount }
      | _ => none

def machine (Call : Type) [DecidableEq Call] : Machine (State Call) (Event Call) := ⟨step⟩

/-! ## What each step does -/

variable {state next : State Call} {call : Call} {item : QueueItem}

theorem queueMessage_eq_some (stepped : step state (.queueMessage item) = some next) :
    (∀ earlier ∈ state.pushed, earlier.msgId ≠ item.msgId) ∧
      next = { state with
        store.queue := .item item :: state.store.queue
        pushed := item :: state.pushed } := by
  simp only [step] at stepped
  split at stepped
  · rename_i fresh
    cases stepped
    exact ⟨fresh, rfl⟩
  · contradiction

theorem lrange_eq_some (stepped : step state (.lrange call) = some next) :
    state.flushes call = .idle ∧
      (next = state ∨
        next = { state with
          flushes := Function.update state.flushes call (.fetched (state.store.queue.take 100))
          read := state.read ++ state.store.queue.take 100 }) := by
  have range : RedisList.lrange state.store.queue 0 99 = state.store.queue.take 100 :=
    RedisList.lrange_prefix state.store.queue 99
  simp only [step, range] at stepped
  cases phase : state.flushes call with
  | idle =>
      simp only [phase] at stepped
      refine ⟨rfl, ?_⟩
      split at stepped <;> cases stepped
      · exact .inl rfl
      · exact .inr rfl
  | fetched messages => simp [phase] at stepped
  | saving messages successCount failCount => simp [phase] at stepped

theorem ltrim_eq_some (stepped : step state (.ltrim call) = some next) :
    ∃ messages, state.flushes call = .fetched messages ∧
      next = { state with
        store.queue := state.store.queue.drop messages.length
        flushes := Function.update state.flushes call (.saving messages 0 0) } := by
  simp only [step, RedisList.ltrim_suffix] at stepped
  cases phase : state.flushes call with
  | fetched messages =>
      simp only [phase] at stepped
      cases stepped
      exact ⟨messages, rfl, rfl⟩
  | idle => simp [phase] at stepped
  | saving messages successCount failCount => simp [phase] at stepped

theorem save_eq_some (stepped : step state (.save call) = some next) :
    ∃ text rest successCount failCount phase,
      state.flushes call = .saving (text :: rest) successCount failCount ∧
      phase.batch = rest ∧
      next = { state with
        store.tables := (state.store.tables.saveText true text).2
        flushes := Function.update state.flushes call phase } := by
  simp only [step] at stepped
  cases phase : state.flushes call with
  | idle => simp [phase] at stepped
  | fetched messages => simp [phase] at stepped
  | saving messages successCount failCount =>
      cases messages with
      | nil => simp [phase] at stepped
      | cons text rest =>
          simp only [phase] at stepped
          cases stepped
          refine ⟨text, rest, successCount, failCount, _, rfl, ?_, rfl⟩
          split <;> rfl

theorem finish_eq_some (stepped : step state (.finish call) = some next) :
    ∃ successCount failCount, state.flushes call = .saving [] successCount failCount ∧
      next = { state with
        flushes := Function.update state.flushes call .idle
        mysqlBreaker := state.mysqlBreaker ++ breakerCalls successCount failCount } := by
  simp only [step] at stepped
  cases phase : state.flushes call with
  | idle => simp [phase] at stepped
  | fetched messages => simp [phase] at stepped
  | saving messages successCount failCount =>
      cases messages with
      | nil =>
          simp only [phase] at stepped
          cases stepped
          exact ⟨successCount, failCount, rfl, rfl⟩
      | cons text rest => simp [phase] at stepped

/-! ## Batches -/

/-- The text is in the local batch of some flush. -/
def InBatch (flushes : Call → FlushPhase) (text : QueueText) : Prop :=
  ∃ call, text ∈ (flushes call).batch

variable {flushes : Call → FlushPhase} {phase : FlushPhase} {text : QueueText}

theorem InBatch.update (held : InBatch flushes text)
    (kept : text ∈ (flushes call).batch → text ∈ phase.batch) :
    InBatch (Function.update flushes call phase) text := by
  obtain ⟨holder, member⟩ := held
  by_cases same : holder = call
  · subst same
    exact ⟨holder, by rw [Function.update_self]; exact kept member⟩
  · exact ⟨holder, by rw [Function.update_of_ne same]; exact member⟩

theorem inBatch_update (held : InBatch (Function.update flushes call phase) text) :
    text ∈ phase.batch ∨ InBatch flushes text := by
  obtain ⟨holder, member⟩ := held
  by_cases same : holder = call
  · rw [same, Function.update_self] at member
    exact .inl member
  · rw [Function.update_of_ne same] at member
    exact .inr ⟨holder, member⟩

theorem inBatch_of_member (member : text ∈ phase.batch) :
    InBatch (Function.update flushes call phase) text :=
  ⟨call, by rw [Function.update_self]; exact member⟩

end MuduoIm.Server.MessageQueue
