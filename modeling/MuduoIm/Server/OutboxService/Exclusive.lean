import MuduoIm.Server.OutboxService.Custody

namespace MuduoIm.Server.OutboxService

open MuduoIm.Transition

/-! # Relays do not share rows -/

variable {R Payload : Type} {batchSize : Nat} {state : State R Payload}

/-- No two relays hold the same row, and a row that was set to `sent` still is. -/
structure Exclusive (state : State R Payload) : Prop where
  apart : ∀ relay other, relay ≠ other → ∀ id ∈ (state.relays relay).held,
    id ∉ (state.relays other).held
  sent : ∀ id ∈ state.sent, HasStatus state.outbox id .sent

/-- Relays exclude each other in every run in which no start resets a row that a
live relay holds. -/
theorem exclusive_of_sparesHeld [DecidableEq R] {events : List (Event R Payload)}
    (met : (machine R Payload batchSize).Meets SparesHeld {} events) :
    (machine R Payload batchSize).Always Exclusive {} events := by
  have custody := Machine.always_of_meets Custody custody_init
    (fun _ _ _ custody spares stepped => custody.preserved spares stepped) met
  exact custody.mono fun _ custody => ⟨custody.disjoint, custody.sent⟩

private def sharedRow (id : Nat) : Row String :=
  { id, topic := "im.messages", msgKey := "1:2", payload := "hello", createdAt := 0 }

/-- The second relay starts half a minute after the row was created, while the
first has it in flight. -/
private def earlyStart : List (Event Nat String) :=
  [.start 0 true, .commit (sharedRow 1), .select 0 true, .claim 0 true, .produce 0 true true,
    .tick 30000, .start 1 true, .select 1 true, .callback 0 0 true true]

theorem early_start_exclusive :
    ∃ state, (machine Nat String 100).run {} earlyStart = some state ∧ state.sent = [1] ∧
      Exclusive state := by
  have recent : ¬ Row.Stuck 30000 { sharedRow 1 with status := .sending } := by decide
  have met : (machine Nat String 100).Meets SparesHeld {} earlyStart :=
    .cons rfl (fun _ _ member => absurd member List.not_mem_nil) <| .cons rfl trivial <|
    .cons rfl trivial <| .cons rfl trivial <| .cons rfl trivial <| .cons rfl trivial <|
    .cons rfl (fun _ row member stuck => by
      obtain rfl := List.mem_singleton.mp member
      exact absurd stuck recent) <|
    .cons rfl trivial <| .cons rfl trivial trivial
  exact ⟨_, rfl, rfl, (exclusive_of_sparesHeld met).atEnd rfl⟩

/-! ## A backlog -/

/-- The row waits for more than a minute before the first relay claims it; the
second relay starts, resets it, and produces it again.  The first success marks
it as sent and the late failure as pending. -/
private def backlog : List (Event Nat String) :=
  [.commit (sharedRow 1), .tick 61000, .start 0 true, .select 0 true, .claim 0 true,
    .produce 0 true true, .start 1 true, .select 1 true, .claim 1 true, .produce 1 true true]

theorem backlog_is_shared :
    ∃ state after, (machine Nat String 100).run {} backlog = some state ∧ ¬ Exclusive state ∧
      (machine Nat String 100).run state [.callback 0 0 true true, .callback 1 0 false true] = some after ∧
      after.sent = [1] ∧ HasStatus after.outbox 1 .pending := by
  refine ⟨_, _, rfl, fun exclusive => ?_, rfl, rfl, ?_⟩
  · exact exclusive.apart 0 1 (by decide) 1 (by decide) (by decide)
  · exact ⟨sharedRow 1, .head _, rfl, rfl⟩

end MuduoIm.Server.OutboxService
