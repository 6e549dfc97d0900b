import MuduoIm.Server.OutboxService.Custody

namespace MuduoIm.Server.OutboxService

open MuduoIm.Transition

/-! # The table under a single relay -/

variable {Payload : Type} {batchSize : Nat}

/-- The rows that were never claimed are pending, and so are those that the
relay is about to claim. -/
structure Ledger (table : State Unit Payload) (claimed : List Nat) : Prop where
  custody : Custody table
  unclaimed : ∀ row ∈ table.outbox, row.id ∉ claimed → row.status = .pending
  selected : ((table.relays ()).rows.map Entry.id).Nodup
  pending : ∀ entry ∈ (table.relays ()).rows, HasStatus table.outbox entry.id .pending

section Table

variable {table next : State Unit Payload} {claimed : List Nat}

/-- What is in flight was claimed. -/
theorem Ledger.mem_claimed {id : Nat} (ledger : Ledger table claimed)
    (sending : HasStatus table.outbox id .sending) : id ∈ claimed := by
  obtain ⟨row, member, named, inFlight⟩ := sending
  by_contra never
  have pending := ledger.unclaimed row member (named ▸ never)
  rw [pending] at inFlight
  cases inFlight

/-- A report on a row in flight leaves the rows alone that were never claimed or
are about to be. -/
theorem Ledger.report {entry : Entry Payload} (ok executed : Bool) (ledger : Ledger table claimed)
    (sending : HasStatus table.outbox entry.id .sending) :
    (∀ row ∈ onDelivery table.outbox entry.id ok executed, row.id ∉ claimed → row.status = .pending) ∧
      ∀ other ∈ (table.relays ()).rows,
        HasStatus (onDelivery table.outbox entry.id ok executed) other.id .pending := by
  constructor
  · intro row member never
    rw [onDelivery] at member
    split at member
    · obtain ⟨old, found, sameEntry, kinds⟩ := mem_setStatus member
      have sameId : row.id = old.id := congrArg Entry.id sameEntry
      rcases kinds with ⟨named, _⟩ | ⟨_, sameStatus⟩
      · have reached := ledger.mem_claimed sending
        rw [sameId, named] at never
        contradiction
      · rw [sameStatus]
        exact ledger.unclaimed old found (sameId ▸ never)
    · exact ledger.unclaimed row member never
  · intro other waits
    have pending := ledger.pending other waits
    apply hasStatus_onDelivery_ne ?_ pending
    intro same
    have clash := ledger.custody.sound.status_unique pending (same ▸ sending)
    cases clash

theorem Ledger.callback {context : Nat} {ok executed : Bool} (ledger : Ledger table claimed)
    (stepped : step batchSize table (.callback () context ok executed) = some next) :
    Ledger next claimed ∧ entries next.outbox = entries table.outbox ∧
      (next.relays ()).rows = (table.relays ()).rows := by
  have custody := ledger.custody.single stepped
  obtain ⟨entry, before, later, outstanding, _, rfl⟩ := callback_eq_some stepped
  have held : entry.id ∈ (table.relays ()).held := by
    rw [Relay.held, outstanding]
    exact List.mem_map_of_mem (List.mem_append_right _ (List.mem_append_right _ List.mem_cons_self))
  obtain ⟨unclaimed, pending⟩ := ledger.report ok executed
    (ledger.custody.sending () entry.id held)
  exact ⟨⟨custody, unclaimed, ledger.selected, pending⟩, entries_onDelivery, rfl⟩

theorem Ledger.produce {queued executed : Bool} (ledger : Ledger table claimed)
    (stepped : step batchSize table (.produce () queued executed) = some next) :
    Ledger next claimed ∧ entries next.outbox = entries table.outbox ∧
      (next.relays ()).rows = (table.relays ()).rows := by
  have custody := ledger.custody.single stepped
  obtain ⟨entry, rest, _, waiting, branch⟩ := produce_eq_some stepped
  have held : entry.id ∈ (table.relays ()).held := by
    rw [Relay.held, waiting]
    exact List.mem_map_of_mem (List.mem_append_left _ List.mem_cons_self)
  rcases branch with ⟨_, rfl⟩ | ⟨_, rfl⟩
  · exact ⟨⟨custody, ledger.unclaimed, ledger.selected, ledger.pending⟩, rfl, rfl⟩
  · obtain ⟨unclaimed, pending⟩ := ledger.report false executed
      (ledger.custody.sending () entry.id held)
    exact ⟨⟨custody, unclaimed, ledger.selected, pending⟩, entries_onDelivery, rfl⟩

theorem Ledger.start {executed : Bool} (ledger : Ledger table claimed)
    (stepped : step batchSize table (.start () executed) = some next) :
    Ledger next claimed ∧ entries next.outbox = entries table.outbox := by
  have custody := ledger.custody.single stepped
  obtain ⟨_, rfl⟩ := start_eq_some stepped
  refine ⟨⟨custody, ?_, List.nodup_nil, nofun⟩, entries_reclaimStuckSending⟩
  intro row member never
  change row ∈ reclaimStuckSending table.now table.outbox executed at member
  rw [reclaimStuckSending] at member
  split at member
  · obtain ⟨old, found, rfl⟩ := List.mem_map.mp member
    split
    · rfl
    · rename_i settled
      rw [if_neg settled] at never
      exact ledger.unclaimed old found never
  · exact ledger.unclaimed row member never

theorem Ledger.commit {row : Row Payload} (ledger : Ledger table claimed)
    (stepped : step batchSize table (.commit row) = some next) : Ledger next claimed := by
  have custody := ledger.custody.single stepped
  obtain ⟨pending, _, rfl⟩ := commit_eq_some stepped
  refine ⟨custody, ?_, ledger.selected, fun entry waits => hasStatus_orderedInsert (ledger.pending entry waits)⟩
  intro held member never
  rcases List.mem_cons.mp ((List.perm_orderedInsert _ row table.outbox).mem_iff.mp member) with rfl | older
  · exact pending
  · exact ledger.unclaimed held older never

/-- The SELECT sees every row that was never claimed, unless it has enough of
others. -/
theorem Ledger.select (ledger : Ledger table claimed) (positive : 0 < batchSize)
    (stepped : step batchSize table (.select () true) = some next) :
    Ledger next claimed ∧ entries next.outbox = entries table.outbox ∧
      ((next.relays ()).rows = [] → ∀ row ∈ table.outbox, row.id ∈ claimed) := by
  have custody := ledger.custody.single stepped
  have rows_eq : (next.relays ()).rows = selectPending table.outbox batchSize ∧ next.outbox = table.outbox := by
    simp only [step] at stepped
    split at stepped
    · cases stepped
      simp [State.setRelay]
    · cases stepped
  obtain ⟨rows_eq, same⟩ := rows_eq
  refine ⟨⟨custody, same ▸ ledger.unclaimed, ?_, ?_⟩, by rw [same], ?_⟩
  · have distinct := ledger.custody.sound.distinct
    rw [rows_eq, selectPending]
    rw [entries] at distinct
    exact distinct.sublist (((List.take_sublist _ _).trans List.filter_sublist).map _ |>.map _)
  · intro entry listed
    rw [rows_eq] at listed
    obtain ⟨row, member, pending, rfl⟩ := mem_selectPending listed
    exact ⟨row, same ▸ member, rfl, pending⟩
  · intro none_selected row member
    by_contra never
    have pending := ledger.unclaimed row member never
    have listed : row ∈ table.outbox.filter (fun row => row.status = .pending) :=
      List.mem_filter.mpr ⟨member, decide_eq_true pending⟩
    rw [rows_eq, selectPending, List.map_eq_nil_iff, List.take_eq_nil_iff] at none_selected
    rcases none_selected with zero | nothing
    · omega
    · rw [nothing] at listed
      cases listed

/-- Nobody else claims, so each claim succeeds. -/
theorem Ledger.claim {entry : Entry Payload} {rest : List (Entry Payload)} (ledger : Ledger table claimed)
    (rows : (table.relays ()).rows = entry :: rest)
    (stepped : step batchSize table (.claim () true) = some next) :
    Claimable table.outbox entry.id ∧ Ledger next (entry.id :: claimed) ∧
      entries next.outbox = entries table.outbox := by
  have custody := ledger.custody.single stepped
  have claimable : Claimable table.outbox entry.id := ledger.pending entry (rows ▸ List.mem_cons_self)
  have distinct := ledger.selected
  rw [rows, List.map_cons, List.nodup_cons] at distinct
  obtain ⟨found, others, rows_eq, branch⟩ := claim_eq_some stepped
  rw [rows] at rows_eq
  cases rows_eq
  rcases branch with ⟨_, _, rfl⟩ | ⟨refused, _⟩
  · refine ⟨claimable, ⟨custody, ?_, ?_, ?_⟩, entries_setStatus⟩
    · intro row member never
      obtain ⟨old, stored, sameEntry, kinds⟩ := mem_setStatus member
      have sameId : row.id = old.id := congrArg Entry.id sameEntry
      rw [List.mem_cons, not_or] at never
      rcases kinds with ⟨named, _⟩ | ⟨_, sameStatus⟩
      · exact absurd (sameId.trans named) never.1
      · rw [sameStatus]
        exact ledger.unclaimed old stored (sameId ▸ never.2)
    · rw [setRelay_self]
      exact distinct.2
    · intro other waits
      rw [setRelay_self] at waits
      refine (hasStatus_setStatus_ne ?_).mpr (ledger.pending other (rows ▸ List.mem_cons_of_mem _ waits))
      intro same
      exact distinct.1 (same ▸ List.mem_map_of_mem waits)
  · exact absurd ⟨rfl, claimable⟩ refused

end Table

end MuduoIm.Server.OutboxService
