import MuduoIm.Server.OutboxService.Relay

namespace MuduoIm.Server.OutboxService

/-! # What relays keep

Whatever Kafka, the database and crashes do, relays only ever change the status
of a row, and set it to `sent` only after a delivery.
-/

variable {R Payload : Type} {batchSize : Nat}

structure RelaysSound (state : State R Payload) : Prop where
  distinct : ((entries state.outbox).map Entry.id).Nodup
  committed : ∀ entry, entry ∈ state.committed ↔ entry ∈ entries state.outbox
  handed : ∀ entry ∈ state.handed, entry ∈ state.committed
  inFlight : ∀ relay, ∀ entry ∈ (state.relays relay).rows ++ (state.relays relay).claimed ++
    (state.relays relay).outstanding, entry ∈ state.committed
  sentDelivered : ∀ row ∈ state.outbox, row.status = .sent → row.toEntry ∈ state.delivered
  unfailed : ∀ row ∈ state.outbox, row.status ≠ .failed

variable {state next : State R Payload} {relay : R}

theorem RelaysSound.row_unique (sound : RelaysSound state) {row other : Row Payload}
    (member : row ∈ state.outbox) (found : other ∈ state.outbox) (same : row.id = other.id) :
    row = other := by
  have distinct := sound.distinct
  rw [entries, List.map_map] at distinct
  exact List.inj_on_of_nodup_map distinct member found same

theorem RelaysSound.status_unique (sound : RelaysSound state) {id : Nat} {status other : Status}
    (has : HasStatus state.outbox id status) (hasOther : HasStatus state.outbox id other) :
    status = other := by
  obtain ⟨row, member, named, rfl⟩ := has
  obtain ⟨second, found, sameName, rfl⟩ := hasOther
  rw [sound.row_unique member found (named.trans sameName.symm)]

theorem RelaysSound.mem_outbox_unique (sound : RelaysSound state) {row : Row Payload}
    {entry : Entry Payload} (member : row ∈ state.outbox) (known : entry ∈ state.committed)
    (same : row.id = entry.id) : row.toEntry = entry := by
  obtain ⟨other, found, rfl⟩ := mem_entries.mp ((sound.committed entry).mp known)
  rw [sound.row_unique member found same]

theorem mem_selectPending {outbox : List (Row Payload)} {entry : Entry Payload}
    (selected : entry ∈ selectPending outbox batchSize) :
    ∃ row ∈ outbox, row.status = .pending ∧ row.toEntry = entry := by
  obtain ⟨row, taken, same⟩ := List.mem_map.mp selected
  have both := List.mem_filter.mp (List.mem_of_mem_take taken)
  exact ⟨row, both.1, by simpa using both.2, same⟩

theorem mem_setStatus {outbox : List (Row Payload)} {id : Nat} {status : Status} {row : Row Payload}
    (member : row ∈ setStatus outbox id status) :
    ∃ old ∈ outbox, row.toEntry = old.toEntry ∧
      ((old.id = id ∧ row.status = status) ∨ (old.id ≠ id ∧ row.status = old.status)) := by
  obtain ⟨old, found, rfl⟩ := List.mem_map.mp member
  by_cases named : old.id = id
  · exact ⟨old, found, by rw [if_pos named], .inl ⟨named, by rw [if_pos named]⟩⟩
  · exact ⟨old, found, by rw [if_neg named], .inr ⟨named, by rw [if_neg named]⟩⟩

theorem RelaysSound.row_of_onDelivery {entry : Entry Payload} {ok executed : Bool} {row : Row Payload}
    (sound : RelaysSound state) (known : entry ∈ state.committed)
    (member : row ∈ onDelivery state.outbox entry.id ok executed) :
    (row.status = .sent →
      row.toEntry ∈ if ok then state.delivered ++ [entry] else state.delivered) ∧
    row.status ≠ .failed := by
  have kept (delivered : row.toEntry ∈ state.delivered) :
      row.toEntry ∈ if ok then state.delivered ++ [entry] else state.delivered := by
    cases ok
    · exact delivered
    · exact List.mem_append_left _ delivered
  simp only [onDelivery] at member
  split at member
  · obtain ⟨old, found, sameEntry, ⟨named, status⟩ | ⟨_, status⟩⟩ := mem_setStatus member
    · cases ok with
      | false => simp [status]
      | true =>
          refine ⟨fun _ => List.mem_append_right _ (List.mem_singleton.mpr ?_), by simp [status]⟩
          exact sameEntry.trans (sound.mem_outbox_unique found known named)
    · rw [status]
      exact ⟨fun sent => kept (sameEntry ▸ sound.sentDelivered old found sent),
        sound.unfailed old found⟩
  · exact ⟨fun sent => kept (sound.sentDelivered row member sent), sound.unfailed row member⟩

variable [DecidableEq R]

/-- A relay that holds nothing new, on a table with the same entries. -/
theorem RelaysSound.update {outbox : List (Row Payload)} {process : Relay Payload}
    {handed delivered : List (Entry Payload)} {sent : List Nat} (sound : RelaysSound state)
    (sameEntries : entries outbox = entries state.outbox)
    (handedCommitted : ∀ entry ∈ handed, entry ∈ state.committed)
    (heldCommitted : ∀ entry ∈ process.rows ++ process.claimed ++ process.outstanding,
      entry ∈ state.committed)
    (sentDelivered : ∀ row ∈ outbox, row.status = .sent → row.toEntry ∈ delivered)
    (unfailed : ∀ row ∈ outbox, row.status ≠ .failed) :
    RelaysSound { state.setRelay relay process with outbox, handed, delivered, sent } where
  distinct := by simpa only [sameEntries] using sound.distinct
  committed := by simpa only [sameEntries, State.setRelay] using sound.committed
  handed := handedCommitted
  inFlight := fun other => by
    by_cases same : other = relay
    · subst same
      simpa only [State.setRelay, Function.update_self] using heldCommitted
    · simpa only [State.setRelay, Function.update_of_ne same] using sound.inFlight other
  sentDelivered := sentDelivered
  unfailed := unfailed

theorem RelaysSound.commit {row : Row Payload} (sound : RelaysSound state)
    (stepped : step batchSize state (.commit row) = some next) : RelaysSound next := by
  obtain ⟨pending, fresh, rfl⟩ := commit_eq_some stepped
  have inserted := List.perm_orderedInsert
    (fun row other : Row Payload => row.id ≤ other.id) row state.outbox
  have entriesPerm := inserted.map Row.toEntry
  have known (other : Row Payload) : other ∈
      state.outbox.orderedInsert (fun row other => row.id ≤ other.id) row ↔
        other = row ∨ other ∈ state.outbox := by
    rw [inserted.mem_iff, List.mem_cons]
  refine ⟨?_, fun entry => ?_, fun entry member => .tail _ (sound.handed entry member),
    fun relay entry member => .tail _ (sound.inFlight relay entry member), fun other member => ?_,
    fun other member => ?_⟩
  · refine (entriesPerm.map Entry.id).nodup_iff.mpr (List.nodup_cons.mpr ⟨?_, sound.distinct⟩)
    intro taken
    obtain ⟨entry, member, same⟩ := List.mem_map.mp taken
    obtain ⟨other, found, rfl⟩ := mem_entries.mp member
    exact fresh other found same
  · rw [List.mem_cons, sound.committed]
    exact (entriesPerm.mem_iff.trans List.mem_cons).symm
  · rcases (known other).mp member with rfl | earlier
    · simp [pending]
    · exact sound.sentDelivered other earlier
  · rcases (known other).mp member with rfl | earlier
    · simp [pending]
    · exact sound.unfailed other earlier

theorem RelaysSound.start {executed : Bool} (sound : RelaysSound state)
    (stepped : step batchSize state (.start relay executed) = some next) : RelaysSound next := by
  obtain ⟨_, rfl⟩ := start_eq_some stepped
  refine sound.update entries_reclaimStuckSending sound.handed (by simp) (fun row member => ?_)
    (fun row member => ?_)
  all_goals
    simp only [reclaimStuckSending] at member
    split at member
    · obtain ⟨old, found, rfl⟩ := List.mem_map.mp member
      split
      · simp
      · first | exact sound.sentDelivered old found | exact sound.unfailed old found
    · first | exact sound.sentDelivered row member | exact sound.unfailed row member

theorem RelaysSound.claim {executed : Bool} (sound : RelaysSound state)
    (stepped : step batchSize state (.claim relay executed) = some next) : RelaysSound next := by
  obtain ⟨entry, rest, rows, ⟨_, _, rfl⟩ | ⟨_, rfl⟩⟩ := claim_eq_some stepped
  · refine sound.update entries_setStatus sound.handed (fun other held => ?_)
      (fun row member => ?_) (fun row member => ?_)
    · apply sound.inFlight relay other
      rw [rows]
      simp only [List.mem_append, List.mem_cons] at held ⊢
      tauto
    · obtain ⟨old, found, sameEntry, ⟨_, status⟩ | ⟨_, status⟩⟩ := mem_setStatus member
      · simp [status]
      · rw [status, sameEntry]
        exact sound.sentDelivered old found
    · obtain ⟨old, found, _, ⟨_, status⟩ | ⟨_, status⟩⟩ := mem_setStatus member
      · simp [status]
      · rw [status]
        exact sound.unfailed old found
  · refine sound.update rfl sound.handed (fun other held => ?_) sound.sentDelivered sound.unfailed
    apply sound.inFlight relay other
    rw [rows]
    exact .tail _ held

theorem RelaysSound.select {executed : Bool} (sound : RelaysSound state)
    (stepped : step batchSize state (.select relay executed) = some next) : RelaysSound next := by
  obtain ⟨_, _, _, rows, selected, rfl⟩ := select_eq_some stepped
  refine sound.update rfl sound.handed (fun entry held => ?_) sound.sentDelivered sound.unfailed
  rw [List.append_assoc, List.mem_append] at held
  rcases held with fetched | earlier
  · rcases selected with rfl | rfl
    · contradiction
    · obtain ⟨row, member, _, same⟩ := mem_selectPending fetched
      exact (sound.committed entry).mpr (mem_entries.mpr ⟨row, member, same⟩)
  · apply sound.inFlight relay entry
    rw [List.append_assoc]
    exact List.mem_append_right _ earlier

theorem RelaysSound.produce {queued executed : Bool} (sound : RelaysSound state)
    (stepped : step batchSize state (.produce relay queued executed) = some next) :
    RelaysSound next := by
  obtain ⟨entry, rest, rows, claimed, branch⟩ := produce_eq_some stepped
  have holds (other : Entry Payload)
      (held : other = entry ∨ other ∈ rest ∨ other ∈ (state.relays relay).outstanding) :
      other ∈ state.committed := by
    apply sound.inFlight relay other
    rw [rows, claimed]
    simpa using held
  have handed (other : Entry Payload) (member : other ∈ entry :: state.handed) :
      other ∈ state.committed := by
    rcases List.mem_cons.mp member with same | earlier
    · exact holds other (.inl same)
    · exact sound.handed other earlier
  rcases branch with ⟨_, rfl⟩ | ⟨_, rfl⟩
  · refine sound.update rfl handed (fun other held => holds other ?_) sound.sentDelivered sound.unfailed
    simp only [rows, List.nil_append, List.mem_append, List.mem_singleton] at held
    tauto
  · have delivery (row : Row Payload)
        (member : row ∈ onDelivery state.outbox entry.id false executed) :=
      sound.row_of_onDelivery (holds entry (.inl rfl)) member
    refine sound.update entries_onDelivery handed (fun other held => holds other ?_)
      (fun row member => (delivery row member).1) (fun row member => (delivery row member).2)
    simp only [rows, List.nil_append, List.mem_append] at held
    exact .inr held

theorem RelaysSound.callback {context : Nat} {ok executed : Bool} (sound : RelaysSound state)
    (stepped : step batchSize state (.callback relay context ok executed) = some next) :
    RelaysSound next := by
  obtain ⟨entry, before, later, outstanding, _, rfl⟩ := callback_eq_some stepped
  have known : entry ∈ state.committed := by
    apply sound.inFlight relay entry
    rw [outstanding]
    simp
  have delivery (row : Row Payload) (member : row ∈ onDelivery state.outbox entry.id ok executed) :=
    sound.row_of_onDelivery known member
  refine sound.update entries_onDelivery sound.handed (fun other held => ?_)
    (fun row member => (delivery row member).1) (fun row member => (delivery row member).2)
  apply sound.inFlight relay other
  rw [outstanding]
  simp only [List.mem_append, List.mem_cons] at held ⊢
  tauto

theorem RelaysSound.preserved {event : Event R Payload} (sound : RelaysSound state)
    (stepped : step batchSize state event = some next) : RelaysSound next := by
  cases event with
  | commit row => exact sound.commit stepped
  | tick elapsed =>
      cases stepped
      exact { sound with }
  | start relay executed => exact sound.start stepped
  | select relay executed => exact sound.select stepped
  | claim relay executed => exact sound.claim stepped
  | produce relay queued executed => exact sound.produce stepped
  | callback relay context ok executed => exact sound.callback stepped
  | crash relay =>
      cases stepped
      exact sound.update rfl sound.handed (by simp) sound.sentDelivered sound.unfailed

end MuduoIm.Server.OutboxService
