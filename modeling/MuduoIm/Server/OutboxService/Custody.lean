import MuduoIm.Server.OutboxService.RelaysSound

namespace MuduoIm.Server.OutboxService

open MuduoIm.Transition

/-! # Rows in the hands of relays -/

variable {R Payload : Type} {batchSize : Nat} {state next : State R Payload} {relay : R}

/-- Each row that is held is held once and is `sending`, and a row that was set
to `sent` still is. -/
structure Custody (state : State R Payload) : Prop where
  sound : RelaysSound state
  down : ∀ relay, (state.relays relay).running = false → state.relays relay = {}
  distinct : ∀ relay, (state.relays relay).held.Nodup
  disjoint : ∀ relay other, relay ≠ other → ∀ id ∈ (state.relays relay).held,
    id ∉ (state.relays other).held
  sending : ∀ relay, ∀ id ∈ (state.relays relay).held, HasStatus state.outbox id .sending
  sent : ∀ id ∈ state.sent, HasStatus state.outbox id .sent

/-- A start that resets no row that some relay holds. -/
def SparesHeld (state : State R Payload) : Event R Payload → Prop
  | .start _ executed => executed = true → ∀ row ∈ state.outbox, row.Stuck state.now →
      ∀ relay, row.id ∉ (state.relays relay).held
  | _ => True

theorem custody_init : Custody ({} : State R Payload) where
  sound := ⟨by simp [entries], by simp [entries], by simp, by simp, by simp, by simp⟩
  down := fun _ _ => rfl
  distinct := by simp [Relay.held]
  disjoint := by simp [Relay.held]
  sending := by simp [Relay.held]
  sent := by simp

theorem Custody.running (custody : Custody state) (relay : R) (busy : state.relays relay ≠ {}) :
    (state.relays relay).running = true := by
  cases running : (state.relays relay).running with
  | true => rfl
  | false => exact absurd (custody.down relay running) busy

variable [DecidableEq R]

/-- One relay moves; the rows that the others hold keep their status. -/
theorem Custody.update {outbox : List (Row Payload)} {process : Relay Payload}
    {handed delivered : List (Entry Payload)} {sent : List Nat} (custody : Custody state)
    (sound : RelaysSound { state.setRelay relay process with outbox, handed, delivered, sent })
    (down : process.running = false → process = {}) (distinct : process.held.Nodup)
    (apart : ∀ other, other ≠ relay → ∀ id ∈ process.held, id ∉ (state.relays other).held)
    (sending : ∀ id ∈ process.held, HasStatus outbox id .sending)
    (others : ∀ other, other ≠ relay → ∀ id ∈ (state.relays other).held, HasStatus outbox id .sending)
    (sentStays : ∀ id ∈ sent, HasStatus outbox id .sent) :
    Custody { state.setRelay relay process with outbox, handed, delivered, sent } where
  sound := sound
  down := fun other => by
    by_cases same : other = relay
    · subst same
      simpa using down
    · simpa [setRelay_ne same] using custody.down other
  distinct := fun other => by
    by_cases same : other = relay
    · subst same
      simpa using distinct
    · simpa [setRelay_ne same] using custody.distinct other
  disjoint := fun first second different id held => by
    by_cases firstMoves : first = relay
    · subst firstMoves
      simp only [setRelay_self] at held
      simpa only [setRelay_ne different.symm] using apart second different.symm id held
    · simp only [setRelay_ne firstMoves] at held
      by_cases secondMoves : second = relay
      · subst secondMoves
        simp only [setRelay_self]
        exact fun both => apart first firstMoves id both held
      · simpa only [setRelay_ne secondMoves] using custody.disjoint first second different id held
  sending := fun other => by
    by_cases same : other = relay
    · subst same
      simpa only [setRelay_self] using sending
    · simpa only [setRelay_ne same] using others other same
  sent := sentStays

theorem Custody.start {executed : Bool} (custody : Custody state)
    (spares : SparesHeld state (.start relay executed))
    (stepped : step batchSize state (.start relay executed) = some next) : Custody next := by
  have sound := custody.sound.preserved stepped
  obtain ⟨_, rfl⟩ := start_eq_some stepped
  have kept {id : Nat} {status : Status} (has : HasStatus state.outbox id status)
      (still : ∀ row ∈ state.outbox, row.id = id → executed = true → ¬ row.Stuck state.now) :
      HasStatus (reclaimStuckSending state.now state.outbox executed) id status := by
    obtain ⟨row, member, named, here⟩ := has
    simp only [reclaimStuckSending]
    split
    · rename_i reclaims
      refine ⟨row, List.mem_map.mpr ⟨row, member, ?_⟩, named, here⟩
      exact if_neg (still row member named reclaims)
    · exact ⟨row, member, named, here⟩
  refine custody.update sound (fun idle => by cases idle) (by simp [Relay.held]) (by simp [Relay.held])
    (by simp [Relay.held]) (fun other _ id held => ?_) (fun id known => ?_)
  · refine kept (custody.sending other id held) fun row member named reclaims stuck => ?_
    exact spares reclaims row member stuck other (named ▸ held)
  · refine kept (custody.sent id known) fun row member named _ stuck => ?_
    have same := custody.sound.status_unique (custody.sent id known) ⟨row, member, named, stuck.1⟩
    contradiction

/-- The claimed row was pending, so no relay held it. -/
theorem Custody.claim {executed : Bool} (custody : Custody state)
    (stepped : step batchSize state (.claim relay executed) = some next) : Custody next := by
  have sound := custody.sound.preserved stepped
  obtain ⟨entry, rest, rows, ⟨_, pending, rfl⟩ | ⟨_, rfl⟩⟩ := claim_eq_some stepped
  · have busy := custody.running relay (by intro idle; simp [idle] at rows)
    have unheld (other : R) : entry.id ∉ (state.relays other).held := fun held => by
      have same := custody.sound.status_unique (custody.sending other entry.id held) pending
      contradiction
    have heldPerm : ((((state.relays relay).claimed ++ [entry]) ++
        (state.relays relay).outstanding).map Entry.id).Perm
          (entry.id :: (state.relays relay).held) := by
      rw [List.append_assoc]
      exact (List.perm_middle (a := entry)).map Entry.id
    have now_sending : HasStatus (setStatus state.outbox entry.id .sending) entry.id .sending := by
      obtain ⟨row, member, named, _⟩ := pending
      exact hasStatus_setStatus_self.mpr ⟨rfl, row, member, named⟩
    refine custody.update sound (fun down => by simp [busy] at down)
      (heldPerm.nodup_iff.mpr (List.nodup_cons.mpr ⟨unheld relay, custody.distinct relay⟩))
      (fun other apart id held => ?_) (fun id held => ?_) (fun other _ id held => ?_) (fun id known => ?_)
    · rcases List.mem_cons.mp (heldPerm.mem_iff.mp held) with rfl | earlier
      · exact unheld other
      · exact custody.disjoint relay other apart.symm id earlier
    · rcases List.mem_cons.mp (heldPerm.mem_iff.mp held) with rfl | earlier
      · exact now_sending
      · refine (hasStatus_setStatus_ne fun same => ?_).mpr (custody.sending relay id earlier)
        exact unheld relay (same ▸ earlier)
    · refine (hasStatus_setStatus_ne fun same => ?_).mpr (custody.sending other id held)
      exact unheld other (same ▸ held)
    · refine (hasStatus_setStatus_ne fun same => ?_).mpr (custody.sent id known)
      have clash := custody.sound.status_unique (custody.sent id known) (same ▸ pending)
      contradiction
  · have busy := custody.running relay (by intro idle; simp [idle] at rows)
    exact custody.update sound (fun down => by simp [busy] at down) (custody.distinct relay)
      (fun other apart => custody.disjoint relay other apart.symm) (custody.sending relay)
      (fun other _ => custody.sending other) custody.sent

/-- A report on a held row, which is not held afterwards. -/
theorem Custody.report {entry : Entry Payload} {process : Relay Payload} (ok executed : Bool)
    {handed delivered : List (Entry Payload)} (custody : Custody state)
    (sound : RelaysSound { state.setRelay relay process with
      outbox := onDelivery state.outbox entry.id ok executed, handed, delivered
      sent := if ok && executed then entry.id :: state.sent else state.sent })
    (running : process.running = true)
    (heldPerm : (state.relays relay).held.Perm (entry.id :: process.held)) :
    Custody { state.setRelay relay process with
      outbox := onDelivery state.outbox entry.id ok executed, handed, delivered
      sent := if ok && executed then entry.id :: state.sent else state.sent } := by
  have held : entry.id ∈ (state.relays relay).held := heldPerm.mem_iff.mpr List.mem_cons_self
  have distinct := List.nodup_cons.mp (heldPerm.nodup_iff.mp (custody.distinct relay))
  have remains (id : Nat) (stays : id ∈ process.held) : id ∈ (state.relays relay).held :=
    heldPerm.mem_iff.mpr (.tail _ stays)
  refine custody.update sound (fun down => by simp [running] at down) distinct.2
    (fun other apart id stays => custody.disjoint relay other apart.symm id (remains id stays))
    (fun id stays => hasStatus_onDelivery_ne (fun same => distinct.1 (same ▸ stays))
      (custody.sending relay id (remains id stays)))
    (fun other apart id holds => hasStatus_onDelivery_ne (fun same => ?_) (custody.sending other id holds))
    (fun id known => ?_)
  · exact custody.disjoint relay other apart.symm entry.id held (same ▸ holds)
  · by_cases same : id = entry.id
    · subst same
      obtain ⟨row, member, named, _⟩ := custody.sending relay _ held
      cases marks : ok && executed with
      | true =>
          obtain ⟨rfl, rfl⟩ := Bool.and_eq_true_iff.mp marks
          exact hasStatus_setStatus_self.mpr ⟨rfl, row, member, named⟩
      | false =>
          simp only [marks, Bool.false_eq_true, if_false] at known
          have clash := custody.sound.status_unique (custody.sent _ known)
            (custody.sending relay _ held)
          contradiction
    · refine hasStatus_onDelivery_ne same (custody.sent id ?_)
      split at known
      · exact (List.mem_cons.mp known).resolve_left same
      · exact known

theorem Custody.produce {queued executed : Bool} (custody : Custody state)
    (stepped : step batchSize state (.produce relay queued executed) = some next) : Custody next := by
  have sound := custody.sound.preserved stepped
  obtain ⟨entry, rest, rows, claimed, branch⟩ := produce_eq_some stepped
  have busy := custody.running relay (by intro idle; simp [idle] at claimed)
  rcases branch with ⟨_, rfl⟩ | ⟨_, rfl⟩
  · have heldPerm : ((rest ++ ((state.relays relay).outstanding ++ [entry])).map Entry.id).Perm
        (state.relays relay).held := by
      rw [Relay.held, claimed, ← List.append_assoc]
      exact (List.perm_append_singleton _ _).map Entry.id
    refine custody.update sound (fun down => by simp [busy] at down)
      (heldPerm.nodup_iff.mpr (custody.distinct relay)) (fun other apart id held => ?_)
      (fun id held => custody.sending relay id (heldPerm.mem_iff.mp held))
      (fun other _ => custody.sending other) custody.sent
    exact custody.disjoint relay other apart.symm id (heldPerm.mem_iff.mp held)
  · apply custody.report false executed sound busy
    rw [Relay.held, claimed]
    exact List.Perm.refl _

theorem Custody.callback {context : Nat} {ok executed : Bool} (custody : Custody state)
    (stepped : step batchSize state (.callback relay context ok executed) = some next) :
    Custody next := by
  have sound := custody.sound.preserved stepped
  obtain ⟨entry, before, later, outstanding, _, rfl⟩ := callback_eq_some stepped
  have busy := custody.running relay (by intro idle; simp [idle] at outstanding)
  apply custody.report ok executed sound busy
  rw [Relay.held, outstanding, ← List.append_assoc, Relay.held, ← List.append_assoc]
  exact (List.perm_middle (a := entry)).map Entry.id

theorem Custody.preserved {event : Event R Payload} (custody : Custody state)
    (spares : SparesHeld state event) (stepped : step batchSize state event = some next) :
    Custody next := by
  have sound := custody.sound.preserved stepped
  cases event with
  | commit row =>
      obtain ⟨_, _, rfl⟩ := commit_eq_some stepped
      exact { custody with
        sound
        sending := fun relay id held => hasStatus_orderedInsert (custody.sending relay id held)
        sent := fun id known => hasStatus_orderedInsert (custody.sent id known) }
  | tick elapsed =>
      cases stepped
      exact { custody with sound }
  | start relay executed => exact custody.start spares stepped
  | select relay executed =>
      obtain ⟨running, _, _, rows, _, rfl⟩ := select_eq_some stepped
      exact custody.update sound (fun down => by simp [running] at down) (custody.distinct relay)
        (fun other apart => custody.disjoint relay other apart.symm) (custody.sending relay)
        (fun other _ => custody.sending other) custody.sent
  | claim relay executed => exact custody.claim stepped
  | produce relay queued executed => exact custody.produce stepped
  | callback relay context ok executed => exact custody.callback stepped
  | crash relay =>
      cases stepped
      exact custody.update sound (fun _ => rfl) (by simp [Relay.held]) (by simp [Relay.held])
        (by simp [Relay.held]) (fun other _ => custody.sending other) custody.sent

/-- A single relay holds nothing when it starts. -/
theorem Custody.sparesHeld {state next : State Unit Payload} {event : Event Unit Payload}
    (custody : Custody state) (stepped : step batchSize state event = some next) : SparesHeld state event := by
  cases event with
  | start relay executed =>
      intro _ row _ _ other held
      obtain ⟨stopped, _⟩ := start_eq_some stepped
      rw [custody.down other stopped] at held
      simp [Relay.held] at held
  | _ => trivial

theorem Custody.single {state next : State Unit Payload} {event : Event Unit Payload}
    (custody : Custody state) (stepped : step batchSize state event = some next) : Custody next :=
  custody.preserved (custody.sparesHeld stepped) stepped

end MuduoIm.Server.OutboxService
