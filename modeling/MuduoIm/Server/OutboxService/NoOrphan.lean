import MuduoIm.Server.OutboxService.Custody

namespace MuduoIm.Server.OutboxService

open MuduoIm.Transition

/-! # A single relay answers for every row -/

variable {Payload : Type} {batchSize : Nat} {state next : State Unit Payload}
variable {executed queued ok : Bool} {context : Nat}

/-- Every row is sent, will be selected again, or is in the hands of the relay. -/
def Covered (outbox : List (Row Payload)) (held : List Nat) : Prop :=
  ∀ row ∈ outbox,
    row.status = .sent ∨ row.status = .pending ∨ (row.status = .sending ∧ row.id ∈ held)

def NoOrphan (state : State Unit Payload) : Prop :=
  (state.relays ()).running = true → Covered state.outbox (state.relays ()).held

/-- A start reclaims every row that is `sending`, and every `onDelivery` gets
its update through. -/
def Answered (state : State Unit Payload) : Event Unit Payload → Prop
  | .start _ executed => ∀ row ∈ state.outbox, row.status = .sending →
      executed = true ∧ row.Stuck state.now
  | .produce _ queued executed => queued = true ∨ executed = true
  | .callback _ _ _ executed => executed = true
  | _ => True

/-! ## One step -/

theorem covered_setStatus {outbox : List (Row Payload)} {held : List Nat} {id : Nat} {status : Status}
    (covered : Covered outbox held)
    (fine : status = .sent ∨ status = .pending ∨ (status = .sending ∧ id ∈ held)) :
    Covered (setStatus outbox id status) held := by
  intro row member
  obtain ⟨old, found, sameEntry, ⟨named, now⟩ | ⟨_, now⟩⟩ := mem_setStatus member
  · have sameId : row.id = id := (congrArg Entry.id sameEntry).trans named
    rw [now, sameId]
    exact fine
  · have sameId : row.id = old.id := congrArg Entry.id sameEntry
    rw [now, sameId]
    exact covered old found

theorem Covered.mono {outbox : List (Row Payload)} {held more : List Nat} (covered : Covered outbox held)
    (grows : ∀ id ∈ held, id ∈ more) : Covered outbox more :=
  fun row member => (covered row member).imp_right (Or.imp_right (And.imp_right (grows row.id)))

/-- The row that a report is about is left without anybody if and only if the
update does not get through. -/
theorem covered_report_iff {entry : Entry Payload} {held remaining : List Nat} (custody : Custody state)
    (covered : Covered state.outbox held) (mine : held = (state.relays ()).held)
    (heldPerm : held.Perm (entry.id :: remaining)) :
    Covered (onDelivery state.outbox entry.id ok executed) remaining ↔ executed = true := by
  subst mine
  have distinct := List.nodup_cons.mp (heldPerm.nodup_iff.mp (custody.distinct ()))
  obtain ⟨row, member, named, sending⟩ :=
    custody.sending () entry.id (heldPerm.mem_iff.mpr List.mem_cons_self)
  constructor
  · intro stays
    cases executed with
    | true => rfl
    | false =>
        rcases stays row member with sent | pending | ⟨_, held⟩
        · rw [sending] at sent
          contradiction
        · rw [sending] at pending
          contradiction
        · exact absurd (named ▸ held) distinct.1
  · intro same
    subst same
    intro other found
    obtain ⟨old, oldMember, sameEntry, ⟨_, now⟩ | ⟨apart, now⟩⟩ := mem_setStatus found
    · rw [now]
      cases ok
      · exact .inr (.inl rfl)
      · exact .inl rfl
    · have sameId : other.id = old.id := congrArg Entry.id sameEntry
      rw [now, sameId]
      refine (covered old oldMember).imp_right (Or.imp_right (And.imp_right fun holds => ?_))
      exact (List.mem_cons.mp (heldPerm.mem_iff.mp holds)).resolve_left apart

/-- When nobody holds a row, no row may be `sending`. -/
theorem covered_nil_iff {outbox : List (Row Payload)}
    (unfailed : ∀ row ∈ outbox, row.status ≠ .failed) :
    Covered outbox [] ↔ ∀ row ∈ outbox, row.status ≠ .sending := by
  refine forall₂_congr fun row member => ?_
  have fails := unfailed row member
  cases status : row.status <;> simp [status] at fails ⊢

theorem reclaimed_iff {outbox : List (Row Payload)} {now : Nat} :
    (∀ row ∈ reclaimStuckSending now outbox executed, row.status ≠ .sending) ↔
      ∀ row ∈ outbox, row.status = .sending → executed = true ∧ row.Stuck now := by
  cases executed with
  | false => simp [reclaimStuckSending]
  | true =>
      simp only [reclaimStuckSending, if_true, List.forall_mem_map, true_and]
      refine forall₂_congr fun row _ => ?_
      by_cases stuck : row.Stuck now
      · simp [stuck]
      · simp [stuck]

theorem noOrphan_start_iff (custody : Custody state)
    (stepped : step batchSize state (.start () executed) = some next) :
    NoOrphan next ↔ Answered state (.start () executed) := by
  have unfailed := (custody.sound.preserved stepped).unfailed
  obtain ⟨_, rfl⟩ := start_eq_some stepped
  have idle : NoOrphan { state.setRelay () { running := true } with
      outbox := reclaimStuckSending state.now state.outbox executed } ↔
        Covered (reclaimStuckSending state.now state.outbox executed) [] := by
    simp only [NoOrphan, setRelay_self, true_implies]
    rfl
  rw [idle, covered_nil_iff unfailed, reclaimed_iff]
  rfl

theorem noOrphan_produce_iff (custody : Custody state) (noOrphan : NoOrphan state)
    (stepped : step batchSize state (.produce () queued executed) = some next) :
    NoOrphan next ↔ Answered state (.produce () queued executed) := by
  obtain ⟨entry, rest, rows, claimed, branch⟩ := produce_eq_some stepped
  have busy := custody.running () (by intro idle; simp [idle] at claimed)
  have covered := noOrphan busy
  have heldSplit : (state.relays ()).held =
      entry.id :: (rest ++ (state.relays ()).outstanding).map Entry.id := by
    rw [Relay.held, claimed]
    rfl
  rcases branch with ⟨rfl, rfl⟩ | ⟨rfl, rfl⟩
  · refine iff_of_true (fun _ => ?_) (.inl rfl)
    simp only [setRelay_self]
    refine covered.mono fun id held => ?_
    rw [heldSplit] at held
    simp only [Relay.held, List.map_append, List.map_cons, List.map_nil, List.mem_cons,
      List.mem_append] at held ⊢
    tauto
  · simp only [NoOrphan, Answered, setRelay_self, busy, true_implies, Bool.false_eq_true, false_or]
    apply covered_report_iff custody covered rfl
    rw [heldSplit]
    exact List.Perm.refl _

theorem noOrphan_callback_iff (custody : Custody state) (noOrphan : NoOrphan state)
    (stepped : step batchSize state (.callback () context ok executed) = some next) :
    NoOrphan next ↔ Answered state (.callback () context ok executed) := by
  obtain ⟨entry, before, later, outstanding, _, rfl⟩ := callback_eq_some stepped
  have busy := custody.running () (by intro idle; simp [idle] at outstanding)
  simp only [NoOrphan, Answered, setRelay_self, busy, true_implies]
  apply covered_report_iff custody (noOrphan busy) rfl
  rw [Relay.held, outstanding, ← List.append_assoc, Relay.held, ← List.append_assoc]
  exact (List.perm_middle (a := entry)).map Entry.id

theorem noOrphan_claim (custody : Custody state) (noOrphan : NoOrphan state)
    (stepped : step batchSize state (.claim () executed) = some next) : NoOrphan next := by
  obtain ⟨entry, rest, rows, branch⟩ := claim_eq_some stepped
  have busy := custody.running () (by intro idle; simp [idle] at rows)
  have covered := noOrphan busy
  rcases branch with ⟨_, _, rfl⟩ | ⟨_, rfl⟩
  · intro _
    simp only [setRelay_self]
    refine covered_setStatus (covered.mono fun id held => ?_) (.inr (.inr ⟨rfl, ?_⟩))
    · simp only [Relay.held, List.map_append, List.mem_append] at held ⊢
      tauto
    · simp [Relay.held]
  · intro _
    simp only [setRelay_self]
    exact covered

/-! ## Runs -/

/-- Throughout a run of a single relay every row is answered for, if and only if
every start reclaims all rows that are `sending` and every `onDelivery` gets its
update through. -/
theorem no_orphan_iff_answered (batchSize : Nat) (events : List (Event Unit Payload)) :
    (machine Unit Payload batchSize).Always NoOrphan {} events ↔
      (machine Unit Payload batchSize).Meets Answered {} events := by
  refine Machine.always_iff_meets Custody nofun custody_init
    (fun _ _ _ custody stepped => custody.single stepped) ?_
  intro state event next custody noOrphan stepped
  change step batchSize state event = some next at stepped
  cases event with
  | commit row =>
      obtain ⟨pending, _, rfl⟩ := commit_eq_some stepped
      refine iff_of_true (fun running other member => ?_) trivial
      rcases List.mem_cons.mp (((List.perm_orderedInsert _ row state.outbox).mem_iff).mp member)
        with rfl | earlier
      · exact .inr (.inl pending)
      · exact noOrphan running other earlier
  | tick elapsed =>
      cases stepped
      exact iff_of_true noOrphan trivial
  | start relay executed => exact noOrphan_start_iff custody stepped
  | select relay executed =>
      obtain ⟨running, _, _, rows, _, rfl⟩ := select_eq_some stepped
      refine iff_of_true (fun _ => ?_) trivial
      simp only [setRelay_self]
      exact noOrphan running
  | claim relay executed => exact iff_of_true (noOrphan_claim custody noOrphan stepped) trivial
  | produce relay queued executed =>
      exact noOrphan_produce_iff custody noOrphan stepped
  | callback relay context ok executed =>
      exact noOrphan_callback_iff custody noOrphan stepped
  | crash relay =>
      cases stepped
      refine iff_of_true (fun running => ?_) trivial
      simp at running

/-! ## A quick restart -/

private def outboxRow (id : Nat) (key : String) : Row String :=
  { id, topic := "im.messages", msgKey := key, payload := "hello", createdAt := 0 }

/-- The server crashes with a row in flight and is back after five seconds. -/
private def quickRestart : List (Event Unit String) :=
  [.start () true, .commit (outboxRow 1 "1:2"), .select () true, .claim () true,
    .produce () true true, .crash (), .tick 5000, .start () true]

theorem quick_restart_orphans_row :
    ∃ state, (machine Unit String 100).run {} quickRestart = some state ∧ ¬ NoOrphan state := by
  refine ⟨_, rfl, fun noOrphan => ?_⟩
  rcases noOrphan rfl { outboxRow 1 "1:2" with status := .sending } (.head _) with sent | pending | held
  · exact absurd sent (by decide)
  · exact absurd pending (by decide)
  · exact absurd held.2 (by decide)

end MuduoIm.Server.OutboxService
