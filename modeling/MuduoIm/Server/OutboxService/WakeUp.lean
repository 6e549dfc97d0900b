import MuduoIm.Server.OutboxService.Ledger
import MuduoIm.Server.OutboxService.RelayLoop

namespace MuduoIm.Server.OutboxService

open MuduoIm.Transition

/-! # No wake-up is lost

While the relay is on its way into the wait, a row that it has not seen was
committed after its SELECT, so the flag that its thread has set is still set.
-/

variable {T Payload : Type} {batchSize : Nat}

/-! ## The flag and the lock -/

/-- The thread has set the flag, and its call has not returned. -/
def WakeStage.signalled : WakeStage → Prop
  | .flagged | .notified => True
  | _ => False

def WakeStage.holds : WakeStage → Prop
  | .locked | .flagged | .notified => True
  | _ => False

def Position.holds : Position → Prop
  | .testing _ | .parking | .clearing => True
  | _ => False

/-- The relay has found nothing to claim and is not yet out of the wait. -/
def RelayLoop.Idle (loop : RelayLoop T Payload) : Prop :=
  match loop.position with
  | .draining claims => claims = 0 ∧ (loop.table.relays ()).rows = []
  | .locking | .testing _ | .parking | .blocked | .roused _ => True
  | _ => False

/-- The flag is set, or no thread has signalled a row that was never claimed. -/
def RelayLoop.Heard (loop : RelayLoop T Payload) : Prop :=
  loop.wakeFlag = true ∨ ∀ row ∈ loop.table.outbox, row.id ∉ loop.claimed → row.id ∉ loop.woken ∧
    ∀ thread, (loop.committers thread).stage.signalled → row.id ∉ (loop.committers thread).rows

structure Attentive (loop : RelayLoop T Payload) : Prop where
  ledger : Ledger loop.table loop.claimed
  wokenStored : ∀ id ∈ loop.woken, ∃ entry ∈ entries loop.table.outbox, entry.id = id
  rowsStored : ∀ thread, ∀ id ∈ (loop.committers thread).rows, ∃ entry ∈ entries loop.table.outbox, entry.id = id
  heard : loop.Idle → loop.Heard
  relayLock : loop.wakeMu = some .relay ↔ loop.position.holds
  committerLock : ∀ thread, loop.wakeMu = some (.committer thread) ↔ (loop.committers thread).stage.holds
  unflagged : loop.position = .parking → loop.wakeFlag = false
  flagged : loop.position = .blocked → loop.wakeFlag = true →
    ∃ thread, (loop.committers thread).stage = .flagged

theorem attentive_init : Attentive ({} : RelayLoop T Payload) where
  ledger := ⟨custody_init, by simp, by simp, by simp⟩
  wokenStored := by simp
  rowsStored := by simp
  heard := by simp [RelayLoop.Idle]
  relayLock := by simp [Position.holds]
  committerLock := by simp [WakeStage.holds]
  unflagged := by simp
  flagged := by simp

section Loop

variable {loop next : RelayLoop T Payload} {table : State Unit Payload}

theorem RelayLoop.Heard.retable (heard : loop.Heard) (same : entries table.outbox = entries loop.table.outbox) :
    RelayLoop.Heard { loop with table } := by
  rcases heard with flag | unseen
  · exact .inl flag
  · refine .inr ?_
    intro row member
    have listed : row.toEntry ∈ entries loop.table.outbox := same ▸ mem_entries.mpr ⟨row, member, rfl⟩
    obtain ⟨old, stored, sameEntry⟩ := mem_entries.mp listed
    have sameId : old.id = row.id := congrArg Entry.id sameEntry
    have known := unseen old stored
    rwa [sameId] at known

/-- Only the table changes, in the statuses of its rows. -/
theorem Attentive.retable (attentive : Attentive loop) (ledger : Ledger table loop.claimed)
    (same : entries table.outbox = entries loop.table.outbox)
    (sameRows : (table.relays ()).rows = (loop.table.relays ()).rows) : Attentive { loop with table } where
  ledger := ledger
  wokenStored := by
    rw [same]
    exact attentive.wokenStored
  rowsStored := by
    rw [same]
    exact attentive.rowsStored
  heard := by
    intro idle
    apply RelayLoop.Heard.retable ?_ same
    apply attentive.heard
    rw [RelayLoop.Idle] at idle ⊢
    rwa [sameRows] at idle
  relayLock := attentive.relayLock
  committerLock := attentive.committerLock
  unflagged := attentive.unflagged
  flagged := attentive.flagged

/-- The relay thread goes on, without the table. -/
theorem Attentive.relayStep {position : Position} {wakeMu : Option (Holder T)} {wakeFlag : Bool}
    (attentive : Attentive loop)
    (heard : RelayLoop.Idle { loop with position } → RelayLoop.Heard { loop with wakeFlag })
    (relayLock : wakeMu = some .relay ↔ position.holds)
    (committerLock : ∀ thread, wakeMu = some (.committer thread) ↔ (loop.committers thread).stage.holds)
    (unflagged : position = .parking → wakeFlag = false)
    (flagged : position = .blocked → wakeFlag = true → ∃ thread, (loop.committers thread).stage = .flagged) :
    Attentive { loop with position, wakeMu, wakeFlag } where
  ledger := attentive.ledger
  wokenStored := attentive.wokenStored
  rowsStored := attentive.rowsStored
  heard := heard
  relayLock := relayLock
  committerLock := committerLock
  unflagged := unflagged
  flagged := flagged

/-- The relay goes to a place outside the lock and the wait. -/
theorem Attentive.move {position : Position} (attentive : Attentive loop) (outside : ¬ loop.position.holds)
    (free : ¬ position.holds) (awake : position ≠ .blocked)
    (idle : RelayLoop.Idle { loop with position } → loop.Heard) : Attentive { loop with position } := by
  refine attentive.relayStep idle (attentive.relayLock.trans (iff_of_false outside free)) attentive.committerLock ?_
    (fun here => absurd here awake)
  intro parking
  rw [parking] at free
  exact absurd trivial free

theorem Attentive.relayOut (attentive : Attentive loop) (elsewhere : loop.wakeMu ≠ some .relay) :
    ¬ loop.position.holds :=
  fun holds => elsewhere (attentive.relayLock.mpr holds)

theorem Attentive.threadOut {thread : T} (attentive : Attentive loop)
    (elsewhere : loop.wakeMu ≠ some (.committer thread)) : ¬ (loop.committers thread).stage.holds :=
  fun holds => elsewhere ((attentive.committerLock thread).mpr holds)

/-- The relay takes the free lock. -/
theorem Attentive.relock {timedOut : Bool} (attentive : Attentive loop) (idle : loop.Idle)
    (free : loop.wakeMu = none) :
    Attentive { loop with position := .testing timedOut, wakeMu := some .relay } := by
  refine attentive.relayStep (fun _ => attentive.heard idle) (iff_of_true rfl trivial) ?_ nofun nofun
  intro thread
  exact iff_of_false nofun (attentive.threadOut (by simp [free]))

/-- The relay has the lock for itself, and lets it go. -/
theorem Attentive.unlock {position : Position} {wakeFlag : Bool} (attentive : Attentive loop)
    (holds : loop.position.holds) (free : ¬ position.holds)
    (heard : RelayLoop.Idle { loop with position } → RelayLoop.Heard { loop with wakeFlag })
    (unset : position = .blocked → wakeFlag = false) :
    Attentive { loop with position, wakeMu := none, wakeFlag } := by
  have held := attentive.relayLock.mpr holds
  refine attentive.relayStep heard (iff_of_false nofun free) ?_ ?_ ?_
  · intro thread
    exact iff_of_false nofun (attentive.threadOut (by simp [held]))
  · intro parking
    rw [parking] at free
    exact absurd trivial free
  · intro blocked flag
    rw [unset blocked] at flag
    cases flag

variable [DecidableEq T] {thread : T} {committer : Committer}

/-- A thread goes on in its call of `wake`. -/
theorem Attentive.advance {wakeMu : Option (Holder T)} {wakeFlag : Bool} {position : Position} {woken : List Nat}
    (attentive : Attentive loop) (rows : ∀ id ∈ committer.rows, id ∈ (loop.committers thread).rows)
    (wokenRows : ∀ id ∈ woken, id ∈ (loop.committers thread).rows ∨ id ∈ loop.woken)
    (heard : RelayLoop.Idle { loop with position } →
      RelayLoop.Heard { loop.setCommitter thread committer with wakeMu, wakeFlag, position, woken })
    (relayLock : wakeMu = some .relay ↔ position.holds)
    (own : wakeMu = some (.committer thread) ↔ committer.stage.holds)
    (others : ∀ other, other ≠ thread → (wakeMu = some (.committer other) ↔ (loop.committers other).stage.holds))
    (unflagged : position = .parking → wakeFlag = false)
    (flagged : position = .blocked → wakeFlag = true → ∃ other,
      ((loop.setCommitter thread committer).committers other).stage = .flagged) :
    Attentive { loop.setCommitter thread committer with wakeMu, wakeFlag, position, woken } where
  ledger := attentive.ledger
  wokenStored := by
    intro id listed
    rcases wokenRows id listed with own | older
    · exact attentive.rowsStored thread id own
    · exact attentive.wokenStored id older
  rowsStored :=
    (Function.forall_update_iff loop.committers fun _ committer => ∀ id ∈ committer.rows,
      ∃ entry ∈ entries loop.table.outbox, entry.id = id).mpr
      ⟨fun id listed => attentive.rowsStored thread id (rows id listed), fun other _ => attentive.rowsStored other⟩
  heard := heard
  relayLock := relayLock
  committerLock :=
    (Function.forall_update_iff loop.committers fun other committer =>
      wakeMu = some (.committer other) ↔ committer.stage.holds).mpr ⟨own, others⟩
  unflagged := unflagged
  flagged := flagged

/-- A thread at this stage is not the one that is about to notify. -/
private theorem flagged_other (awaits : ∃ other, (loop.committers other).stage = .flagged)
    (elsewhere : (loop.committers thread).stage ≠ .flagged) :
    ∃ other, ((loop.setCommitter thread committer).committers other).stage = .flagged := by
  obtain ⟨other, here⟩ := awaits
  refine ⟨other, ?_⟩
  have apart : other ≠ thread := by
    intro same
    exact elsewhere (same ▸ here)
  simpa only [RelayLoop.setCommitter, Function.update_of_ne apart] using here

/-- The thread has not signalled more than before. -/
private theorem heard_setCommitter (committer : Committer) (heard : loop.Heard)
    (quiet : committer.stage.signalled → (loop.committers thread).stage.signalled)
    (rows : ∀ id ∈ committer.rows, id ∈ (loop.committers thread).rows) :
    (loop.setCommitter thread committer).Heard := by
  rcases heard with flag | unseen
  · exact .inl flag
  · refine .inr fun row member never => ⟨(unseen row member never).1, ?_⟩
    have unsignalled := (unseen row member never).2
    exact (Function.forall_update_iff loop.committers fun _ committer =>
      committer.stage.signalled → row.id ∉ committer.rows).mpr
      ⟨fun signalled listed => unsignalled thread (quiet signalled) (rows _ listed), fun other _ => unsignalled other⟩

/-! ## A call of `wake` -/

theorem Attentive.call (attentive : Attentive loop) (outside : (loop.committers thread).stage = .outside) :
    Attentive (loop.setCommitter thread { loop.committers thread with stage := .calling }) := by
  have free : ¬ loop.wakeMu = some (.committer thread) := by
    rw [attentive.committerLock thread, outside]
    exact id
  exact attentive.advance (fun _ => id) (fun _ => .inr)
    (fun idle => heard_setCommitter _ (attentive.heard idle) False.elim (fun _ => id)) attentive.relayLock
    (iff_of_false free id) (fun other _ => attentive.committerLock other) attentive.unflagged
    (fun here flag => flagged_other (attentive.flagged here flag) (by simp [outside]))

theorem Attentive.acquire (attentive : Attentive loop) (calling : (loop.committers thread).stage = .calling)
    (free : loop.wakeMu = none) :
    Attentive { loop.setCommitter thread { loop.committers thread with stage := .locked } with
      wakeMu := some (.committer thread) } := by
  refine attentive.advance (fun _ => id) (fun _ => .inr)
    (fun idle => heard_setCommitter _ (attentive.heard idle) False.elim (fun _ => id))
    (iff_of_false (by simp) (attentive.relayOut (by simp [free]))) (iff_of_true rfl trivial) ?_ attentive.unflagged
    (fun here flag => flagged_other (attentive.flagged here flag) (by simp [calling]))
  intro other apart
  refine iff_of_false ?_ (attentive.threadOut (by simp [free]))
  simpa using apart.symm

theorem Attentive.flag (attentive : Attentive loop) (locked : (loop.committers thread).stage = .locked) :
    Attentive { loop.setCommitter thread { loop.committers thread with stage := .flagged } with
      wakeFlag := true } := by
  have held : loop.wakeMu = some (.committer thread) :=
    (attentive.committerLock thread).mpr (by rw [locked]; trivial)
  refine attentive.advance (fun _ => id) (fun _ => .inr) (fun _ => .inl rfl) attentive.relayLock
    (iff_of_true held trivial) (fun other _ => attentive.committerLock other) ?_ ?_
  · intro parking
    have here : loop.position = .parking := parking
    refine absurd ?_ (attentive.relayOut (by simp [held]))
    rw [here]
    trivial
  · intro _ _
    exact ⟨thread, by simp [RelayLoop.setCommitter]⟩

theorem Attentive.notify (attentive : Attentive loop) (flagged : (loop.committers thread).stage = .flagged) :
    Attentive { loop.setCommitter thread { loop.committers thread with stage := .notified } with
      position := if loop.position = .blocked then .roused false else loop.position } := by
  have held : loop.wakeMu = some (.committer thread) :=
    (attentive.committerLock thread).mpr (by rw [flagged]; trivial)
  have signals : (loop.committers thread).stage.signalled := by
    rw [flagged]
    trivial
  by_cases blocked : loop.position = .blocked
  · simp only [if_pos blocked]
    have notRelay : ¬ loop.wakeMu = some .relay := by simp [held]
    have idle : loop.Idle := by
      rw [RelayLoop.Idle, blocked]
      trivial
    exact attentive.advance (fun _ => id) (fun _ => .inr)
      (fun _ => heard_setCommitter _ (attentive.heard idle) (fun _ => signals) (fun _ => id))
      (iff_of_false notRelay id) (iff_of_true held trivial)
      (fun other _ => attentive.committerLock other) nofun nofun
  · simp only [if_neg blocked]
    exact attentive.advance (fun _ => id) (fun _ => .inr)
      (fun idle => heard_setCommitter _ (attentive.heard idle) (fun _ => signals) (fun _ => id))
      attentive.relayLock (iff_of_true held trivial) (fun other _ => attentive.committerLock other)
      attentive.unflagged (fun here => absurd here blocked)

theorem Attentive.release (attentive : Attentive loop) (notified : (loop.committers thread).stage = .notified) :
    Attentive { loop.setCommitter thread {} with
      wakeMu := none, woken := (loop.committers thread).rows ++ loop.woken } := by
  have held : loop.wakeMu = some (.committer thread) :=
    (attentive.committerLock thread).mpr (by rw [notified]; trivial)
  have signals : (loop.committers thread).stage.signalled := by
    rw [notified]
    trivial
  refine attentive.advance (fun _ => nofun) (fun _ => List.mem_append.mp) ?_
    (iff_of_false nofun (attentive.relayOut (by simp [held]))) (iff_of_false nofun id) ?_
    attentive.unflagged (fun here flag => flagged_other (attentive.flagged here flag) (by simp [notified]))
  · intro idle
    rcases attentive.heard idle with flag | unseen
    · exact .inl flag
    · rcases @heard_setCommitter _ _ loop _ thread {} (.inr unseen) False.elim nofun with flag | later
      · exact .inl flag
      · -- the rows of this call were signalled before it returned
        refine .inr fun row member never => ⟨fun listed => ?_, (later row member never).2⟩
        rcases List.mem_append.mp listed with own | older
        · exact (unseen row member never).2 thread signals own
        · exact (unseen row member never).1 older
  · intro other apart
    refine iff_of_false nofun (attentive.threadOut ?_)
    rw [held]
    simpa using apart.symm

theorem Attentive.wake (attentive : Attentive loop) (stepped : wake loop thread = some next) :
    Attentive next := by
  rw [OutboxService.wake] at stepped
  split at stepped
  · rename_i outside
    cases stepped
    exact attentive.call outside
  · rename_i calling
    split at stepped
    · rename_i free
      cases stepped
      exact attentive.acquire calling free
    · cases stepped
  · rename_i locked
    cases stepped
    exact attentive.flag locked
  · rename_i flagged
    cases stepped
    exact attentive.notify flagged
  · rename_i notified
    cases stepped
    exact attentive.release notified

/-! ## The table -/

/-- The new row is in nobody's hands but those of the thread that commits it. -/
private theorem heard_commit {row : Row Payload} (attentive : Attentive loop) (heard : loop.Heard)
    (listed : ∀ held, held ∈ table.outbox → held = row ∨ held ∈ loop.table.outbox)
    (unknown : ¬ ∃ entry ∈ entries loop.table.outbox, entry.id = row.id) :
    RelayLoop.Heard { loop.setCommitter thread { rows := row.id :: (loop.committers thread).rows } with table } := by
  rcases heard with flag | unseen
  · exact .inl flag
  · refine .inr fun held member never => ?_
    rcases listed held member with rfl | older
    · refine ⟨fun woken => unknown (attentive.wokenStored _ woken), ?_⟩
      exact (Function.forall_update_iff loop.committers fun _ committer =>
        committer.stage.signalled → held.id ∉ committer.rows).mpr
        ⟨False.elim, fun other _ _ own => unknown (attentive.rowsStored other _ own)⟩
    · refine ⟨(unseen held older never).1, ?_⟩
      exact (Function.forall_update_iff loop.committers fun _ committer =>
        committer.stage.signalled → held.id ∉ committer.rows).mpr
        ⟨False.elim, fun other _ => (unseen held older never).2 other⟩

theorem Attentive.commit {row : Row Payload} (attentive : Attentive loop)
    (outside : (loop.committers thread).stage = .outside)
    (committed : step batchSize loop.table (.commit row) = some table) :
    Attentive { loop.setCommitter thread { rows := row.id :: (loop.committers thread).rows } with table } := by
  obtain ⟨_, fresh, table_eq⟩ := commit_eq_some committed
  have inserted := List.perm_orderedInsert (fun row other : Row Payload => row.id ≤ other.id) row loop.table.outbox
  have listed (held : Row Payload) : held ∈ table.outbox ↔ held = row ∨ held ∈ loop.table.outbox := by
    rw [table_eq]
    exact inserted.mem_iff.trans List.mem_cons
  have stored {id : Nat} (known : ∃ entry ∈ entries loop.table.outbox, entry.id = id) :
      ∃ entry ∈ entries table.outbox, entry.id = id := by
    obtain ⟨entry, member, named⟩ := known
    obtain ⟨held, there, rfl⟩ := mem_entries.mp member
    exact ⟨_, mem_entries.mpr ⟨held, (listed held).mpr (.inr there), rfl⟩, named⟩
  have unknown : ¬ ∃ entry ∈ entries loop.table.outbox, entry.id = row.id := by
    intro known
    obtain ⟨entry, member, named⟩ := known
    obtain ⟨held, there, rfl⟩ := mem_entries.mp member
    exact fresh held there named
  have lock := attentive.committerLock thread
  rw [outside] at lock
  exact {
    ledger := attentive.ledger.commit committed
    wokenStored := fun id woken => stored (attentive.wokenStored id woken)
    rowsStored := by
      refine (Function.forall_update_iff loop.committers fun _ committer => ∀ id ∈ committer.rows,
        ∃ entry ∈ entries table.outbox, entry.id = id).mpr ⟨fun id own => ?_, fun other _ id own => ?_⟩
      · rcases List.mem_cons.mp own with rfl | older
        · exact ⟨_, mem_entries.mpr ⟨row, (listed row).mpr (.inl rfl), rfl⟩, rfl⟩
        · exact stored (attentive.rowsStored thread id older)
      · exact stored (attentive.rowsStored other id own)
    heard := by
      intro idle
      refine heard_commit attentive (attentive.heard ?_) (fun held => (listed held).mp) unknown
      rw [RelayLoop.Idle] at idle ⊢
      rwa [table_eq] at idle
    relayLock := attentive.relayLock
    committerLock :=
      (Function.forall_update_iff loop.committers fun other committer =>
        loop.wakeMu = some (.committer other) ↔ committer.stage.holds).mpr
        ⟨lock, fun other _ => attentive.committerLock other⟩
    unflagged := attentive.unflagged
    flagged := fun here flag => flagged_other (attentive.flagged here flag) (by simp [outside]) }

omit [DecidableEq T] in
theorem Attentive.claim {claims : Nat} {claimed : List Nat} (attentive : Attentive loop)
    (draining : loop.position = .draining claims) (ledger : Ledger table claimed)
    (same : entries table.outbox = entries loop.table.outbox) :
    Attentive { loop with table, position := .draining (claims + 1), claimed } := by
  have relayLock := attentive.relayLock
  rw [draining] at relayLock
  exact {
    ledger
    wokenStored := by
      rw [same]
      exact attentive.wokenStored
    rowsStored := by
      rw [same]
      exact attentive.rowsStored
    heard := fun idle => absurd idle.1 (Nat.succ_ne_zero claims)
    relayLock
    committerLock := attentive.committerLock
    unflagged := nofun
    flagged := nofun }

omit [DecidableEq T] in
/-- The relay is outside the lock, and goes on to the table. -/
theorem Attentive.goto {position : Position} {running : Bool} (attentive : Attentive loop)
    (outside : ¬ loop.position.holds) (free : ¬ position.holds) (awake : position ≠ .blocked)
    (ledger : Ledger table loop.claimed) (same : entries table.outbox = entries loop.table.outbox)
    (seen : RelayLoop.Idle { loop with table, position } → ∀ row ∈ loop.table.outbox, row.id ∈ loop.claimed) :
    Attentive { loop with table, running, position } where
  ledger := ledger
  wokenStored := by
    rw [same]
    exact attentive.wokenStored
  rowsStored := by
    rw [same]
    exact attentive.rowsStored
  heard := fun idle =>
    RelayLoop.Heard.retable (.inr fun row member never => absurd (seen idle row member) never) same
  relayLock := attentive.relayLock.trans (iff_of_false outside free)
  committerLock := attentive.committerLock
  unflagged := by
    intro parking
    have here : position = .parking := parking
    rw [here] at free
    exact absurd trivial free
  flagged := fun here => absurd here awake

omit [DecidableEq T] in
theorem Attentive.drained {claims : Nat} (attentive : Attentive loop) (draining : loop.position = .draining claims)
    (done : (loop.table.relays ()).rows = []) :
    Attentive { loop with position := if claims = 0 then .locking else .top } := by
  have outside : ¬ loop.position.holds := by
    rw [draining]
    exact id
  by_cases nothing : claims = 0
  · rw [if_pos nothing]
    refine attentive.move outside id nofun fun _ => attentive.heard ?_
    rw [RelayLoop.Idle, draining]
    exact ⟨nothing, done⟩
  · rw [if_neg nothing]
    exact attentive.move outside id nofun False.elim

omit [DecidableEq T] in
theorem Attentive.test {timedOut : Bool} (attentive : Attentive loop) (testing : loop.position = .testing timedOut) :
    Attentive { loop with
      position := if loop.wakeFlag ∨ ¬ loop.running ∨ timedOut then .clearing else .parking } := by
  have holds : loop.position.holds := by
    rw [testing]
    trivial
  have idle : loop.Idle := by
    rw [RelayLoop.Idle, testing]
    trivial
  have relayLock {position : Position} (goes : position.holds) : loop.wakeMu = some .relay ↔ position.holds :=
    attentive.relayLock.trans (iff_of_true holds goes)
  split
  · exact attentive.relayStep False.elim (relayLock trivial) attentive.committerLock nofun nofun
  · rename_i waits
    have unset : loop.wakeFlag = false := Bool.eq_false_iff.mpr fun flag => waits (.inl flag)
    exact attentive.relayStep (fun _ => attentive.heard idle) (relayLock trivial) attentive.committerLock
      (fun _ => unset) nofun

omit [DecidableEq T] in
/-- Nobody has set the flag since the predicate was false. -/
theorem Attentive.park (attentive : Attentive loop) (parking : loop.position = .parking) :
    Attentive { loop with position := .blocked, wakeMu := none } :=
  attentive.unlock (by rw [parking]; trivial) id
    (fun _ => attentive.heard (by rw [RelayLoop.Idle, parking]; trivial))
    (fun _ => attentive.unflagged parking)

omit [DecidableEq T] in
theorem Attentive.rouse {timedOut : Bool} (attentive : Attentive loop) (blocked : loop.position = .blocked) :
    Attentive { loop with position := .roused timedOut } := by
  refine attentive.move ?_ id nofun fun _ => attentive.heard (by rw [RelayLoop.Idle, blocked]; trivial)
  rw [blocked]
  exact id

omit [DecidableEq T] in
/-- A crash leaves the table, and nobody in the process. -/
theorem Attentive.crash (attentive : Attentive loop)
    (crashed : step batchSize loop.table (.crash ()) = some table) :
    Attentive ({ table, claimed := loop.claimed, woken := loop.woken } : RelayLoop T Payload) := by
  have custody := attentive.ledger.custody.single crashed
  cases crashed
  exact {
    ledger := ⟨custody, attentive.ledger.unclaimed, List.nodup_nil, nofun⟩
    wokenStored := attentive.wokenStored
    rowsStored := fun _ => nofun
    heard := False.elim
    relayLock := iff_of_false nofun id
    committerLock := fun _ => iff_of_false nofun id
    unflagged := nofun
    flagged := nofun }

/-! ## Runs -/

theorem Attentive.preserved {event : LoopEvent T Payload} (attentive : Attentive loop) (positive : 0 < batchSize)
    (stepped : loopStep batchSize loop event = some next) : Attentive next := by
  cases event with
  | tick elapsed =>
      rw [loopStep] at stepped
      obtain ⟨table, ticked, rfl⟩ := Option.map_eq_some_iff.mp stepped
      have custody := attentive.ledger.custody.single ticked
      cases ticked
      exact attentive.retable { attentive.ledger with custody } rfl rfl
  | callback context ok executed =>
      rw [loopStep] at stepped
      obtain ⟨table, reported, rfl⟩ := Option.map_eq_some_iff.mp stepped
      obtain ⟨ledger, same, sameRows⟩ := attentive.ledger.callback reported
      exact attentive.retable ledger same sameRows
  | start executed =>
      rw [loopStep] at stepped
      split at stepped
      · cases stepped
      · rename_i down
        rw [not_or, not_not] at down
        obtain ⟨table, started, rfl⟩ := Option.map_eq_some_iff.mp stepped
        obtain ⟨ledger, same⟩ := attentive.ledger.start started
        exact attentive.goto (by rw [down.2]; exact id) id nofun ledger same False.elim
  | stop =>
      rw [loopStep] at stepped
      split at stepped
      · cases stepped
        exact { attentive with }
      · cases stepped
  | crash =>
      rw [loopStep] at stepped
      obtain ⟨table, crashed, rfl⟩ := Option.map_eq_some_iff.mp stepped
      exact attentive.crash crashed
  | commit thread row =>
      rw [loopStep] at stepped
      split at stepped
      · rename_i outside
        obtain ⟨table, committed, rfl⟩ := Option.map_eq_some_iff.mp stepped
        exact attentive.commit outside committed
      · cases stepped
  | wake thread => exact attentive.wake stepped
  | select =>
      rw [loopStep] at stepped
      split at stepped
      · rename_i top
        have outside : ¬ loop.position.holds := by
          rw [top]
          exact id
        split at stepped
        · obtain ⟨table, selected, rfl⟩ := Option.map_eq_some_iff.mp stepped
          obtain ⟨ledger, same, seen⟩ := attentive.ledger.select positive selected
          exact attentive.goto outside id nofun ledger same fun idle => seen idle.2
        · cases stepped
          exact attentive.move outside id nofun False.elim
      · cases stepped
  | claim =>
      rw [loopStep] at stepped
      split at stepped
      · rename_i claims entry rest draining rows
        obtain ⟨table, claimed, moved⟩ := Option.map_eq_some_iff.mp stepped
        obtain ⟨claimable, ledger, same⟩ := attentive.ledger.claim rows claimed
        rw [if_pos claimable] at moved
        cases moved
        exact attentive.claim draining ledger same
      · cases stepped
  | produce queued executed =>
      rw [loopStep] at stepped
      split at stepped
      · obtain ⟨table, produced, rfl⟩ := Option.map_eq_some_iff.mp stepped
        obtain ⟨ledger, same, sameRows⟩ := attentive.ledger.produce produced
        exact attentive.retable ledger same sameRows
      · cases stepped
  | drained =>
      rw [loopStep] at stepped
      split at stepped
      · rename_i claims draining
        split at stepped
        · rename_i done
          cases stepped
          exact attentive.drained draining done.1
        · cases stepped
      · cases stepped
  | lock =>
      rw [loopStep] at stepped
      split at stepped
      · rename_i locking
        split at stepped
        · rename_i free
          cases stepped
          exact attentive.relock (by rw [RelayLoop.Idle, locking]; trivial) free
        · cases stepped
      · rename_i timedOut roused
        split at stepped
        · rename_i free
          cases stepped
          exact attentive.relock (by rw [RelayLoop.Idle, roused]; trivial) free
        · cases stepped
      · cases stepped
  | test =>
      rw [loopStep] at stepped
      split at stepped
      · rename_i timedOut testing
        cases stepped
        exact attentive.test testing
      · cases stepped
  | park =>
      rw [loopStep] at stepped
      split at stepped
      · rename_i parking
        cases stepped
        exact attentive.park parking
      · cases stepped
  | rouse timedOut =>
      rw [loopStep] at stepped
      split at stepped
      · rename_i blocked
        cases stepped
        exact attentive.rouse blocked
      · cases stepped
  | clear =>
      rw [loopStep] at stepped
      split at stepped
      · rename_i clearing
        cases stepped
        exact attentive.unlock (by rw [clearing]; trivial) id False.elim nofun
      · cases stepped

end Loop

variable [DecidableEq T]

theorem attentive_always (positive : 0 < batchSize) (events : List (LoopEvent T Payload)) :
    (loopMachine T Payload batchSize).Always Attentive {} events :=
  Machine.always_of_step Attentive attentive_init
    (fun _ _ _ attentive stepped => attentive.preserved positive stepped)

/-- The relay is never blocked without the flag while a row that it was woken
for was never claimed. -/
theorem never_sleeps_through (positive : 0 < batchSize) (events : List (LoopEvent T Payload)) :
    (loopMachine T Payload batchSize).Always (fun loop => ¬ SleepsThrough loop) {} events := by
  refine (attentive_always positive events).mono fun loop attentive sleeps => ?_
  obtain ⟨blocked, unset, row, member, never, woken⟩ := sleeps
  rcases attentive.heard (by rw [RelayLoop.Idle, blocked]; trivial) with flag | unseen
  · rw [unset] at flag
    cases flag
  · exact (unseen row member never).1 woken

/-- The row is committed and the thread wakes after an empty SELECT, before the
relay waits. -/
private def wakeBeforeWait : List (LoopEvent Unit String) :=
  [.start true, .select, .drained,
    .commit () { id := 1, topic := "im.messages", msgKey := "1:2", payload := "hello", createdAt := 0 },
    .wake (), .wake (), .wake (), .wake (), .wake (), .lock, .test]

theorem wakeBeforeWait_clears : ∃ loop,
    (loopMachine Unit String 100).run {} wakeBeforeWait = some loop ∧ loop.position = .clearing ∧
      loop.woken = [1] ∧ ¬ SleepsThrough loop :=
  ⟨_, rfl, rfl, rfl, (never_sleeps_through (show 0 < 100 by decide) wakeBeforeWait).atEnd rfl⟩

end MuduoIm.Server.OutboxService
