import MuduoIm.Server.FriendService.Handling

namespace MuduoIm.Server.FriendService.Handling

open MuduoIm.Transition

/-! # How often a request is decided

The SELECT asks for a pending request, the UPDATEs and the COMMIT do not ask
again.  Between them another call can decide.
-/

variable {Id : Type} [DecidableEq Id]

/-- The call has returned success. -/
def State.Succeeded (state : State Id) (id : Id) : Prop :=
  ∃ call reply, state.calls id = some call ∧ call.phase = .returned reply ∧ reply.success = true

/-- The status leaves 0 once at most, and exactly once when a call has returned
success; one call at most does; and a rejected request has made no friends. -/
structure DecidedOnce (requestId : Int) (start : Tables) (state : State Id) : Prop where
  changes : state.changes.length ≤ 1
  decided : ∀ id, state.Succeeded id → state.changes.length = 1
  success : ∀ first second, state.Succeeded first → state.Succeeded second → first = second
  rejected : requestStatus requestId state.tables = some .rejected → state.tables.friends = start.friends

/-- A COMMIT that takes effect finds the request pending, or accepted by a call
that could not report it; an UPDATE to rejected does not find it accepted. -/
def Undecided (requestId : Int) (state : State Id) : Event Id → Prop
  | .commit id answer => ∀ call request, state.calls id = some call →
      call.phase = .transaction request (acceptStatements requestId request).length false → answer ≠ .refused →
        requestStatus requestId state.tables = some .pending ∨
          (requestStatus requestId state.tables = some .accepted ∧
            (answer = .lost ∨ ∀ other, ¬state.Succeeded other))
  | .update _ executed => executed = true → requestStatus requestId state.tables ≠ some .accepted
  | _ => True

/-! ## The row of the request -/

/-- The request is stored, under its key, with this status. -/
def Stored (request : FriendRequest) (status : RequestStatus) (tables : Tables) : Prop :=
  tables.friendRequests.filter (fun row => row.id = request.id) = [{ request with status }]

variable {request : FriendRequest} {status other : RequestStatus} {tables start : Tables} {requestId : Int}

theorem Stored.requestStatus (stored : Stored request status tables) :
    requestStatus request.id tables = some status := by
  rw [Handling.requestStatus, ← List.head?_filter, stored]
  rfl

theorem Stored.set (stored : Stored request status tables) (other : RequestStatus) :
    Stored request other (tables.setRequestStatus request.id other) := by
  have same (row : FriendRequest) :
      (if row.id = request.id then { row with status := other } else row).id = row.id := by
    split <;> rfl
  unfold Stored at stored ⊢
  rw [Tables.setRequestStatus, List.filter_map]
  simp only [Function.comp_def, same, stored, List.map_cons, List.map_nil, if_true]

theorem Stored.affected (stored : Stored request status tables) :
    0 < affectedRows request.id other tables ↔ status ≠ other := by
  have counted : affectedRows request.id other tables =
      (tables.friendRequests.filter (fun row => row.id = request.id)).countP fun row => row.status ≠ other := by
    rw [List.countP_filter, affectedRows]
    exact List.countP_congr fun row _ => by simp [and_comm]
  rw [counted, stored, List.countP_pos_iff]
  simp

theorem Stored.accept (stored : Stored request status tables) (ends : FriendRequest) :
    Stored request .accepted
      ((acceptStatements request.id ends).foldl (fun tables statement => statement tables) tables) := by
  have set := stored.set .accepted
  unfold Stored at set ⊢
  simpa only [acceptStatements, List.foldl_cons, List.foldl_nil, Tables.insertIgnoreFriend_friendRequests] using set

/-! ## What a step does -/

variable {state next : State Id} {event : Event Id} {id : Id} {call : Call} {phase : Phase} {reply : Reply}

theorem succeeded_enter_of_ne {another : Id} (different : another ≠ id) :
    (state.enter id call).Succeeded another ↔ state.Succeeded another := by
  simp only [State.Succeeded, State.enter, Function.update_of_ne different]

theorem succeeded_enter_self :
    (state.enter id call).Succeeded id ↔ ∃ reply, call.phase = .returned reply ∧ reply.success = true := by
  simp only [State.Succeeded, State.enter, Function.update_self, Option.some.injEq]
  constructor
  · rintro ⟨_, reply, rfl, returned, success⟩
    exact ⟨reply, returned, success⟩
  · rintro ⟨reply, returned, success⟩
    exact ⟨call, reply, rfl, returned, success⟩

@[simp] theorem unlock_tables : (state.unlock id).tables = state.tables := by
  unfold State.unlock
  split <;> rfl

@[simp] theorem unlock_changes : (state.unlock id).changes = state.changes := by
  unfold State.unlock
  split <;> rfl

@[simp] theorem unlock_calls : (state.unlock id).calls = state.calls := by
  unfold State.unlock
  split <;> rfl

/-- Nothing is committed, and no call returns success. -/
structure Quiet (state next : State Id) : Prop where
  tables : next.tables = state.tables
  changes : next.changes = state.changes
  success : ∀ id, next.Succeeded id → state.Succeeded id

/-- The tables are written, and the call returns this reply. -/
structure Writes (requestId : Int) (state : State Id) (id : Id) (reply : Reply) (written : Tables)
    (next : State Id) : Prop where
  tables : next.tables = written
  changes : next.changes = (state.write requestId written).changes
  unreturned : ¬state.Succeeded id
  success : ∀ other, next.Succeeded other ↔ (other = id ∧ reply.success = true) ∨ (other ≠ id ∧ state.Succeeded other)

theorem quiet_goto (silent : ∀ reply, phase = .returned reply → reply.success = false) :
    Quiet state (state.goto id call phase) where
  tables := rfl
  changes := rfl
  success := by
    intro another succeeded
    by_cases same : another = id
    · subst same
      obtain ⟨reply, returned, success⟩ := succeeded_enter_self.mp succeeded
      rw [silent reply returned] at success
      cases success
    · exact (succeeded_enter_of_ne same).mp succeeded

theorem quiet_enter (silent : ∀ reply, call.phase ≠ .returned reply) : Quiet state (state.enter id call) := by
  have goto : state.enter id call = state.goto id call call.phase := rfl
  rw [goto]
  exact quiet_goto fun reply returned => absurd returned (silent reply)

@[simp] theorem succeeded_unlock {another : Id} : (state.unlock id).Succeeded another ↔ state.Succeeded another := by
  simp only [State.Succeeded, unlock_calls]

theorem Quiet.of_unlock (quiet : Quiet (state.unlock id) next) : Quiet state next where
  tables := quiet.tables.trans unlock_tables
  changes := quiet.changes.trans unlock_changes
  success := fun another succeeded => succeeded_unlock.mp (quiet.success another succeeded)

omit [DecidableEq Id] in
theorem not_succeeded (found : state.calls id = some call) (underway : ∀ reply, call.phase ≠ .returned reply) :
    ¬state.Succeeded id := by
  rintro ⟨other, reply, found', returned, _⟩
  rw [found] at found'
  cases found'
  exact underway reply returned

theorem writes_goto (unreturned : ¬state.Succeeded id) (tables : Tables) :
    Writes requestId state id reply tables ((state.goto id call (.returned reply)).write requestId tables) where
  tables := rfl
  changes := rfl
  unreturned := unreturned
  success := by
    intro another
    by_cases same : another = id
    · subst same
      have self : (state.enter another { call with phase := .returned reply }).Succeeded another ↔ _ :=
        succeeded_enter_self
      simpa [State.Succeeded, State.write, State.goto] using self
    · have others : (state.enter id { call with phase := .returned reply }).Succeeded another ↔ _ :=
        succeeded_enter_of_ne same
      simpa [same, State.Succeeded, State.write, State.goto] using others

theorem Writes.of_unlock {written : Tables} (writes : Writes requestId (state.unlock id) id reply written next) :
    Writes requestId state id reply written next where
  tables := writes.tables
  changes := by simpa only [State.write, unlock_changes, unlock_tables] using writes.changes
  unreturned := by simpa only [succeeded_unlock] using writes.unreturned
  success := by simpa only [succeeded_unlock] using writes.success

theorem select_quiet {answered : Bool} : Quiet state (Handling.select requestId state id call answered) := by
  unfold Handling.select
  split
  · exact quiet_goto fun reply returned => by cases returned; rfl
  · refine quiet_goto fun reply returned => ?_
    split at returned <;> cases returned

theorem execute_quiet {sent : Nat} {failed executed : Bool}
    (stepped : Handling.execute state id call request sent failed executed = some next) : Quiet state next := by
  have quiet : Quiet state (state.goto id call (.transaction request (sent + 1) (failed || !executed))) :=
    quiet_goto nofun
  unfold Handling.execute at stepped
  dsimp only at stepped
  split at stepped
  · split at stepped <;> cases stepped
    exact ⟨quiet.tables, quiet.changes, quiet.success⟩
  · cases stepped
    exact quiet

theorem refused_quiet : Quiet state ((state.unlock id).goto id call (.returned (failure "operation failed"))) :=
  (quiet_goto fun reply returned => by cases returned; rfl).of_unlock

/-- A COMMIT that the server carries out, answered or not. -/
theorem commit_writes {answer : CommitAnswer} (found : state.calls id = some call)
    (underway : ∀ reply, call.phase ≠ .returned reply) (taken : answer ≠ .refused) :
    ∃ reply : Reply, (reply.success = true ↔ answer ≠ .lost) ∧ Writes requestId state id reply
      ((acceptStatements requestId request).foldl (fun tables statement => statement tables) state.tables)
      (Handling.commit requestId state id call request false answer) := by
  have unreturned : ¬(state.unlock id).Succeeded id := by
    rw [succeeded_unlock]
    exact not_succeeded found underway
  cases answer with
  | committed => exact ⟨_, iff_of_true rfl nofun, (writes_goto unreturned _).of_unlock⟩
  | lost => exact ⟨_, iff_of_false Bool.false_ne_true (absurd rfl), (writes_goto unreturned _).of_unlock⟩
  | refused => exact absurd rfl taken

theorem update_writes (found : state.calls id = some call) (underway : ∀ reply, call.phase ≠ .returned reply)
    (stepped : Handling.update requestId state id call true = some next) :
    ∃ reply : Reply, (reply.success = true ↔ 0 < affectedRows requestId .rejected state.tables) ∧
      Writes requestId state id reply (state.tables.setRequestStatus requestId .rejected) next := by
  simp only [Handling.update, if_true] at stepped
  split at stepped <;> cases stepped
  refine ⟨_, ?_, writes_goto (not_succeeded found underway) _⟩
  split
  · exact iff_of_true rfl ‹_›
  · exact iff_of_false Bool.false_ne_true ‹_›

/-- Every step is quiet, or a COMMIT or an UPDATE that takes effect. -/
theorem step_cases (stepped : step requestId state event = some next) :
    (Quiet state next ∧ Undecided requestId state event) ∨
      (∃ id answer call request reply, event = .commit id answer ∧ state.calls id = some call ∧
        call.phase = .transaction request (acceptStatements requestId request).length false ∧ answer ≠ .refused ∧
        (reply.success = true ↔ answer ≠ .lost) ∧
        Writes requestId state id reply
          ((acceptStatements requestId request).foldl (fun tables statement => statement tables) state.tables) next) ∨
      ∃ id reply, event = .update id true ∧
        (reply.success = true ↔ 0 < affectedRows requestId .rejected state.tables) ∧
        Writes requestId state id reply (state.tables.setRequestStatus requestId .rejected) next := by
  cases event with
  | call id userId accept =>
      simp only [step] at stepped
      split at stepped <;> cases stepped
      exact .inl ⟨quiet_enter (fun reply returned => by cases returned), trivial⟩
  | acquire id connected =>
      obtain ⟨call, found, stepped⟩ := Option.bind_eq_some_iff.mp stepped
      split at stepped <;> cases stepped
      refine .inl ⟨quiet_goto fun reply returned => ?_, trivial⟩
      split at returned <;> cases returned
      rfl
  | select id answered =>
      obtain ⟨call, found, stepped⟩ := Option.bind_eq_some_iff.mp stepped
      split at stepped <;> cases stepped
      exact .inl ⟨select_quiet, trivial⟩
  | begin id active =>
      obtain ⟨call, found, stepped⟩ := Option.bind_eq_some_iff.mp stepped
      split at stepped <;> cases stepped
      refine .inl ⟨quiet_goto fun reply returned => ?_, trivial⟩
      split at returned <;> cases returned
      rfl
  | execute id executed =>
      obtain ⟨call, found, stepped⟩ := Option.bind_eq_some_iff.mp stepped
      split at stepped
      · split at stepped
        · exact .inl ⟨execute_quiet stepped, trivial⟩
        · cases stepped
      · cases stepped
  | commit id answer =>
      obtain ⟨call, found, stepped⟩ := Option.bind_eq_some_iff.mp stepped
      split at stepped
      · rename_i request sent failed phase
        split at stepped <;> cases stepped
        rename_i complete
        subst complete
        cases failed with
        | true =>
            refine .inl ⟨refused_quiet, fun other another found' phase' => ?_⟩
            rw [found] at found'
            cases found'
            rw [phase] at phase'
            cases phase'
        | false =>
            by_cases refused : answer = .refused
            · subst refused
              exact .inl ⟨refused_quiet, fun _ _ _ _ taken => absurd rfl taken⟩
            · obtain ⟨reply, succeeds, writes⟩ := commit_writes found
                (fun reply returned => by rw [phase] at returned; cases returned) refused
              exact .inr (.inl ⟨id, answer, call, request, reply, rfl, found, phase, refused, succeeds, writes⟩)
      · cases stepped
  | update id executed =>
      obtain ⟨call, found, stepped⟩ := Option.bind_eq_some_iff.mp stepped
      split at stepped
      · rename_i phase
        cases executed with
        | false =>
            cases stepped
            exact .inl ⟨quiet_goto fun reply returned => by cases returned; rfl, fun executed => by cases executed⟩
        | true =>
            obtain ⟨reply, succeeds, writes⟩ := update_writes found
              (fun reply returned => by rw [phase] at returned; cases returned) stepped
            exact .inr (.inr ⟨id, reply, rfl, succeeds, writes⟩)
      · cases stepped

/-! ## All interleavings -/

/-- While the request is pending nothing has been decided. -/
structure Tracked (request : FriendRequest) (start : Tables) (status : RequestStatus) (state : State Id) :
    Prop where
  stored : Stored request status state.tables
  pending : status = .pending → state.changes = [] ∧ state.tables.friends = start.friends ∧ ∀ id, ¬state.Succeeded id
  decided : status ≠ .pending → state.changes ≠ []

omit [DecidableEq Id] in
theorem Writes.changes_eq {written : Tables} (writes : Writes request.id state id reply written next)
    (stored : Stored request status state.tables) (after : Stored request other written) :
    next.changes = state.changes ++ if other = status then [] else [other] := by
  rw [writes.changes, State.write, stored.requestStatus, after.requestStatus]
  simp

omit [DecidableEq Id] in
theorem Tracked.writes {written : Tables} (tracked : Tracked request start status state)
    (writes : Writes request.id state id reply written next) (after : Stored request other written)
    (decides : other ≠ .pending) : Tracked request start other next where
  stored := by
    rw [writes.tables]
    exact after
  pending := fun same => absurd same decides
  decided := by
    intro _ unchanged
    rw [writes.changes_eq tracked.stored after] at unchanged
    obtain ⟨none, same⟩ := List.append_eq_nil_iff.mp unchanged
    split at same
    · rename_i again
      exact tracked.decided (again ▸ decides) none
    · cases same

omit [DecidableEq Id] in
/-- A write is the first decision, or repeats it without a second success. -/
theorem decidedOnce_writes_iff {written : Tables} (tracked : Tracked request start status state)
    (once : DecidedOnce request.id start state) (writes : Writes request.id state id reply written next)
    (after : Stored request other written) (decides : other ≠ .pending)
    (friends : other = .rejected → written.friends = state.tables.friends) :
    DecidedOnce request.id start next ↔
      status = .pending ∨ (status = other ∧ (reply.success = false ∨ ∀ another, ¬state.Succeeded another)) := by
  have changes := writes.changes_eq tracked.stored after
  constructor
  · intro later
    refine or_iff_not_imp_left.mpr fun already => ?_
    have some := List.length_pos_iff.mpr (tracked.decided already)
    have same : other = status := by
      by_contra different
      have short := later.changes
      rw [changes, if_neg different, List.length_append, List.length_singleton] at short
      omega
    refine ⟨same.symm, or_iff_not_imp_left.mpr fun succeeds another succeeded => ?_⟩
    have different : another ≠ id := fun same => writes.unreturned (same ▸ succeeded)
    refine different (later.success another id ?_ ?_)
    · exact (writes.success another).mpr (.inr ⟨different, succeeded⟩)
    · exact (writes.success id).mpr (.inl ⟨rfl, by simpa using succeeds⟩)
  · rintro (rfl | ⟨rfl, quiet⟩)
    · obtain ⟨none, same, unsuccessful⟩ := tracked.pending rfl
      rw [none, if_neg decides, List.nil_append] at changes
      have only (another : Id) (succeeded : next.Succeeded another) : another = id := by
        rcases (writes.success another).mp succeeded with ⟨self, _⟩ | ⟨_, earlier⟩
        · exact self
        · exact absurd earlier (unsuccessful another)
      refine ⟨Nat.le_of_eq (congrArg List.length changes), fun _ _ => congrArg List.length changes,
        fun first second firstly secondly => ?_, ?_⟩
      · exact (only first firstly).trans (only second secondly).symm
      · intro rejected
        rw [writes.tables, after.requestStatus, Option.some.injEq] at rejected
        rw [writes.tables, friends rejected, same]
    · rw [if_pos rfl, List.append_nil] at changes
      have nonempty := List.length_pos_iff.mpr (tracked.decided decides)
      have short := once.changes
      refine ⟨by rw [changes]; exact short, fun _ _ => by rw [changes]; omega, ?_, ?_⟩
      · intro first second firstly secondly
        rcases (writes.success first).mp firstly with ⟨rfl, succeeds⟩ | ⟨_, firstEarlier⟩ <;>
          rcases (writes.success second).mp secondly with ⟨rfl, succeeds'⟩ | ⟨_, secondEarlier⟩
        · rfl
        · rcases quiet with fails | unsuccessful
          · rw [fails] at succeeds
            cases succeeds
          · exact absurd secondEarlier (unsuccessful second)
        · rcases quiet with fails | unsuccessful
          · rw [fails] at succeeds'
            cases succeeds'
          · exact absurd firstEarlier (unsuccessful first)
        · exact once.success first second firstEarlier secondEarlier
      · intro rejected
        rw [writes.tables, after.requestStatus, Option.some.injEq] at rejected
        rw [writes.tables, friends rejected]
        exact once.rejected (by rw [tracked.stored.requestStatus, rejected])

theorem step_iff (tracked : Tracked request start status state) (once : DecidedOnce request.id start state)
    (stepped : step request.id state event = some next) :
    (DecidedOnce request.id start next ↔ Undecided request.id state event) ∧
      ∃ status, Tracked request start status next := by
  rcases step_cases stepped with ⟨quiet, undecided⟩ | ⟨id, answer, call, ends, reply, rfl, found, phase, taken,
    reported, writes⟩ | ⟨id, reply, rfl, reported, writes⟩
  · refine ⟨iff_of_true ⟨?_, ?_, ?_, ?_⟩ undecided, status, ?_, ?_, ?_⟩
    · rw [quiet.changes]
      exact once.changes
    · rw [quiet.changes]
      exact fun id succeeded => once.decided id (quiet.success id succeeded)
    · exact fun first second firstly secondly =>
        once.success first second (quiet.success first firstly) (quiet.success second secondly)
    · rw [quiet.tables]
      exact once.rejected
    · rw [quiet.tables]
      exact tracked.stored
    · rw [quiet.changes, quiet.tables]
      intro pending
      obtain ⟨none, same, unsuccessful⟩ := tracked.pending pending
      exact ⟨none, same, fun id succeeded => unsuccessful id (quiet.success id succeeded)⟩
    · rw [quiet.changes]
      exact tracked.decided
  · have after := tracked.stored.accept ends
    refine ⟨?_, .accepted, tracked.writes writes after nofun⟩
    have lost : reply.success = false ↔ answer = .lost := by
      rw [← Bool.not_eq_true, reported, not_not]
    rw [decidedOnce_writes_iff tracked once writes after nofun nofun, lost]
    constructor
    · intro allowed other _ found' _ _
      simpa only [tracked.stored.requestStatus, Option.some.injEq] using allowed
    · intro undecided
      simpa only [tracked.stored.requestStatus, Option.some.injEq] using undecided call ends found phase taken
  · have after := tracked.stored.set .rejected
    refine ⟨?_, .rejected, tracked.writes writes after nofun⟩
    rw [decidedOnce_writes_iff tracked once writes after nofun fun _ => rfl, Undecided, tracked.stored.requestStatus]
    rw [tracked.stored.affected] at reported
    cases status <;> simp_all

/-- However the statements of the calls interleave, the request is decided once
if and only if every write finds it undecided. -/
theorem decided_once_iff (request : FriendRequest) (start : Tables) (stored : Stored request .pending start)
    (events : List (Event Id)) :
    (machine request.id).Always (DecidedOnce request.id start) { tables := start } events ↔
      (machine request.id).Meets (Undecided request.id) { tables := start } events := by
  have none (id : Id) : ¬State.Succeeded { tables := start } id := by
    rintro ⟨_, _, ⟨⟩, _⟩
  refine Machine.always_iff_meets_of_kept (fun state => ∃ status, Tracked request start status state) ?_ ?_ ?_ ?_
  · refine ⟨Nat.zero_le _, fun id succeeded => absurd succeeded (none id), ?_, fun _ => rfl⟩
    exact fun first _ succeeded => absurd succeeded (none first)
  · exact ⟨.pending, stored, fun _ => ⟨rfl, rfl, none⟩, fun decided => absurd rfl decided⟩
  · rintro state event next ⟨status, tracked⟩ once later stepped
    exact (step_iff tracked once stepped).2
  · rintro state event next ⟨status, tracked⟩ once stepped
    exact (step_iff tracked once stepped).1

private def proposal : FriendRequest := { id := 1, fromUser := 7, toUser := 8, status := .pending }

private def twoUsers : Tables :=
  { users := [{ id := 7, password := "" }, { id := 8, password := "" }], friendRequests := [proposal] }

/-- One device accepts. -/
private def acceptance : List (Event Nat) :=
  [.begin 0 true, .execute 0 true, .execute 0 true, .execute 0 true, .commit 0 .committed]

/-- A second device has tapped reject, and sees the request after it is accepted. -/
private def inTurn : List (Event Nat) :=
  [.call 0 8 true, .call 1 8 false, .acquire 0 true, .acquire 1 true, .select 0 true] ++ acceptance ++ [.select 1 true]

theorem decided_once_in_turn :
    (machine 1).Always (DecidedOnce 1 twoUsers) { tables := twoUsers } inTurn ∧
      ∃ state, (machine 1).run { tables := twoUsers } inTurn = some state ∧ state.changes = [.accepted] ∧
        state.Succeeded 0 ∧ (state.calls 1).map Call.phase = some (.returned (failure "request not found")) := by
  refine ⟨(decided_once_iff proposal twoUsers rfl _).mpr ?_, _, rfl, rfl, ⟨_, _, rfl, rfl, rfl⟩, rfl⟩
  refine .cons rfl trivial <| .cons rfl trivial <| .cons rfl trivial <| .cons rfl trivial <| .cons rfl trivial ?_
  refine .cons rfl trivial <| .cons rfl trivial <| .cons rfl trivial <| .cons rfl trivial ?_
  exact .cons rfl (fun _ _ _ _ _ => .inl rfl) <| .cons rfl trivial trivial

/-- Two devices see the request pending; one accepts, the other rejects.  Both
are told of success, and the rejected request has made two friends. -/
theorem accepted_and_rejected :
    ∃ state, (machine 1).run { tables := twoUsers }
        ([.call 0 8 true, .call 1 8 false, .acquire 0 true, .acquire 1 true, .select 0 true, .select 1 true] ++
          acceptance ++ [.update 1 true]) = some state ∧
      state.changes = [.accepted, .rejected] ∧ state.tables.friends = [(8, 7), (7, 8)] ∧
      state.Succeeded 0 ∧ state.Succeeded 1 ∧ ¬DecidedOnce 1 twoUsers state := by
  refine ⟨_, rfl, rfl, rfl, ⟨_, _, rfl, rfl, rfl⟩, ⟨_, _, rfl, rfl, rfl⟩, fun once => ?_⟩
  exact absurd once.changes (by decide)

end MuduoIm.Server.FriendService.Handling
