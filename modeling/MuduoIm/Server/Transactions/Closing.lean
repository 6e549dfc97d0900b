import MuduoIm.Pool.NoLeak
import MuduoIm.Server.Transactions

namespace MuduoIm.Server.Transactions

open MuduoIm.Pool MuduoIm.Transition

/-! # Which requests leak their transaction

A request passes when it never returns between its BEGIN and a successful
COMMIT.  These are exactly the requests that cannot leak a transaction.
-/

/-! ## Requests that pass -/

/-- The row may be edited by this user now. -/
def EditMessage.Editable (call : EditMessage) (row : EditableRow) : Prop :=
  row.fromUser = call.editorId ∧ row.recalled = 0 ∧ call.nowMs - editWindowMs ≤ row.timestamp

def EditMessage.Passes (call : EditMessage) : Prop :=
  (call.msgKind = 0 ∨ call.msgKind = 1) → call.connected → call.active →
    (∃ row, call.row = some row ∧ call.Editable row) ∧
      call.updateValid ∧ call.updated ∧ call.insertValid ∧ call.inserted ∧ call.committed

def AddFriend.Passes (call : AddFriend) : Prop :=
  call.userId ≠ call.friendId → call.connected → call.active →
    call.r1 ≥ 0 ∧ call.r2 ≥ 0 ∧ call.committed

def DeleteFriend.Passes (call : DeleteFriend) : Prop :=
  call.connected → call.active → call.r1 ≥ 0 ∧ call.r2 ≥ 0 ∧ call.committed

def DeleteGroup.Passes (call : DeleteGroup) : Prop :=
  call.ownerId = some call.userId → call.connected → call.active →
    call.r1 ≥ 0 ∧ call.r2 ≥ 0 ∧ call.committed

def DeleteAccount.Passes (call : DeleteAccount) : Prop :=
  call.verified = some true → call.connected → call.active →
    call.r1 ≥ 0 ∧ call.r2 ≥ 0 ∧ call.r3 ≥ 0 ∧ call.r4 ≥ 0 ∧ call.committed

def OutboxBranch.Passes (call : OutboxBranch) : Prop :=
  call.connected → call.active → call.savedRow ∧ call.outboxRow ∧ call.committed

def ForwardAnswers.Passes (answers : ForwardAnswers) : Prop :=
  answers.connected → answers.active → answers.succeeds

def CompensateAnswers.Passes (answers : CompensateAnswers) : Prop :=
  answers.defined → answers.connected → answers.active → answers.ok ∧ answers.committed

/-- The forward loop comes to step `i`. -/
def SagaExecute.Reaches (call : SagaExecute) (i : Nat) : Prop :=
  call.currentStep ≤ i ∧ i < call.steps ∧
    ∀ j, call.currentStep ≤ j → j < i → (call.forwards j).succeeds

/-- Every step that is attempted passes, forward and, once one has failed,
back. -/
def SagaExecute.Passes (call : SagaExecute) : Prop :=
  call.loadConnected → call.found → ∀ i, call.Reaches i →
    (call.forwards i).Passes ∧
      (¬ (call.forwards i).succeeds → ∀ j < i, (call.compensations j).Passes)

def Request.Passes : Request → Prop
  | .editMessage call => call.Passes
  | .addFriend call => call.Passes
  | .deleteFriend call => call.Passes
  | .deleteGroup call => call.Passes
  | .deleteAccount call => call.Passes
  | .outboxBranch call => call.Passes
  | .execute call => call.Passes

/-! ## Early returns -/

variable {answers : Answers} {count : Nat} {ok committed : Bool} {rest : List Action}

@[simp] theorem follows_abandon : Follows .inTransaction abandon := rfl

@[simp] theorem abandons_abandon : Abandons .inTransaction abandon := .inl rfl

@[simp] theorem follows_commitAndRelease : Follows .inTransaction (commitAndRelease committed) := by
  cases committed <;> rfl

@[simp] theorem abandons_commitAndRelease :
    Abandons .inTransaction (commitAndRelease committed) ↔ committed = false := by
  cases committed with
  | false => simp [commitAndRelease, Abandons, Position.next, abandon]
  | true => simp [commitAndRelease, Abandons, Position.next]

@[simp] theorem follows_return {early : Prop} [Decidable early] :
    Follows .inTransaction (if early then abandon else rest) ↔
      early ∨ Follows .inTransaction rest := by
  by_cases early <;> simp_all [Follows, Position.next, abandon]

@[simp] theorem abandons_return {early : Prop} [Decidable early] :
    Abandons .inTransaction (if early then abandon else rest) ↔
      early ∨ Abandons .inTransaction rest := by
  by_cases early <;> simp_all [Abandons, Position.next, abandon]

@[simp] theorem follows_statement :
    Follows .inTransaction (.statement :: rest) ↔ Follows .inTransaction rest := Iff.rfl

@[simp] theorem abandons_statement :
    Abandons .inTransaction (.statement :: rest) ↔ Abandons .inTransaction rest := by
  simp [Abandons, Position.next]

@[simp] theorem follows_statements_inTransaction :
    Follows .inTransaction (List.replicate count .statement ++ rest) ↔ Follows .inTransaction rest :=
  follows_statements rfl count

@[simp] theorem abandons_statements_inTransaction :
    Abandons .inTransaction (List.replicate count .statement ++ rest) ↔
      Abandons .inTransaction rest :=
  abandons_statements rfl (by decide) count

theorem abandons_statements_connected (count : Nat) :
    Abandons .connected (List.replicate count .statement ++ rest) ↔ Abandons .connected rest :=
  abandons_statements rfl (by decide) count

@[simp] theorem follows_begin :
    Follows .connected (.begin :: rest) ↔ Follows .inTransaction rest := Iff.rfl

@[simp] theorem abandons_begin :
    Abandons .connected (.begin :: rest) ↔ Abandons .inTransaction rest := by
  simp [Abandons, Position.next]

@[simp] theorem abandons_acquire :
    Abandons .outside (.acquire :: rest) ↔ Abandons .connected rest := by
  simp [Abandons, Position.next]

theorem follows_transaction : Follows .connected (transaction answers count ok) := by
  simp only [transaction]
  split
  · cases ok <;> simp [Follows, Position.next, abandon]
  · rfl

theorem abandons_transaction :
    Abandons .connected (transaction answers count ok) ↔
      answers.active = true ∧ ¬ (ok = true ∧ answers.committed = true) := by
  simp only [transaction]
  cases answers.active with
  | false => simp [Abandons, Position.next]
  | true => cases ok <;> simp [Abandons, Position.next, abandon]

/-! ## The services -/

theorem editMessage_follows (call : EditMessage) : Follows .outside (editMessage call) := by
  simp only [editMessage]
  split
  · rfl
  · split
    · rfl
    · change Follows .connected _
      split
      · rfl
      · rw [follows_begin, follows_statement]
        cases call.row with
        | none => exact follows_abandon
        | some row =>
            simp only [follows_return, follows_statement, follows_commitAndRelease, or_true]

theorem editMessage_abandons (call : EditMessage) :
    Abandons .outside (editMessage call) ↔ ¬ call.Passes := by
  simp only [editMessage, EditMessage.Passes]
  by_cases kind : call.msgKind ≠ 0 ∧ call.msgKind ≠ 1
  · simp [kind, Abandons]
  · rw [if_neg kind]
    replace kind : call.msgKind = 0 ∨ call.msgKind = 1 := by omega
    cases call.connected with
    | false => simp [Abandons]
    | true =>
        cases call.active with
        | false => simp [Abandons, Position.next]
        | true =>
            cases call.row with
            | none => simp [kind, Abandons, Position.next, abandon]
            | some row =>
                simp only [Bool.not_true, Bool.false_eq_true, if_false, abandons_acquire,
                  abandons_begin, abandons_statement, abandons_return, abandons_commitAndRelease,
                  kind, EditMessage.Editable, Option.some.injEq, exists_eq_left', true_implies,
                  Bool.not_eq_eq_eq_not, Bool.eq_false_iff]
                have window : row.timestamp < call.nowMs - editWindowMs ↔
                    ¬ call.nowMs - editWindowMs ≤ row.timestamp := Int.not_le.symm
                rw [window]
                tauto

theorem addFriend_follows (call : AddFriend) : Follows .outside (addFriend call) := by
  simp only [addFriend]
  split
  · rfl
  · split
    · rfl
    · exact follows_transaction

theorem addFriend_abandons (call : AddFriend) :
    Abandons .outside (addFriend call) ↔ ¬ call.Passes := by
  simp only [addFriend, AddFriend.Passes]
  by_cases self : call.userId = call.friendId
  · simp [self, Abandons]
  · cases call.connected <;> simp [self, Abandons, abandons_transaction]

theorem deleteFriend_follows (call : DeleteFriend) : Follows .outside (deleteFriend call) := by
  simp only [deleteFriend]
  split
  · rfl
  · exact follows_transaction

theorem deleteFriend_abandons (call : DeleteFriend) :
    Abandons .outside (deleteFriend call) ↔ ¬ call.Passes := by
  simp only [deleteFriend, DeleteFriend.Passes]
  cases call.connected <;> simp [Abandons, abandons_transaction]

theorem deleteGroup_follows (call : DeleteGroup) : Follows .outside (deleteGroup call) := by
  simp only [deleteGroup]
  split
  · rfl
  · change Follows .connected _
    split
    · rfl
    · split
      · rfl
      · exact follows_transaction

theorem deleteGroup_abandons (call : DeleteGroup) :
    Abandons .outside (deleteGroup call) ↔ ¬ call.Passes := by
  simp only [deleteGroup, DeleteGroup.Passes]
  cases call.connected with
  | false => simp [Abandons]
  | true =>
      cases call.ownerId with
      | none => simp [Abandons, Position.next]
      | some ownerId =>
          by_cases owner : ownerId = call.userId
          · simp [owner, Abandons, Position.next, abandons_transaction]
          · simp [owner, Abandons, Position.next]

theorem deleteAccount_follows (call : DeleteAccount) : Follows .outside (deleteAccount call) := by
  simp only [deleteAccount]
  split
  · rfl
  · change Follows .connected _
    split
    · rfl
    · rfl
    · exact follows_transaction

theorem deleteAccount_abandons (call : DeleteAccount) :
    Abandons .outside (deleteAccount call) ↔ ¬ call.Passes := by
  simp only [deleteAccount, DeleteAccount.Passes]
  cases call.connected with
  | false => simp [Abandons]
  | true =>
      cases call.verified with
      | none => simp [Abandons, Position.next]
      | some verified =>
          cases verified <;> simp [Abandons, Position.next, abandons_transaction]

theorem outboxBranch_follows (call : OutboxBranch) : Follows .outside (outboxBranch call) := by
  simp only [outboxBranch]
  split
  · rfl
  · exact follows_transaction

theorem outboxBranch_abandons (call : OutboxBranch) :
    Abandons .outside (outboxBranch call) ↔ ¬ call.Passes := by
  simp only [outboxBranch, OutboxBranch.Passes]
  cases call.connected <;> simp [Abandons, abandons_transaction]

/-! ## `SagaCoordinator::execute` -/

theorem forwardStep_follows (step : ForwardAnswers) : Follows .outside (forwardStep step) := by
  simp only [forwardStep]
  split
  · rfl
  · change Follows .connected _
    split
    · rfl
    · simp

theorem forwardStep_abandons (step : ForwardAnswers) :
    Abandons .outside (forwardStep step) ↔ ¬ step.Passes := by
  simp only [forwardStep, ForwardAnswers.Passes, ForwardAnswers.succeeds]
  cases step.connected with
  | false => simp [Abandons]
  | true =>
      cases step.active with
      | false => simp [Abandons, Position.next]
      | true =>
          simp only [Bool.not_true, Bool.false_eq_true, if_false, abandons_acquire, abandons_begin,
            abandons_statements_inTransaction, abandons_return, abandons_statement,
            abandons_commitAndRelease]
          cases step.stepOk <;> cases step.committed <;> simp

theorem compensateStep_follows (step : CompensateAnswers) : Follows .outside (compensateStep step) := by
  simp only [compensateStep]
  split
  · rfl
  · split
    · rfl
    · change Follows .connected _
      split
      · cases step.ok <;> simp
      · rw [follows_statements rfl]
        rfl

theorem compensateStep_abandons (step : CompensateAnswers) :
    Abandons .outside (compensateStep step) ↔ ¬ step.Passes := by
  simp only [compensateStep, CompensateAnswers.Passes]
  cases step.defined with
  | false => simp [Abandons]
  | true =>
      cases step.connected with
      | false => simp [Abandons]
      | true =>
          cases step.active with
          | false =>
              simp [Abandons, Position.next, abandons_statements_connected]
          | true => cases step.ok <;> simp

theorem singleStatement_follows (connected : Bool) : Follows .outside (singleStatement connected) := by
  cases connected <;> rfl

theorem singleStatement_closes (connected : Bool) :
    ¬ Abandons .outside (singleStatement connected) := by
  cases connected <;> simp [singleStatement, Abandons, Position.next]

variable {forwards : Nat → ForwardAnswers} {compensations : Nat → CompensateAnswers}

theorem forwardLoop_follows (forwards : Nat → ForwardAnswers) (remaining i : Nat) :
    Follows .outside (forwardLoop forwards remaining i).1 := by
  induction remaining generalizing i with
  | zero => rfl
  | succ remaining ih =>
      simp only [forwardLoop]
      split
      · exact (follows_append (forwardStep_follows _)).mpr (ih (i + 1))
      · exact forwardStep_follows _

theorem compensateLoop_follows (i : Nat) : Follows .outside (compensateLoop compensations i) := by
  induction i with
  | zero => rfl
  | succ i ih => exact (follows_append (compensateStep_follows _)).mpr ih

theorem compensateLoop_abandons (i : Nat) :
    Abandons .outside (compensateLoop compensations i) ↔ ∃ j < i, ¬ (compensations j).Passes := by
  induction i with
  | zero => simp [compensateLoop, Abandons]
  | succ i ih =>
      simp only [compensateLoop]
      rw [abandons_append (compensateStep_follows _), compensateStep_abandons, ih]
      constructor
      · intro given
        rcases given with here | ⟨j, below, earlier⟩
        · exact ⟨i, by omega, here⟩
        · exact ⟨j, by omega, earlier⟩
      · intro given
        obtain ⟨j, below, fails⟩ := given
        rcases Nat.lt_succ_iff_lt_or_eq.mp below with earlier | rfl
        · exact .inr ⟨j, earlier, fails⟩
        · exact .inl fails

/-- The loop, started before step `i`, comes to step `k`. -/
def Comes (forwards : Nat → ForwardAnswers) (remaining i k : Nat) : Prop :=
  i ≤ k ∧ k < i + remaining ∧ ∀ j, i ≤ j → j < k → (forwards j).succeeds

theorem comes_succ_iff {remaining i k : Nat} :
    Comes forwards (remaining + 1) i k ↔
      k = i ∨ ((forwards i).succeeds ∧ Comes forwards remaining (i + 1) k) := by
  constructor
  · intro given
    obtain ⟨lower, upper, succeed⟩ := given
    by_cases same : k = i
    · exact .inl same
    · refine .inr ⟨succeed i (Nat.le_refl i) (by omega), by omega, by omega, ?_⟩
      exact fun j after before => succeed j (by omega) before
  · intro given
    rcases given with rfl | ⟨first, lower, upper, succeed⟩
    · exact ⟨by omega, by omega, fun j after before => by omega⟩
    · refine ⟨by omega, by omega, fun j after before => ?_⟩
      by_cases same : j = i
      · exact same ▸ first
      · exact succeed j (by omega) before

theorem forwardLoop_failed (forwards : Nat → ForwardAnswers) (remaining i k : Nat) :
    (forwardLoop forwards remaining i).2 = some k ↔
      Comes forwards remaining i k ∧ ¬ (forwards k).succeeds := by
  induction remaining generalizing i with
  | zero =>
      refine iff_of_false nofun ?_
      intro given
      obtain ⟨⟨lower, upper, _⟩, _⟩ := given
      omega
  | succ remaining ih =>
      simp only [forwardLoop, comes_succ_iff]
      split
      · rename_i first
        rw [ih]
        constructor
        · exact fun ⟨comes, fails⟩ => ⟨.inr ⟨first, comes⟩, fails⟩
        · intro given
          rcases given with ⟨rfl | ⟨_, comes⟩, fails⟩
          · exact absurd first fails
          · exact ⟨comes, fails⟩
      · rename_i first
        constructor
        · intro same
          cases same
          exact ⟨.inl rfl, first⟩
        · intro given
          rcases given with ⟨rfl | ⟨succeeds, _⟩, _⟩
          · rfl
          · exact absurd succeeds first

theorem ForwardAnswers.passes_of_succeeds {step : ForwardAnswers} (succeeds : step.succeeds) :
    step.Passes := fun _ _ => succeeds

theorem forwardLoop_abandons (forwards : Nat → ForwardAnswers) (remaining i : Nat) :
    Abandons .outside (forwardLoop forwards remaining i).1 ↔
      ∃ k, Comes forwards remaining i k ∧ ¬ (forwards k).Passes := by
  induction remaining generalizing i with
  | zero =>
      apply iff_of_false id
      intro given
      obtain ⟨k, ⟨lower, upper, _⟩, _⟩ := given
      omega
  | succ remaining ih =>
      simp only [forwardLoop, comes_succ_iff]
      split
      · rename_i first
        rw [abandons_append (forwardStep_follows _), forwardStep_abandons, ih]
        have passes := ForwardAnswers.passes_of_succeeds first
        constructor
        · intro given
          rcases given with fails | ⟨k, comes, fails⟩
          · exact absurd passes fails
          · exact ⟨k, .inr ⟨first, comes⟩, fails⟩
        · intro given
          rcases given with ⟨k, rfl | ⟨_, comes⟩, fails⟩
          · exact absurd passes fails
          · exact .inr ⟨k, comes, fails⟩
      · rename_i first
        rw [forwardStep_abandons]
        constructor
        · exact fun fails => ⟨i, .inl rfl, fails⟩
        · intro given
          rcases given with ⟨k, rfl | ⟨succeeds, _⟩, fails⟩
          · exact fails
          · exact absurd succeeds first

theorem execute_follows (call : SagaExecute) : Follows .outside (execute call) := by
  simp only [execute]
  rw [follows_append (singleStatement_follows _)]
  split
  · rfl
  · have loop := forwardLoop_follows call.forwards (call.steps - call.currentStep) call.currentStep
    split
    · rename_i actions result
      rw [result] at loop
      exact (follows_append loop).mpr (singleStatement_follows _)
    · rename_i actions i result
      rw [result] at loop
      rw [follows_append loop, follows_append (singleStatement_follows _),
        follows_append (compensateLoop_follows i)]
      exact singleStatement_follows _

theorem SagaExecute.reaches_iff (call : SagaExecute) (i : Nat) :
    call.Reaches i ↔ Comes call.forwards (call.steps - call.currentStep) call.currentStep i := by
  constructor
  · exact fun ⟨lower, upper, succeed⟩ => ⟨lower, by omega, succeed⟩
  · exact fun ⟨lower, upper, succeed⟩ => ⟨lower, by omega, succeed⟩

theorem execute_abandons (call : SagaExecute) :
    Abandons .outside (execute call) ↔ ¬ call.Passes := by
  simp only [execute, SagaExecute.Passes]
  rw [abandons_append (singleStatement_follows _), or_iff_right (singleStatement_closes _)]
  by_cases absent : (!call.loadConnected || !call.found) = true
  · rw [if_pos absent]
    refine iff_of_false id (not_not_intro fun connected found => ?_)
    simp [connected, found] at absent
  · rw [if_neg absent]
    have entered : call.loadConnected ∧ call.found := by simpa using absent
    simp only [entered.1, entered.2, true_implies, call.reaches_iff, not_forall, not_and_or,
      exists_prop]
    have follows := forwardLoop_follows call.forwards (call.steps - call.currentStep) call.currentStep
    have abandons := forwardLoop_abandons call.forwards (call.steps - call.currentStep) call.currentStep
    have failed := forwardLoop_failed call.forwards (call.steps - call.currentStep) call.currentStep
    cases result : forwardLoop call.forwards (call.steps - call.currentStep) call.currentStep with
    | mk actions stop =>
        rw [result] at follows abandons failed
        cases stop with
        | none =>
            rw [abandons_append follows, abandons, or_iff_left (singleStatement_closes _)]
            constructor
            · intro given
              obtain ⟨k, comes, fails⟩ := given
              exact ⟨k, comes, .inl fails⟩
            · intro given
              rcases given with ⟨k, comes, fails | ⟨stops, _⟩⟩
              · exact ⟨k, comes, fails⟩
              · exact absurd ((failed k).mpr ⟨comes, stops⟩) nofun
        | some i =>
            obtain ⟨comes, stops⟩ := (failed i).mp rfl
            rw [abandons_append follows, abandons, abandons_append (singleStatement_follows _),
              or_iff_right (singleStatement_closes _), abandons_append (compensateLoop_follows i),
              or_iff_left (singleStatement_closes _), compensateLoop_abandons]
            constructor
            · intro given
              rcases given with ⟨k, comes, fails⟩ | fails
              · exact ⟨k, comes, .inl fails⟩
              · exact ⟨i, comes, .inr ⟨stops, by simpa using fails⟩⟩
            · intro given
              rcases given with ⟨k, comes, fails | ⟨fails, back⟩⟩
              · exact .inl ⟨k, comes, fails⟩
              · have same : i = k := Option.some.inj ((failed k).mpr ⟨comes, fails⟩)
                exact .inr (by simpa [same] using back)

/-! ## All requests -/

theorem script_follows (request : Request) : Follows .outside request.script := by
  cases request with
  | editMessage call => exact editMessage_follows call
  | addFriend call => exact addFriend_follows call
  | deleteFriend call => exact deleteFriend_follows call
  | deleteGroup call => exact deleteGroup_follows call
  | deleteAccount call => exact deleteAccount_follows call
  | outboxBranch call => exact outboxBranch_follows call
  | execute call => exact execute_follows call

theorem script_abandons (request : Request) :
    Abandons .outside request.script ↔ ¬ request.Passes := by
  cases request with
  | editMessage call => exact editMessage_abandons call
  | addFriend call => exact addFriend_abandons call
  | deleteFriend call => exact deleteFriend_abandons call
  | deleteGroup call => exact deleteGroup_abandons call
  | deleteAccount call => exact deleteAccount_abandons call
  | outboxBranch call => exact outboxBranch_abandons call
  | execute call => exact execute_abandons call

/-- However the requests of one kind are interleaved on the connections of a
pool, no transaction leaks, if and only if each of them passes. -/
theorem no_leak_iff_passes {Conn : Type} (Thread : Type) [DecidableEq Conn] [DecidableEq Thread]
    [Nonempty Thread] {pool : List Conn} (distinct : pool.Nodup) (available : pool ≠ [])
    (requests : Request → Prop) :
    (∀ events, (machine Conn Thread Request.script).Meets (Calls requests) (initial pool) events →
      (machine Conn Thread Request.script).Always NoLeak (initial pool) events) ↔
    ∀ request, requests request → request.Passes := by
  rw [noLeak_iff_closes distinct available script_follows]
  exact forall_congr' fun request => imp_congr_right fun _ => by rw [script_abandons, not_not]

private def befriend : Request :=
  .addFriend { connected := true, active := true, committed := true, userId := 3, friendId := 4, r1 := 1, r2 := 1 }

private def unfriend : Request :=
  .deleteFriend { connected := true, active := true, committed := true, r1 := 1, r2 := 0 }

/-- Two requests take turns on two connections. -/
private def takingTurns : List (Event Nat Nat Request) :=
  [.call 0 befriend, .call 1 unfriend, .acquire 0 8, .acquire 1 9, .act 0, .act 1, .act 0, .act 0,
    .act 1, .act 0, .act 0]

theorem taking_turns_no_leak :
    ∃ state, (machine Nat Nat Request.script).run (initial [8, 9]) takingTurns = some state ∧
      state.free = [8] ∧ NoLeak state := by
  have met : (machine Nat Nat Request.script).Meets (Calls Request.Passes) (initial [8, 9]) takingTurns :=
    .cons rfl (fun _ _ _ => ⟨by decide, by decide, rfl⟩) <|
    .cons rfl (fun _ _ => ⟨by decide, by decide, rfl⟩) <|
    .cons rfl trivial <| .cons rfl trivial <| .cons rfl trivial <| .cons rfl trivial <|
    .cons rfl trivial <| .cons rfl trivial <| .cons rfl trivial <| .cons rfl trivial <|
    .cons rfl trivial trivial
  have distinct : [8, 9].Nodup := by decide
  have safe := (no_leak_iff_passes Nat distinct (by decide) Request.Passes).mpr
    fun _ passes => passes
  exact ⟨_, rfl, rfl, (safe takingTurns met).atEnd rfl⟩

/-! ## An edit that is refused -/

/-- User 1 tries to edit a message of user 2. -/
private def refusedEdit : Request :=
  .editMessage {
    connected := true, active := true, committed := true, editorId := 1, msgKind := 0, nowMs := 1000
    row := some { fromUser := 2, timestamp := 900, recalled := 0 }
    updateValid := true, updated := true, insertValid := true, inserted := true }

/-- The edit releases its connection inside its transaction; a friend request
takes it, its BEGIN commits that transaction, and after its first INSERT the
guard of the edit rolls back. -/
private def refusedEditThenFriend : List (Event Nat Nat Request) :=
  [.call 0 refusedEdit, .acquire 0 8, .act 0, .act 0, .act 0, .call 1 befriend, .acquire 1 8,
    .act 1, .act 1, .act 0]

theorem refused_edit_leaks :
    ∃ state, (machine Nat Nat Request.script).run (initial [8]) refusedEditThenFriend = some state ∧
      ¬ NoLeak state :=
  ⟨_, rfl, fun noLeak => absurd noLeak.2 (by decide)⟩

end MuduoIm.Server.Transactions
