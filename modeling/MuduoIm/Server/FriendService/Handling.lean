import MuduoIm.Server.FriendService

namespace MuduoIm.Server.FriendService.Handling

open MuduoIm.Transition

/-! # Concurrent decisions of one friend request

Any number of calls of `handleRequest` for one request, each on a connection of
its own, one SQL statement a step.  What an open transaction has written is
visible to itself alone; from its UPDATE on it holds the lock of the row of the
request, for which the other UPDATEs of that row wait.
-/

inductive Phase where
  | acquire
  | select
  | begin (request : FriendRequest)
  -- `failed` tells whether one of the statements sent so far has failed
  | transaction (request : FriendRequest) (sent : Nat) (failed : Bool)
  | update
  | returned (reply : Reply)
deriving DecidableEq, Repr

structure Call where
  userId : Int
  accept : Bool
  phase : Phase := .acquire
deriving DecidableEq, Repr

/-- `lock` is the call whose transaction has the row of the request locked.
`changes` is history: the values to which the committed status has changed. -/
structure State (Id : Type) where
  tables : Tables
  calls : Id → Option Call := fun _ => none
  lock : Option Id := none
  changes : List RequestStatus := []

inductive Event (Id : Type) where
  | call (id : Id) (userId : Int) (accept : Bool)
  | acquire (id : Id) (connected : Bool)
  | select (id : Id) (answered : Bool)
  | begin (id : Id) (active : Bool)
  | execute (id : Id) (executed : Bool)
  | commit (id : Id) (answer : CommitAnswer)
  | update (id : Id) (executed : Bool)
deriving DecidableEq, Repr

def requestStatus (requestId : Int) (tables : Tables) : Option RequestStatus :=
  (tables.friendRequests.find? fun request => request.id = requestId).map FriendRequest.status

/-- The affected rows of an UPDATE are those that it changes. -/
def affectedRows (requestId : Int) (status : RequestStatus) (tables : Tables) : Nat :=
  tables.friendRequests.countP fun request => request.id = requestId ∧ request.status ≠ status

def acceptStatements (requestId : Int) (request : FriendRequest) : List (Tables → Tables) :=
  [Tables.setRequestStatus requestId .accepted, Tables.insertIgnoreFriend request.fromUser request.toUser,
    Tables.insertIgnoreFriend request.toUser request.fromUser]

variable {Id : Type} [DecidableEq Id]

namespace State

def enter (state : State Id) (id : Id) (call : Call) : State Id :=
  { state with calls := Function.update state.calls id (some call) }

def goto (state : State Id) (id : Id) (call : Call) (phase : Phase) : State Id :=
  state.enter id { call with phase }

/-- The tables after a statement outside a transaction, or after a COMMIT. -/
def write (requestId : Int) (state : State Id) (tables : Tables) : State Id :=
  { state with
    tables
    changes := state.changes ++
      if requestStatus requestId tables = requestStatus requestId state.tables then []
      else (requestStatus requestId tables).toList }

def unlock (state : State Id) (id : Id) : State Id :=
  if state.lock = some id then { state with lock := none } else state

end State

variable (requestId : Int)

def select (state : State Id) (id : Id) (call : Call) (answered : Bool) : State Id :=
  match if answered then findPending call.userId requestId state.tables else none with
  | none => state.goto id call (.returned (failure "request not found"))
  | some request => state.goto id call (if call.accept then .begin request else .update)

def begin (state : State Id) (id : Id) (call : Call) (request : FriendRequest) (active : Bool) : State Id :=
  state.goto id call
    (if active then .transaction request 0 false else .returned (failure "failed to start transaction"))

/-- The first statement is the UPDATE of the request. -/
def execute (state : State Id) (id : Id) (call : Call) (request : FriendRequest) (sent : Nat)
    (failed executed : Bool) : Option (State Id) :=
  let sentNext := state.goto id call (.transaction request (sent + 1) (failed || !executed))
  if sent = 0 ∧ executed = true then
    if state.lock = none then some { sentNext with lock := some id } else none
  else some sentNext

/-- After a failed statement the guard rolls the transaction back. -/
def commit (state : State Id) (id : Id) (call : Call) (request : FriendRequest) (failed : Bool)
    (answer : CommitAnswer) : State Id :=
  let after := (acceptStatements requestId request).foldl (fun tables statement => statement tables) state.tables
  let refused := (state.unlock id).goto id call (.returned (failure "operation failed"))
  if failed then refused
  else
    match answer with
    | .committed =>
        ((state.unlock id).goto id call (.returned { success := true, accepted := some true })).write requestId after
    | .lost => refused.write requestId after
    | .refused => refused

def update (state : State Id) (id : Id) (call : Call) (executed : Bool) : Option (State Id) :=
  if executed then
    if state.lock = none then
      some ((state.goto id call (.returned
        (if 0 < affectedRows requestId .rejected state.tables then { success := true, accepted := some false }
          else failure "operation failed"))).write requestId (state.tables.setRequestStatus requestId .rejected))
    else none
  else some (state.goto id call (.returned (failure "operation failed")))

def step (state : State Id) (event : Event Id) : Option (State Id) :=
  match event with
  | .call id userId accept => if state.calls id = none then some (state.enter id { userId, accept }) else none
  | .acquire id connected =>
      (state.calls id).bind fun call =>
        match call.phase with
        | .acquire => some (state.goto id call (if connected then .select else .returned (failure "db error")))
        | _ => none
  | .select id answered =>
      (state.calls id).bind fun call =>
        match call.phase with
        | .select => some (Handling.select requestId state id call answered)
        | _ => none
  | .begin id active =>
      (state.calls id).bind fun call =>
        match call.phase with
        | .begin request => some (Handling.begin state id call request active)
        | _ => none
  | .execute id executed =>
      (state.calls id).bind fun call =>
        match call.phase with
        | .transaction request sent failed =>
            if sent < (acceptStatements requestId request).length then
              Handling.execute state id call request sent failed executed
            else none
        | _ => none
  | .commit id answer =>
      (state.calls id).bind fun call =>
        match call.phase with
        | .transaction request sent failed =>
            if sent = (acceptStatements requestId request).length then
              some (Handling.commit requestId state id call request failed answer)
            else none
        | _ => none
  | .update id executed =>
      (state.calls id).bind fun call =>
        match call.phase with
        | .update => Handling.update requestId state id call executed
        | _ => none

def machine : Machine (State Id) (Event Id) := ⟨step requestId⟩

/-! ## A call on its own -/

variable {requestId userId : Int} {accept : Bool} {answers : Answers} {request : FriendRequest} {tables : Tables}
variable {id : Id} {call : Call} {lock : Option Id} {changes : List RequestStatus}

/-- A call that is the only one. -/
def alone (id : Id) (call : Call) (tables : Tables) (lock : Option Id) (changes : List RequestStatus) : State Id :=
  { tables, calls := Function.update (fun _ => none) id (some call), lock, changes }

@[simp] theorem alone_calls : (alone id call tables lock changes).calls id = some call := by
  simp [alone]

@[simp] theorem alone_tables : (alone id call tables lock changes).tables = tables := rfl

@[simp] theorem alone_lock : (alone id call tables lock changes).lock = lock := rfl

@[simp] theorem alone_goto (phase : Phase) :
    (alone id call tables lock changes).goto id call phase = alone id { call with phase } tables lock changes := by
  simp only [alone, State.goto, State.enter, Function.update_idem]

theorem alone_unlock (id : Id) (call : Call) (tables : Tables) (lock : Option Id) (changes : List RequestStatus) :
    ∃ released, (alone id call tables lock changes).unlock id = alone id call tables released changes := by
  unfold State.unlock
  split <;> exact ⟨_, rfl⟩

theorem alone_write (requestId : Int) (id : Id) (call : Call) (tables after : Tables) (lock : Option Id)
    (changes : List RequestStatus) :
    ∃ later, (alone id call tables lock changes).write requestId after = alone id call after lock later :=
  ⟨_, rfl⟩

theorem findPending_affected (found : findPending userId requestId tables = some request) :
    0 < affectedRows requestId .rejected tables := by
  have pending := List.find?_some found
  simp only [decide_eq_true_eq] at pending
  refine List.countP_pos_iff.mpr ⟨request, List.mem_of_find?_eq_some found, ?_⟩
  simp [pending.1, pending.2.2]

/-- The statements of an acceptance, of which any may fail. -/
theorem execute_run (requestId : Int) (id : Id) (userId : Int) (request : FriendRequest) (tables : Tables)
    (first second third : Bool) :
    (machine requestId).run (alone id ⟨userId, true, .transaction request 0 false⟩ tables none [])
        [.execute id first, .execute id second, .execute id third] =
      some (alone id ⟨userId, true, .transaction request 3 (!(first && second && third))⟩ tables
        (if first then some id else none) []) := by
  cases first <;> cases second <;> cases third <;>
    simp [Machine.run, machine, step, execute, acceptStatements, alone, State.goto, State.enter]

theorem commit_run (id : Id) (lock : Option Id) (failed : Bool) (answer : CommitAnswer) :
    ∃ released later, (machine requestId).run
        (alone id ⟨userId, true, .transaction request 3 failed⟩ tables lock []) [.commit id answer] =
      some (alone id
        ⟨userId, true, .returned (if failed = false ∧ answer = .committed then { success := true, accepted := some true }
          else failure "operation failed")⟩
        (if failed = false ∧ answer ≠ .refused then
          (acceptStatements requestId request).foldl (fun tables statement => statement tables) tables
        else tables) released later) := by
  obtain ⟨released, unlocked⟩ := alone_unlock id ⟨userId, true, .transaction request 3 failed⟩ tables lock []
  have written (reply : Reply) := alone_write requestId id ⟨userId, true, .returned reply⟩ tables
    ((acceptStatements requestId request).foldl (fun tables statement => statement tables) tables) released []
  cases failed with
  | true => exact ⟨released, [], by simp [Machine.run, machine, step, commit, acceptStatements, unlocked]⟩
  | false =>
      cases answer with
      | committed =>
          obtain ⟨later, written⟩ := written { success := true, accepted := some true }
          exact ⟨released, later, by simpa [Machine.run, machine, step, commit, acceptStatements, unlocked] using written⟩
      | lost =>
          obtain ⟨later, written⟩ := written (failure "operation failed")
          exact ⟨released, later, by simpa [Machine.run, machine, step, commit, acceptStatements, unlocked] using written⟩
      | refused => exact ⟨released, [], by simp [Machine.run, machine, step, commit, acceptStatements, unlocked]⟩

theorem transaction_accept (active : answers.active = true) :
    transaction answers (acceptStatements requestId request) { success := true, accepted := some true }
        "operation failed" tables =
      let failed := !(answers.executed 0 && answers.executed 1 && answers.executed 2)
      (if failed = false ∧ answers.commit = .committed then { success := true, accepted := some true }
        else failure "operation failed",
      if failed = false ∧ answers.commit ≠ .refused then
        (acceptStatements requestId request).foldl (fun tables statement => statement tables) tables
      else tables) := by
  have sent : (List.range (acceptStatements requestId request).length).all answers.executed =
      (answers.executed 0 && answers.executed 1 && answers.executed 2) := by
    simp [acceptStatements, List.range_succ, Bool.and_assoc]
  rw [transaction, active, sent]
  cases answers.executed 0 && answers.executed 1 && answers.executed 2 <;> cases answers.commit <;> rfl

theorem accept_run (requestId : Int) (id : Id) (userId : Int) (request : FriendRequest) (answers : Answers)
    (tables : Tables) :
    let transacted := transaction answers (acceptStatements requestId request)
      { success := true, accepted := some true } "operation failed" tables
    ∃ events lock changes, (machine requestId).run (alone id ⟨userId, true, .begin request⟩ tables none []) events =
      some (alone id ⟨userId, true, .returned transacted.1⟩ transacted.2 lock changes) := by
  have began (active : Bool) : (machine requestId).run (alone id ⟨userId, true, .begin request⟩ tables none [])
      [.begin id active] = some (alone id ⟨userId, true, if active then .transaction request 0 false
        else .returned (failure "failed to start transaction")⟩ tables none []) := by
    simp [Machine.run, machine, step, begin]
  cases active : answers.active with
  | false =>
      refine ⟨_, none, [], (began false).trans ?_⟩
      simp [transaction, active]
  | true =>
      have sent := execute_run requestId id userId request tables (answers.executed 0) (answers.executed 1)
        (answers.executed 2)
      obtain ⟨released, later, committed⟩ := commit_run id _ _ answers.commit
      have ran := Machine.run_trans (began true) (Machine.run_trans sent committed)
      rw [transaction_accept active]
      exact ⟨_, _, _, ran⟩

theorem reject_run (id : Id) (executed : Bool) (found : findPending userId requestId tables = some request) :
    ∃ events lock changes, (machine requestId).run (alone id ⟨userId, false, .update⟩ tables none []) events =
      some (alone id
        ⟨userId, false, .returned (if executed then { success := true, accepted := some false }
          else failure "operation failed")⟩
        (if executed then tables.setRequestStatus requestId .rejected else tables) lock changes) := by
  cases executed with
  | false => exact ⟨[.update id false], none, [], by simp [Machine.run, machine, step, update]⟩
  | true =>
      obtain ⟨later, written⟩ := alone_write requestId id
        ⟨userId, false, .returned { success := true, accepted := some false }⟩ tables
        (tables.setRequestStatus requestId .rejected) none []
      refine ⟨[.update id true], none, later, ?_⟩
      simpa [Machine.run, machine, step, update, findPending_affected found] using written

/-- A call in whose way no other gets is `handleRequest`. -/
theorem handleRequest_run (id : Id) (userId requestId : Int) (accept : Bool) (answers : Answers) (tables : Tables) :
    let handled := handleRequest userId requestId accept answers tables
    ∃ events lock changes, (machine requestId).run { tables } events =
      some (alone id ⟨userId, accept, .returned handled.1⟩ handled.2 lock changes) := by
  have called : (machine requestId).run { tables } [.call id userId accept] =
      some (alone id { userId, accept } tables none []) := rfl
  unfold handleRequest
  cases connected : answers.connected with
  | false =>
      have refused : (machine requestId).run (alone id { userId, accept } tables none []) [.acquire id false] =
          some (alone id ⟨userId, accept, .returned (failure "db error")⟩ tables none []) := by
        simp [Machine.run, machine, step]
      exact ⟨_, _, _, Machine.run_trans called refused⟩
  | true =>
      simp only [Bool.not_true, Bool.false_eq_true, if_false]
      have acquired : (machine requestId).run (alone id { userId, accept } tables none []) [.acquire id true] =
          some (alone id ⟨userId, accept, .select⟩ tables none []) := by
        simp [Machine.run, machine, step]
      cases found : if answers.selected then findPending userId requestId tables else none with
      | none =>
          have selected : (machine requestId).run (alone id ⟨userId, accept, .select⟩ tables none [])
              [.select id answers.selected] =
                some (alone id ⟨userId, accept, .returned (failure "request not found")⟩ tables none []) := by
            simp [Machine.run, machine, step, select, found]
          exact ⟨_, _, _, Machine.run_trans called (Machine.run_trans acquired selected)⟩
      | some request =>
          have selected : (machine requestId).run (alone id ⟨userId, accept, .select⟩ tables none [])
              [.select id answers.selected] =
                some (alone id ⟨userId, accept, if accept then .begin request else .update⟩ tables none []) := by
            simp [Machine.run, machine, step, select, found]
          have pending := Machine.run_trans called (Machine.run_trans acquired selected)
          cases accept with
          | true =>
              obtain ⟨events, lock, changes, accepted⟩ := accept_run requestId id userId request answers tables
              exact ⟨_, _, _, Machine.run_trans pending accepted⟩
          | false =>
              have matched : findPending userId requestId tables = some request := by
                split at found
                · exact found
                · cases found
              obtain ⟨events, lock, changes, rejected⟩ := reject_run id (answers.executed 0) matched
              refine ⟨_, lock, changes, (Machine.run_trans pending rejected).trans ?_⟩
              cases answers.executed 0 <;> rfl

end MuduoIm.Server.FriendService.Handling
