import MuduoIm.Pool.Transactions

namespace MuduoIm.Server.Transactions

open MuduoIm.Pool

/-! # What requests with a transaction do to their connection

Each function below maps the arguments of a source function and the answers of
the database to the actions on the connection, in the order of the source.  In
all of them the `TransactionGuard` outlives the call of `release`, so a guard
that has not committed rolls back after the connection was released.
-/

/-- Whether a valid connection is acquired, BEGIN succeeds, and COMMIT, if it
is sent, succeeds. -/
structure Answers where
  connected : Bool
  active : Bool
  committed : Bool
deriving DecidableEq, Repr

/-- An early return inside a transaction. -/
def abandon : List Action := [.release, .rollback]

def commitAndRelease (committed : Bool) : List Action :=
  .commit committed :: if committed then [.release] else abandon

/-- A transaction of `count` statements that is committed if `ok`. -/
def transaction (answers : Answers) (count : Nat) (ok : Bool) : List Action :=
  if answers.active then
    .begin :: (List.replicate count .statement ++
      if ok then commitAndRelease answers.committed else abandon)
  else [.release]

/-! ## The services -/

/-- The columns of the SELECT in `editMessage` that decide on its way. -/
structure EditableRow where
  fromUser : Int
  timestamp : Int
  recalled : Int
deriving DecidableEq, Repr

structure EditMessage extends Answers where
  editorId : Int
  msgKind : Int
  nowMs : Int
  row : Option EditableRow
  updateValid : Bool
  updated : Bool
  insertValid : Bool
  inserted : Bool
deriving DecidableEq, Repr

/-- 15 minutes. -/
def editWindowMs : Int := 15 * 60 * 1000

def editMessage (call : EditMessage) : List Action :=
  if call.msgKind ≠ 0 ∧ call.msgKind ≠ 1 then []
  else if !call.connected then []
  else .acquire ::
    if !call.active then [.release]
    else .begin :: .statement ::
      match call.row with
      | none => abandon
      | some row =>
          if row.fromUser ≠ call.editorId then abandon
          else if row.recalled ≠ 0 then abandon
          else if row.timestamp < call.nowMs - editWindowMs then abandon
          else if !call.updateValid then abandon
          else .statement ::
            if !call.updated then abandon
            else if !call.insertValid then abandon
            else .statement ::
              if !call.inserted then abandon
              else commitAndRelease call.committed

structure AddFriend extends Answers where
  userId : Int
  friendId : Int
  r1 : Int
  r2 : Int
deriving DecidableEq, Repr

def addFriend (call : AddFriend) : List Action :=
  if call.userId = call.friendId then []
  else if !call.connected then []
  else .acquire :: transaction call.toAnswers 2 (call.r1 ≥ 0 ∧ call.r2 ≥ 0)

structure DeleteFriend extends Answers where
  r1 : Int
  r2 : Int
deriving DecidableEq, Repr

def deleteFriend (call : DeleteFriend) : List Action :=
  if !call.connected then []
  else .acquire :: transaction call.toAnswers 2 (call.r1 ≥ 0 ∧ call.r2 ≥ 0)

structure DeleteGroup extends Answers where
  userId : Int
  ownerId : Option Int
  r1 : Int
  r2 : Int
deriving DecidableEq, Repr

def deleteGroup (call : DeleteGroup) : List Action :=
  if !call.connected then []
  else .acquire :: .statement ::
    match call.ownerId with
    | none => [.release]
    | some ownerId =>
        if ownerId ≠ call.userId then [.release]
        else transaction call.toAnswers 2 (call.r1 ≥ 0 ∧ call.r2 ≥ 0)

/-- `verified` is the answer of `verifyPassword` for the row of the user. -/
structure DeleteAccount extends Answers where
  verified : Option Bool
  r1 : Int
  r2 : Int
  r3 : Int
  r4 : Int
deriving DecidableEq, Repr

def deleteAccount (call : DeleteAccount) : List Action :=
  if !call.connected then []
  else .acquire :: .statement ::
    match call.verified with
    | none | some false => [.release]
    | some true =>
        transaction call.toAnswers 4 (call.r1 ≥ 0 ∧ call.r2 ≥ 0 ∧ call.r3 ≥ 0 ∧ call.r4 ≥ 0)

/-- The outbox branch of `handlePrivateMessage`. -/
structure OutboxBranch extends Answers where
  savedRow : Bool
  outboxRow : Bool
deriving DecidableEq, Repr

def outboxBranch (call : OutboxBranch) : List Action :=
  if !call.connected then []
  else .acquire :: transaction call.toAnswers 2 (call.savedRow && call.outboxRow)

/-! ## `SagaCoordinator::execute` -/

/-- `statements` counts what the step function sends. -/
structure ForwardAnswers extends Answers where
  statements : Nat
  stepOk : Bool
  updRows : Int
deriving DecidableEq, Repr

def forwardStep (answers : ForwardAnswers) : List Action :=
  if !answers.connected then []
  else .acquire ::
    if !answers.active then [.release]
    else .begin :: (List.replicate answers.statements .statement ++
      if !answers.stepOk then abandon
      else .statement ::
        if answers.updRows < 1 then abandon else commitAndRelease answers.committed)

def ForwardAnswers.succeeds (answers : ForwardAnswers) : Bool :=
  answers.connected && answers.active && answers.stepOk && !(answers.updRows < 1) && answers.committed

structure CompensateAnswers extends Answers where
  defined : Bool
  statements : Nat
  ok : Bool
deriving DecidableEq, Repr

/-- Without a transaction `tx.commit()` does nothing. -/
def compensateStep (answers : CompensateAnswers) : List Action :=
  if !answers.defined then []
  else if !answers.connected then []
  else .acquire ::
    if answers.active then
      .begin :: (List.replicate answers.statements .statement ++
        if answers.ok then commitAndRelease answers.committed else abandon)
    else List.replicate answers.statements .statement ++ [.release]

/-- A single statement outside a transaction, as in `loadContextAndDef` and the
three marks. -/
def singleStatement (connected : Bool) : List Action :=
  if connected then [.acquire, .statement, .release] else []

structure SagaExecute where
  loadConnected : Bool
  found : Bool
  steps : Nat
  currentStep : Nat
  forwards : Nat → ForwardAnswers
  compensations : Nat → CompensateAnswers
  doneConnected : Bool
  compensatingConnected : Bool
  failedConnected : Bool

/-- The forward loop from step `i` on, and the step at which it failed. -/
def forwardLoop (forwards : Nat → ForwardAnswers) : Nat → Nat → List Action × Option Nat
  | 0, _ => ([], none)
  | remaining + 1, i =>
      if (forwards i).succeeds then
        let (actions, failed) := forwardLoop forwards remaining (i + 1)
        (forwardStep (forwards i) ++ actions, failed)
      else (forwardStep (forwards i), some i)

def compensateLoop (compensations : Nat → CompensateAnswers) : Nat → List Action
  | 0 => []
  | i + 1 => compensateStep (compensations i) ++ compensateLoop compensations i

def execute (call : SagaExecute) : List Action :=
  singleStatement call.loadConnected ++
    if !call.loadConnected || !call.found then []
    else
      match forwardLoop call.forwards (call.steps - call.currentStep) call.currentStep with
      | (actions, none) => actions ++ singleStatement call.doneConnected
      | (actions, some i) =>
          actions ++ (singleStatement call.compensatingConnected ++
            (compensateLoop call.compensations i ++ singleStatement call.failedConnected))

/-! ## Requests -/

inductive Request where
  | editMessage (call : EditMessage)
  | addFriend (call : AddFriend)
  | deleteFriend (call : DeleteFriend)
  | deleteGroup (call : DeleteGroup)
  | deleteAccount (call : DeleteAccount)
  | outboxBranch (call : OutboxBranch)
  | execute (call : SagaExecute)

def Request.script : Request → List Action
  | .editMessage call => Transactions.editMessage call
  | .addFriend call => Transactions.addFriend call
  | .deleteFriend call => Transactions.deleteFriend call
  | .deleteGroup call => Transactions.deleteGroup call
  | .deleteAccount call => Transactions.deleteAccount call
  | .outboxBranch call => Transactions.outboxBranch call
  | .execute call => Transactions.execute call

end MuduoIm.Server.Transactions
