import MuduoIm.Server.SagaCoordinator.InsertSaga
import MuduoIm.Server.SagaCoordinator.Recovery

namespace MuduoIm.Server.SagaCoordinator

/-! # Compensations in reverse order

A call of `execute` with the list of the transactions that it tries.
-/

inductive Transaction where
  | forward (i : Nat)
  | compensate (i : Nat)
deriving DecidableEq, Repr

variable {Env Tables Payload : Type}

/-- What the loop goes on with. -/
structure Standing (Tables Payload : Type) where
  context : Context Payload
  row : Row Payload
  tables : Tables

/-- The forward step at which the loop stands. -/
def Standing.attempt (standing : Standing Tables Payload) (step : Step Env Tables Payload) (i : Nat)
    (outcomes : Nat → ForwardOutcome Env) : Attempt Tables Payload :=
  forward step i standing.context standing.row standing.tables (outcomes i)

/-- The load, the marks and the transactions of the compensations find the
database up; a COMMIT may fail, but no answer to one is lost. -/
structure Healthy (answers : ExecuteAnswers Env) : Prop where
  loaded : answers.loaded = true
  answered : ∀ i env, answers.forwards i ≠ .answerLost env
  done : answers.done = true
  compensating : answers.compensating = true
  compensations : ∀ i, ∃ env committed, answers.compensations i = .attempt env true committed
  failed : answers.failed = true

/-- The steps below `k` that have a compensation, the last first. -/
def compensable (definition : Definition Env Tables Payload) (k : Nat) : List Nat :=
  (List.range k).reverse.filter fun i => (definition.steps[i]?.bind Step.compensate).isSome

def initial (row : Row Payload) (sagaId : Int) (tables : Tables) : Standing Tables Payload :=
  { context := row.load sagaId, row, tables }

variable {defs : Definitions Env Tables Payload} {definition : Definition Env Tables Payload}
variable {outcomes : Nat → ForwardOutcome Env} {first count i k : Nat}
variable {start standing last next : Standing Tables Payload} {step : Step Env Tables Payload}

variable {sagaId : Int} {answers : ExecuteAnswers Env} {row : Row Payload} {tables : Tables}

end MuduoIm.Server.SagaCoordinator
