import Mathlib.Data.Finset.Card
import MuduoIm.Transition.Machine

namespace MuduoIm.Server.LoginLockout

open MuduoIm.Transition

/-! # Logins and the lockout after failures

Any number of calls of `login` for one username in one process.  A call reads
the clock, checks the lock, selects the stored hash, verifies the password, and
records the failure or clears the attempts, each of these a step.
-/

def maxLoginFailures : Nat := 5

def lockoutDurationMs : Nat := 15 * 60 * 1000

/-- The entry of the username; one with zeros is the same as none. -/
structure LoginAttempt where
  failures : Nat := 0
  lockedUntilMs : Nat := 0
deriving DecidableEq, Repr

def recordLoginFailure (attempt : LoginAttempt) (nowMs : Nat) : LoginAttempt :=
  if maxLoginFailures ≤ attempt.failures + 1 then { failures := 0, lockedUntilMs := nowMs + lockoutDurationMs }
  else { attempt with failures := attempt.failures + 1 }

variable (sha256 : String → String) (argon2idVerify : String → String → Bool)

/-- A hash of 64 characters without a dollar is of the old format. -/
def verifyPassword (password encoded : String) : Bool :=
  if encoded = "" then false
  else if encoded.utf8ByteSize = 64 ∧ '$' ∉ encoded.toList then sha256 ("muduo-im-salt-v1" ++ password) == encoded
  else argon2idVerify encoded password

/-- What the SELECT of the user finds; `missing` is also a failed query. -/
inductive Lookup where
  | unreachable
  | missing
  | found (storedHash : String)
deriving DecidableEq, Repr

inductive Reply where
  | success
  | failure (message : String)
deriving DecidableEq, Repr

inductive Phase where
  | idle
  -- with the number of logins that had succeeded, a history
  | started (successes : Nat)
  | admitted
  | selected (storedHash : String)
  | rejected (message : String)
  | accepted
  | returned (reply : Reply)
deriving DecidableEq, Repr

/-- Besides `attempt` and `calls` all fields are histories: the last time that
was read, the times at which logins succeeded, the calls that are admitted and
have not finished, those whose failures are counted in `attempt`, those that
started while the account was locked, those that verified a password, and
those for which it was wrong. -/
structure State (Call : Type) where
  attempt : LoginAttempt := {}
  calls : Call → Phase := fun _ => .idle
  clock : Nat := 0
  successes : List Nat := []
  inFlight : Finset Call := ∅
  counted : Finset Call := ∅
  startedLocked : Finset Call := ∅
  verified : Finset Call := ∅
  wrong : Finset Call := ∅

inductive Event (Call : Type) where
  | login (call : Call)
  | check (call : Call)
  | select (call : Call) (lookup : Lookup)
  | verify (call : Call)
  | record (call : Call)
  | reset (call : Call) (nowMs : Nat)
deriving DecidableEq, Repr

/-- A call has its password and the time that it reads. -/
structure Guess where
  password : String
  nowMs : Nat
deriving DecidableEq, Repr

variable {Call : Type} [DecidableEq Call] (guessOf : Call → Guess)

def State.goto (state : State Call) (call : Call) (phase : Phase) : State Call :=
  { state with calls := Function.update state.calls call phase }

def accountLocked (remainSec : Nat) : String := "account locked, retry in " ++ toString remainSec ++ " seconds"

def step (state : State Call) : Event Call → Option (State Call)
  | .login call =>
      match state.calls call with
      | .idle =>
          if (guessOf call).password = "" then
            some (state.goto call (.returned (.failure "username and password required")))
          else
            some { state.goto call (.started state.successes.length) with
              clock := (guessOf call).nowMs
              startedLocked := if (guessOf call).nowMs < state.attempt.lockedUntilMs then
                  insert call state.startedLocked else state.startedLocked }
      | _ => none
  | .check call =>
      match state.calls call with
      | .started _ =>
          if (guessOf call).nowMs < state.attempt.lockedUntilMs then
            let remainSec := (state.attempt.lockedUntilMs - (guessOf call).nowMs) / 1000
            some (state.goto call (.returned (.failure (accountLocked remainSec))))
          else some { state.goto call .admitted with inFlight := insert call state.inFlight }
      | _ => none
  | .select call lookup =>
      match state.calls call with
      | .admitted =>
          match lookup with
          | .unreachable =>
              some { state.goto call (.returned (.failure "database error")) with inFlight := state.inFlight.erase call }
          | .missing => some (state.goto call (.rejected "user not found"))
          | .found storedHash => some (state.goto call (.selected storedHash))
      | _ => none
  | .verify call =>
      match state.calls call with
      | .selected storedHash =>
          if verifyPassword sha256 argon2idVerify (guessOf call).password storedHash then
            some { state.goto call .accepted with verified := insert call state.verified }
          else
            some { state.goto call (.rejected "wrong password") with
              verified := insert call state.verified
              wrong := insert call state.wrong }
      | _ => none
  | .record call =>
      match state.calls call with
      | .rejected message =>
          some { state.goto call (.returned (.failure message)) with
            attempt := recordLoginFailure state.attempt (guessOf call).nowMs
            inFlight := state.inFlight.erase call
            counted := if maxLoginFailures ≤ state.attempt.failures + 1 then ∅ else insert call state.counted }
      | _ => none
  | .reset call nowMs =>
      match state.calls call with
      | .accepted =>
          some { state.goto call (.returned .success) with
            attempt := {}
            clock := nowMs
            successes := nowMs :: state.successes
            inFlight := state.inFlight.erase call
            counted := ∅ }
      | _ => none

def machine : Machine (State Call) (Event Call) := ⟨step sha256 argon2idVerify guessOf⟩

end MuduoIm.Server.LoginLockout
