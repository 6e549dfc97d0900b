import MuduoIm.Data.Text
import MuduoIm.Server.LoginLockout

namespace MuduoIm.Server.Accounts

open MuduoIm.Data.Text MuduoIm.Transition

/-! # Accounts

The rows of `users` under any number of calls of `registerUser`, `login`,
`changePassword` and `deleteAccount`.  A call reads with one statement and
writes with a later one, so that the statements of different calls interleave.
-/

def isPasswordStrong (password : String) : Bool :=
  if password.utf8ByteSize < 8 ∨ 72 < password.utf8ByteSize then false
  else password.toList.any Char.isAlpha && password.toList.any Char.isDigit

structure Account where
  id : Int
  username : String
  password : String
  nickname : String
deriving DecidableEq, Repr

/-- The table, with its AUTO_INCREMENT counter. -/
structure Users where
  rows : List Account := []
  nextId : Int := 1
deriving DecidableEq, Repr

inductive Request where
  | registerUser (username password nickname : String)
  | login (username password : String)
  | changePassword (userId : Int) (oldPassword newPassword : String)
  | deleteAccount (userId : Int) (password : String)
deriving DecidableEq, Repr

inductive Reply where
  | failure (message : String)
  | registered (userId : Int)
  | loggedIn (userId : Int) (nickname : String)
  | success
deriving DecidableEq, Repr

inductive Phase where
  | idle
  -- the checks have passed, the statement that writes is still to come
  | checked
  | returned (reply : Reply)
deriving DecidableEq, Repr

/-- How a write ends: it is not prepared (the transaction does not begin), it
fails, it is done but its answer is lost, or it is done. -/
inductive Outcome where
  | unprepared
  | failed
  | unanswered
  | done
deriving DecidableEq, Repr

def Outcome.written : Outcome → Bool
  | .unprepared | .failed => false
  | .unanswered | .done => true

/-- What the writes have done to the table, as a history. -/
inductive Entry where
  | registered (account : Account) (password : String)
  | changed (userId : Int) (oldPassword newPassword hash : String)
  | deleted (userId : Int) (password : String)
deriving DecidableEq, Repr

/-- `collates` is the comparison of the column `username`; a hash of 64
characters without a dollar is a SHA-256 of the old format. -/
structure Library (Salt : Type) where
  collates : String → String → Bool
  sha256 : String → String
  argon2idHash : Salt → String → Option String
  argon2idVerify : String → String → Bool

namespace Library

variable {Salt : Type} (library : Library Salt)

def verifyPassword (password encoded : String) : Bool :=
  LoginLockout.verifyPassword library.sha256 library.argon2idVerify password encoded

/-- An error of the library gives the empty hash. -/
def hashPassword (salt : Salt) (password : String) : String := (library.argon2idHash salt password).getD ""

/-- VARCHAR(128) and VARCHAR(64). -/
def passwordLimit : Nat := 128

def nicknameLimit : Nat := 64

def selectByName (username : String) (users : Users) : Option Account :=
  users.rows.find? (fun row => library.collates row.username username)

def selectById (userId : Int) (users : Users) : Option Account :=
  users.rows.find? (fun row => row.id = userId)

/-- The row is refused when it repeats a unique key or has a value too long; a
hash does not end in blanks, which would be cut off. -/
def insertUser (username password nickname : String) (users : Users) : Option (Account × Users) :=
  if (∀ row ∈ users.rows, library.collates row.username username = false) ∧ password.length ≤ passwordLimit then
    (varchar nicknameLimit nickname).map fun stored =>
      let row := { id := users.nextId, username, password, nickname := stored }
      (row, { rows := row :: users.rows, nextId := users.nextId + 1 })
  else none

def updatePassword (userId : Int) (password : String) (users : Users) : Users :=
  if password.length ≤ passwordLimit then
    { users with rows := users.rows.map fun row => if row.id = userId then { row with password } else row }
  else users

def deleteUser (userId : Int) (users : Users) : Users :=
  { users with rows := users.rows.filter (fun row => row.id ≠ userId) }

/-- A call up to its first SELECT and the checks of what that finds.  `answered`
is whether the SELECT gives a result, `reached` whether there is a connection. -/
def start (users : Users) (reached answered : Bool) : Request → Phase
  | .registerUser username password _ =>
      if username = "" ∨ password = "" then .returned (.failure "username and password required")
      else if username.utf8ByteSize < 3 ∨ 32 < username.utf8ByteSize then
        .returned (.failure "username must be 3-32 characters")
      else if !isPasswordStrong password then
        .returned (.failure "password must be 8-72 characters and contain both letters and digits")
      else if !reached then .returned (.failure "database error")
      -- a SELECT that fails counts as one that finds nobody
      else if answered ∧ (library.selectByName username users).isSome then
        .returned (.failure "username already exists")
      else .checked
  | .login username password =>
      if username = "" ∨ password = "" then .returned (.failure "username and password required")
      else if !reached then .returned (.failure "database error")
      else match if answered then library.selectByName username users else none with
        | none => .returned (.failure "user not found")
        | some row =>
            if library.verifyPassword password row.password then .returned (.loggedIn row.id (cString row.nickname))
            else .returned (.failure "wrong password")
  | .changePassword userId oldPassword newPassword =>
      if !isPasswordStrong newPassword then
        .returned (.failure "new password must be 8-72 characters and contain both letters and digits")
      else if !reached then .returned (.failure "db error")
      else match if answered then selectById userId users else none with
        | none => .returned (.failure "user not found")
        | some row =>
            if library.verifyPassword oldPassword row.password then .checked
            else .returned (.failure "wrong old password")
  | .deleteAccount userId password =>
      if !reached then .returned (.failure "db error")
      else match if answered then selectById userId users else none with
        | none => .returned (.failure "user not found")
        | some row =>
            if library.verifyPassword password row.password then .checked
            else .returned (.failure "wrong password")

/-- The rest of a call: the table, what was done to it, and the reply. -/
def finish (salt : Salt) (users : Users) (outcome : Outcome) : Request → Users × Option Entry × Reply
  | .registerUser username password nickname =>
      match outcome with
      | .unprepared => (users, none, .failure "prepare failed")
      | .failed => (users, none, .failure "register failed")
      | .unanswered | .done =>
          let nick := if nickname = "" then username else nickname
          match library.insertUser username (library.hashPassword salt password) nick users with
          | none => (users, none, .failure "register failed")
          | some (row, inserted) =>
              (inserted, some (.registered row password),
                if outcome = .done then .registered row.id else .failure "register failed")
  | .login _ _ => (users, none, .success)
  | .changePassword userId oldPassword newPassword =>
      -- the result of `execute` is not looked at
      if outcome.written then
        let hash := library.hashPassword salt newPassword
        (updatePassword userId hash users,
          if hash.length ≤ passwordLimit then some (.changed userId oldPassword newPassword hash) else none, .success)
      else (users, none, .success)
  | .deleteAccount userId password =>
      match outcome with
      | .unprepared => (users, none, .failure "failed to start transaction")
      | .failed => (users, none, .failure "delete failed")
      | .unanswered => (deleteUser userId users, some (.deleted userId password), .failure "delete failed")
      | .done => (deleteUser userId users, some (.deleted userId password), .success)

end Library

/-- `log` is a history, its newest entry first. -/
structure State (Call : Type) where
  users : Users
  calls : Call → Phase := fun _ => .idle
  log : List Entry := []

/-- `locked` is a login that the lock after failures turns away. -/
inductive Event (Call : Type) where
  | start (call : Call) (reached answered : Bool)
  | locked (call : Call) (remainSec : Nat)
  | finish (call : Call) (outcome : Outcome)
deriving DecidableEq, Repr

variable {Salt Call : Type} [DecidableEq Call]

def State.goto (state : State Call) (call : Call) (phase : Phase) : State Call :=
  { state with calls := Function.update state.calls call phase }

variable (library : Library Salt) (requestOf : Call → Request) (saltOf : Call → Salt)

def step (state : State Call) : Event Call → Option (State Call)
  | .start call reached answered =>
      match state.calls call with
      | .idle => some (state.goto call (library.start state.users reached answered (requestOf call)))
      | _ => none
  | .locked call remainSec =>
      match state.calls call, requestOf call with
      | .idle, .login username password =>
          if username = "" ∨ password = "" then none
          else some (state.goto call (.returned (.failure (LoginLockout.accountLocked remainSec))))
      | _, _ => none
  | .finish call outcome =>
      match state.calls call with
      | .checked =>
          let (users, entry, reply) := library.finish (saltOf call) state.users outcome (requestOf call)
          some { state.goto call (.returned reply) with users, log := entry.toList ++ state.log }
      | _ => none

def machine : Machine (State Call) (Event Call) := ⟨step library requestOf saltOf⟩

/-! ## What a step can do -/

def Entry.apply (users : Users) : Entry → Users
  | .registered row _ => { rows := row :: users.rows, nextId := users.nextId + 1 }
  | .changed userId _ _ password =>
      { users with rows := users.rows.map fun row => if row.id = userId then { row with password } else row }
  | .deleted userId _ => { users with rows := users.rows.filter (fun row => row.id ≠ userId) }

/-- The entry that the write of a request makes, when it makes one. -/
inductive Writes (library : Library Salt) (salt : Salt) (users : Users) : Request → Entry → Prop where
  | registered {username password nickname nick : String}
      (fresh : ∀ row ∈ users.rows, library.collates row.username username = false) :
      Writes library salt users (.registerUser username password nickname)
        (.registered { id := users.nextId, username, password := library.hashPassword salt password, nickname := nick }
          password)
  | changed {userId : Int} {oldPassword newPassword : String} :
      Writes library salt users (.changePassword userId oldPassword newPassword)
        (.changed userId oldPassword newPassword (library.hashPassword salt newPassword))
  | deleted {userId : Int} {password : String} :
      Writes library salt users (.deleteAccount userId password) (.deleted userId password)

variable {library requestOf saltOf}

theorem insertUser_eq_some {users inserted : Users} {username password nickname : String} {row : Account}
    (written : library.insertUser username password nickname users = some (row, inserted)) :
    (∃ stored, row = { id := users.nextId, username, password, nickname := stored }) ∧
      (∀ row ∈ users.rows, library.collates row.username username = false) ∧
      inserted = { rows := row :: users.rows, nextId := users.nextId + 1 } := by
  unfold Library.insertUser at written
  split at written
  · rename_i accepted
    obtain ⟨stored, _, same⟩ := Option.map_eq_some_iff.mp written
    cases same
    exact ⟨⟨stored, rfl⟩, accepted.1, rfl⟩
  · cases written

variable (library) in
theorem finish_cases (salt : Salt) (users : Users) (outcome : Outcome) (request : Request) :
    ((library.finish salt users outcome request).2.1 = none ∧
        (library.finish salt users outcome request).1 = users) ∨
      ∃ entry, (library.finish salt users outcome request).2.1 = some entry ∧
        (library.finish salt users outcome request).1 = entry.apply users ∧
        Writes library salt users request entry := by
  cases request with
  | registerUser username password nickname =>
      have inserts (reply : Account → Reply) (refused : Reply) :
          let result := match library.insertUser username (library.hashPassword salt password)
              (if nickname = "" then username else nickname) users with
            | none => (users, none, refused)
            | some (row, inserted) => (inserted, some (Entry.registered row password), reply row)
          (result.2.1 = none ∧ result.1 = users) ∨ ∃ entry, result.2.1 = some entry ∧
            result.1 = entry.apply users ∧
            Writes library salt users (.registerUser username password nickname) entry := by
        cases written : library.insertUser username (library.hashPassword salt password)
            (if nickname = "" then username else nickname) users with
        | none => exact .inl ⟨rfl, rfl⟩
        | some result =>
            obtain ⟨⟨stored, row⟩, fresh, inserted⟩ := insertUser_eq_some written
            refine .inr ⟨.registered result.1 password, rfl, inserted, ?_⟩
            rw [row]
            exact .registered fresh
      cases outcome with
      | unprepared => exact .inl ⟨rfl, rfl⟩
      | failed => exact .inl ⟨rfl, rfl⟩
      | unanswered => exact inserts _ _
      | done => exact inserts _ _
  | login username password => exact .inl ⟨rfl, rfl⟩
  | changePassword userId oldPassword newPassword =>
      simp only [Library.finish]
      cases outcome.written with
      | false => exact .inl ⟨rfl, rfl⟩
      | true =>
          by_cases short : (library.hashPassword salt newPassword).length ≤ Library.passwordLimit
          · refine .inr ⟨.changed userId oldPassword newPassword (library.hashPassword salt newPassword), ?_, ?_,
              .changed⟩
            · simp [short]
            · simp [Library.updatePassword, Entry.apply, short]
          · simp [Library.updatePassword, short]
  | deleteAccount userId password =>
      cases outcome with
      | unprepared => exact .inl ⟨rfl, rfl⟩
      | failed => exact .inl ⟨rfl, rfl⟩
      | unanswered => exact .inr ⟨.deleted userId password, rfl, rfl, .deleted⟩
      | done => exact .inr ⟨.deleted userId password, rfl, rfl, .deleted⟩

theorem step_cases {state next : State Call} {event : Event Call}
    (stepped : step library requestOf saltOf state event = some next) :
    (∃ call reached answered, state.calls call = .idle ∧
      next = state.goto call (library.start state.users reached answered (requestOf call))) ∨
    (∃ call reply, next = state.goto call (.returned reply)) ∨
    ∃ call reply entry, state.calls call = .checked ∧
      Writes library (saltOf call) state.users (requestOf call) entry ∧
      next = { state.goto call (.returned reply) with users := entry.apply state.users, log := entry :: state.log } := by
  cases event with
  | start call reached answered =>
      dsimp only [step] at stepped
      split at stepped
      · rename_i idle
        cases stepped
        exact .inl ⟨call, reached, answered, idle, rfl⟩
      · cases stepped
  | locked call remainSec =>
      dsimp only [step] at stepped
      split at stepped
      · split at stepped
        · cases stepped
        · cases stepped
          exact .inr (.inl ⟨call, _, rfl⟩)
      · cases stepped
  | finish call outcome =>
      dsimp only [step] at stepped
      split at stepped
      · rename_i checked
        cases stepped
        obtain kept | wrote := finish_cases library (saltOf call) state.users outcome (requestOf call)
        · refine .inr (.inl ⟨call, (library.finish (saltOf call) state.users outcome (requestOf call)).2.2, ?_⟩)
          rw [kept.1, kept.2]
          rfl
        · obtain ⟨entry, entered, applied, writes⟩ := wrote
          refine .inr (.inr ⟨call, (library.finish (saltOf call) state.users outcome (requestOf call)).2.2, entry,
            checked, writes, ?_⟩)
          rw [entered, applied]
          rfl
      · cases stepped

end MuduoIm.Server.Accounts
