import MuduoIm.Server.Accounts

namespace MuduoIm.Server.Accounts

open MuduoIm.Transition

variable {Salt Call : Type} [DecidableEq Call]
variable {library : Library Salt} {requestOf : Call → Request} {saltOf : Call → Salt}

/-- What the keys of the table and the checks of `registerUser` guarantee. -/
structure Keyed (library : Library Salt) (users : Users) : Prop where
  ids : users.rows.Pairwise (fun newer older => newer.id ≠ older.id)
  usernames : users.rows.Pairwise (fun newer older => library.collates older.username newer.username = false)
  counter : ∀ row ∈ users.rows, row.id < users.nextId
  lengths : ∀ row ∈ users.rows, 3 ≤ row.username.utf8ByteSize ∧ row.username.utf8ByteSize ≤ 32

/-- How an account came by a hash: it had it from the start, it was registered
with it, or somebody who knew the password of an earlier hash changed it. -/
inductive Custody (library : Library Salt) (initial : List Account) (log : List Entry) : Int → String → Prop where
  | original {row : Account} (member : row ∈ initial) : Custody library initial log row.id row.password
  | registered {row : Account} {password : String} {salt : Salt}
      (written : .registered row password ∈ log) (strong : isPasswordStrong password = true)
      (hashed : row.password = library.hashPassword salt password) :
      Custody library initial log row.id row.password
  | changed {userId : Int} {before oldPassword newPassword hash : String} {salt : Salt}
      (earlier : Custody library initial log userId before)
      (known : library.verifyPassword oldPassword before = true)
      (written : .changed userId oldPassword newPassword hash ∈ log)
      (strong : isPasswordStrong newPassword = true)
      (hashed : hash = library.hashPassword salt newPassword) :
      Custody library initial log userId hash

/-- The password opens a hash that the account has had. -/
def Opens (library : Library Salt) (initial : List Account) (log : List Entry) (userId : Int)
    (password : String) : Prop :=
  ∃ hash, Custody library initial log userId hash ∧ library.verifyPassword password hash = true

/-- The account was there at the start or has been registered. -/
def Existed (initial : List Account) (log : List Entry) (userId : Int) : Prop :=
  (∃ row ∈ initial, row.id = userId) ∨ ∃ row password, .registered row password ∈ log ∧ row.id = userId

/-- What a call has checked before it writes. -/
def Cleared (library : Library Salt) (initial : List Account) (log : List Entry) : Request → Prop
  | .registerUser username password _ =>
      isPasswordStrong password = true ∧ 3 ≤ username.utf8ByteSize ∧ username.utf8ByteSize ≤ 32
  | .login _ _ => False
  | .changePassword userId oldPassword newPassword =>
      isPasswordStrong newPassword = true ∧ Opens library initial log userId oldPassword
  | .deleteAccount userId password => Opens library initial log userId password

structure Guarded (library : Library Salt) (requestOf : Call → Request) (initial : List Account)
    (state : State Call) : Prop where
  keyed : Keyed library state.users
  custody : ∀ row ∈ state.users.rows, Custody library initial state.log row.id row.password
  remains : ∀ userId, Existed initial state.log userId →
    (∃ row ∈ state.users.rows, row.id = userId) ∨
      ∃ password, .deleted userId password ∈ state.log ∧ Opens library initial state.log userId password
  cleared : ∀ call, state.calls call = .checked → Cleared library initial state.log (requestOf call)

variable {initial : List Account} {log : List Entry} {users : Users} {state next : State Call}
variable {userId : Int} {hash password : String} {request : Request}

/-! ## A longer log -/

theorem Custody.append (entries : List Entry) (custody : Custody library initial log userId hash) :
    Custody library initial (entries ++ log) userId hash := by
  induction custody with
  | original member => exact .original member
  | registered written strong hashed => exact .registered (List.mem_append_right entries written) strong hashed
  | changed _ known written strong hashed ih =>
      exact .changed ih known (List.mem_append_right entries written) strong hashed

theorem Opens.append (entries : List Entry) (opens : Opens library initial log userId password) :
    Opens library initial (entries ++ log) userId password := by
  obtain ⟨hash, custody, known⟩ := opens
  exact ⟨hash, custody.append entries, known⟩

theorem Cleared.append (entries : List Entry) (cleared : Cleared library initial log request) :
    Cleared library initial (entries ++ log) request := by
  cases request with
  | registerUser username password nickname => exact cleared
  | login username password => exact cleared
  | changePassword userId oldPassword newPassword => exact ⟨cleared.1, cleared.2.append entries⟩
  | deleteAccount userId password => exact Opens.append entries cleared

/-! ## Before the write -/

theorem selectById_eq_some {row : Account} (found : Library.selectById userId users = some row) :
    row ∈ users.rows ∧ row.id = userId := by
  have selected := List.find?_some found
  exact ⟨List.mem_of_find?_eq_some found, of_decide_eq_true selected⟩

/-- The row that a call selects by its id, and the password that it verifies. -/
theorem opens_of_selected {row : Account} {answered : Bool}
    (custody : ∀ row ∈ users.rows, Custody library initial log row.id row.password)
    (selected : (if answered then Library.selectById userId users else none) = some row)
    (known : library.verifyPassword password row.password = true) :
    Opens library initial log userId password := by
  cases answered with
  | false => cases selected
  | true =>
      obtain ⟨member, same⟩ := selectById_eq_some selected
      rw [← same]
      exact ⟨row.password, custody row member, known⟩

theorem start_cleared {reached answered : Bool}
    (custody : ∀ row ∈ users.rows, Custody library initial log row.id row.password)
    (passed : library.start users reached answered request = .checked) :
    Cleared library initial log request := by
  cases request with
  | registerUser username password nickname =>
      simp only [Library.start] at passed
      split at passed
      · cases passed
      · split at passed
        · cases passed
        · rename_i sized
          split at passed
          · cases passed
          · rename_i strong
            refine ⟨by simpa using strong, ?_⟩
            omega
  | login username password =>
      simp only [Library.start] at passed
      repeat' split at passed
      all_goals cases passed
  | changePassword userId oldPassword newPassword =>
      simp only [Library.start] at passed
      split at passed
      · cases passed
      · rename_i strong
        split at passed
        · cases passed
        · split at passed
          · cases passed
          · rename_i row selected
            split at passed
            · rename_i known
              exact ⟨by simpa using strong, opens_of_selected custody selected known⟩
            · cases passed
  | deleteAccount userId password =>
      simp only [Library.start] at passed
      split at passed
      · cases passed
      · split at passed
        · cases passed
        · rename_i row selected
          split at passed
          · rename_i known
            exact opens_of_selected custody selected known
          · cases passed

/-! ## The write -/

variable {salt : Salt} {entry : Entry}

theorem Writes.keyed (writes : Writes library salt users request entry)
    (cleared : Cleared library initial log request) (keyed : Keyed library users) :
    Keyed library (entry.apply users) := by
  cases writes with
  | registered fresh =>
      refine ⟨List.pairwise_cons.mpr ⟨fun row member => ?_, keyed.ids⟩,
        List.pairwise_cons.mpr ⟨fun row member => fresh row member, keyed.usernames⟩, ?_, ?_⟩
      · have issued := keyed.counter row member
        dsimp only
        omega
      · intro row member
        obtain same | older := List.mem_cons.mp member
        · rw [same]
          exact Int.lt_add_one_of_le (Int.le_refl _)
        · exact Int.lt_add_one_of_le (Int.le_of_lt (keyed.counter row older))
      · intro row member
        obtain same | older := List.mem_cons.mp member
        · rw [same]
          exact cleared.2
        · exact keyed.lengths row older
  | @changed userId oldPassword newPassword =>
      have kept : ∀ row ∈ (Entry.apply users (.changed userId oldPassword newPassword
          (library.hashPassword salt newPassword))).rows,
          ∃ old ∈ users.rows, old.id = row.id ∧ old.username = row.username := by
        intro row member
        obtain ⟨old, present, same⟩ := List.mem_map.mp member
        refine ⟨old, present, ?_⟩
        rw [← same]
        split <;> exact ⟨rfl, rfl⟩
      refine ⟨List.pairwise_map.mpr (keyed.ids.imp ?_), List.pairwise_map.mpr (keyed.usernames.imp ?_), ?_, ?_⟩
      · intro newer older different
        split <;> split <;> exact different
      · intro newer older different
        split <;> split <;> exact different
      · intro row member
        obtain ⟨old, present, same, _⟩ := kept row member
        rw [← same]
        exact keyed.counter old present
      · intro row member
        obtain ⟨old, present, _, same⟩ := kept row member
        rw [← same]
        exact keyed.lengths old present
  | @deleted userId password =>
      have kept : (Entry.apply users (.deleted userId password)).rows.Sublist users.rows := List.filter_sublist
      exact ⟨keyed.ids.sublist kept, keyed.usernames.sublist kept,
        fun row member => keyed.counter row (kept.subset member),
        fun row member => keyed.lengths row (kept.subset member)⟩

theorem Writes.custody (writes : Writes library salt users request entry)
    (cleared : Cleared library initial log request)
    (custody : ∀ row ∈ users.rows, Custody library initial log row.id row.password) :
    ∀ row ∈ (entry.apply users).rows, Custody library initial (entry :: log) row.id row.password := by
  intro row member
  cases writes with
  | registered fresh =>
      obtain same | older := List.mem_cons.mp member
      · rw [same]
        exact .registered List.mem_cons_self cleared.1 rfl
      · exact (custody row older).append [_]
  | changed =>
      obtain ⟨old, present, same⟩ := List.mem_map.mp member
      rw [← same]
      split
      · rename_i meant
        obtain ⟨strong, before, earlier, known⟩ := cleared
        dsimp only
        rw [meant]
        exact .changed (earlier.append [_]) known List.mem_cons_self strong rfl
      · exact (custody old present).append [_]
  | deleted => exact (custody row (List.mem_of_mem_filter member)).append [_]

/-- An account that the write takes away was opened by the password of the call. -/
theorem Writes.remains (writes : Writes library salt users request entry)
    (cleared : Cleared library initial log request)
    (remains : ∀ userId, Existed initial log userId → (∃ row ∈ users.rows, row.id = userId) ∨
      ∃ password, .deleted userId password ∈ log ∧ Opens library initial log userId password) :
    ∀ userId, Existed initial (entry :: log) userId → (∃ row ∈ (entry.apply users).rows, row.id = userId) ∨
      ∃ password, .deleted userId password ∈ entry :: log ∧
        Opens library initial (entry :: log) userId password := by
  intro userId existed
  have before (earlier : Existed initial log userId) : (∃ row ∈ users.rows, row.id = userId) ∨
      ∃ password, .deleted userId password ∈ entry :: log ∧
        Opens library initial (entry :: log) userId password := by
    obtain present | ⟨password, deleted, opens⟩ := remains userId earlier
    · exact .inl present
    · exact .inr ⟨password, List.mem_cons_of_mem _ deleted, opens.append [_]⟩
  cases writes with
  | registered fresh =>
      by_cases new : userId = users.nextId
      · exact .inl ⟨_, List.mem_cons_self, new.symm⟩
      · have earlier : Existed initial log userId := by
          obtain original | ⟨row, password, written, same⟩ := existed
          · exact .inl original
          · obtain fromNow | older := List.mem_cons.mp written
            · cases fromNow
              exact absurd same.symm new
            · exact .inr ⟨row, password, older, same⟩
        obtain ⟨row, present, same⟩ | removed := before earlier
        · exact .inl ⟨row, List.mem_cons_of_mem _ present, same⟩
        · exact .inr removed
  | changed =>
      have earlier : Existed initial log userId := by simpa [Existed] using existed
      obtain ⟨row, present, same⟩ | removed := before earlier
      · refine .inl ⟨_, List.mem_map_of_mem present, ?_⟩
        split <;> exact same
      · exact .inr removed
  | deleted =>
      rename_i target password
      have earlier : Existed initial log userId := by simpa [Existed] using existed
      obtain ⟨row, present, same⟩ | removed := before earlier
      · by_cases meant : row.id = target
        · refine .inr ⟨password, ?_, ?_⟩
          · rw [← same, meant]
            exact List.mem_cons_self
          · rw [← same, meant]
            exact Opens.append [_] cleared
        · exact .inl ⟨row, List.mem_filter.mpr ⟨present, decide_eq_true meant⟩, same⟩
      · exact .inr removed

/-! ## Runs -/

theorem Guarded.goto {call : Call} {phase : Phase} (guarded : Guarded library requestOf initial state)
    (allowed : phase = .checked → Cleared library initial state.log (requestOf call)) :
    Guarded library requestOf initial (state.goto call phase) where
  keyed := guarded.keyed
  custody := guarded.custody
  remains := guarded.remains
  cleared other checked := by
    simp only [State.goto, Function.update_apply] at checked
    split at checked
    · rename_i same
      rw [same]
      exact allowed checked
    · exact guarded.cleared other checked

theorem step_guarded {event : Event Call} (guarded : Guarded library requestOf initial state)
    (stepped : step library requestOf saltOf state event = some next) :
    Guarded library requestOf initial next := by
  obtain ⟨call, reached, answered, _, rfl⟩ | ⟨call, reply, rfl⟩ | ⟨call, reply, entry, checked, writes, rfl⟩ :=
    step_cases stepped
  · exact guarded.goto fun passed => start_cleared guarded.custody passed
  · exact guarded.goto fun passed => by cases passed
  · have cleared := guarded.cleared call checked
    refine ⟨writes.keyed cleared guarded.keyed, writes.custody cleared guarded.custody,
      writes.remains cleared guarded.remains, ?_⟩
    have answered : Guarded library requestOf initial (state.goto call (.returned reply)) :=
      guarded.goto fun passed => by cases passed
    exact fun other passed => (answered.cleared other passed).append [entry]

omit [DecidableEq Call] in
theorem Keyed.guarded {rows : List Account} {nextId : Int} (keyed : Keyed library { rows, nextId }) :
    Guarded library requestOf rows ({ users := { rows, nextId } } : State Call) where
  keyed := keyed
  custody _ member := .original member
  remains userId existed := by
    obtain original | ⟨_, _, written, _⟩ := existed
    · exact .inl original
    · cases written
  cleared _ checked := by cases checked

/-- In every interleaving of registrations, logins, password changes and
deletions no two accounts share an id or a username, every hash in the table
goes back, through passwords that were known when they were used, to the
registration of its account, and no account is gone that was not deleted by
somebody who knew such a password. -/
theorem accounts_guarded (rows : List Account) (nextId : Int) (keyed : Keyed library { rows, nextId })
    (events : List (Event Call)) :
    (machine library requestOf saltOf).Always (Guarded library requestOf rows)
      { users := { rows, nextId } } events :=
  Machine.always_of_step _ keyed.guarded fun _ _ _ held stepped => step_guarded held stepped

/-- A hash that shows the password, after a dollar. -/
def plainLibrary : Library Unit where
  collates left right := decide (left = right)
  sha256 text := text
  argon2idHash _ password := some ("$" ++ password)
  argon2idVerify encoded password := decide (encoded = "$" ++ password)

/-- Bob registers while Alice changes her password. -/
def bobAndAliceRequestOf : Bool → Request
  | true => .registerUser "bob" "secret123" ""
  | false => .changePassword 1 "letmein1" "another22"

theorem bobAndAlice_guarded :
    (machine plainLibrary bobAndAliceRequestOf (fun _ => ())).Always
      (Guarded plainLibrary bobAndAliceRequestOf
        [{ id := 1, username := "alice", password := "$letmein1", nickname := "Alice" }])
      { users := { rows := [{ id := 1, username := "alice", password := "$letmein1", nickname := "Alice" }],
                   nextId := 2 } }
      [.start true true true, .start false true true, .finish false .done, .finish true .done] :=
  accounts_guarded _ _ ⟨by simp, by simp, by simp, by decide⟩ _

end MuduoIm.Server.Accounts
