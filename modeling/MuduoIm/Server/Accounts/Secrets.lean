import MuduoIm.Server.Accounts.Custody

namespace MuduoIm.Server.Accounts

open MuduoIm.Data.Text MuduoIm.Transition

variable {Salt Call : Type} [DecidableEq Call]
variable {library : Library Salt} {requestOf : Call → Request} {saltOf : Call → Salt}

/-- What the server relies on: a hash opens with its password only, and has a
dollar, and the collation compares like an equality. -/
structure Library.Faithful (library : Library Salt) : Prop where
  verifies : ∀ salt password hash, library.argon2idHash salt password = some hash →
    ∀ other, library.argon2idVerify hash other = true ↔ other = password
  marked : ∀ salt password hash, library.argon2idHash salt password = some hash → '$' ∈ hash.toList
  collation : Equivalence fun left right => library.collates left right = true

def Entry.userId : Entry → Int
  | .registered row _ => row.id
  | .changed userId _ _ _ => userId
  | .deleted userId _ => userId

/-- The password that was last set for an account; `none` when its hash failed. -/
def secretOf (userId : Int) : List Entry → Option String
  | [] => none
  | .registered row password :: earlier =>
      if row.id = userId then if row.password = "" then none else some password else secretOf userId earlier
  | .changed target _ newPassword hash :: earlier =>
      if target = userId then if hash = "" then none else some newPassword else secretOf userId earlier
  | .deleted _ _ :: earlier => secretOf userId earlier

/-- The account has been registered so and not been deleted. -/
def OpenAs (log : List Entry) (userId : Int) (username nickname : String) : Prop :=
  (∃ row password, .registered row password ∈ log ∧ row.id = userId ∧ row.username = username ∧
    row.nickname = nickname) ∧ ∀ password, .deleted userId password ∉ log

def HasRow (users : Users) (userId : Int) (username nickname : String) : Prop :=
  ∃ row ∈ users.rows, row.id = userId ∧ row.username = username ∧ row.nickname = nickname

/-- The account that a call that has passed its checks writes to. -/
def Request.target : Request → Option Int
  | .registerUser _ _ _ | .login _ _ => none
  | .changePassword userId _ _ => some userId
  | .deleteAccount userId _ => some userId

/-- The table says of every account what the log says. -/
structure Reflects (library : Library Salt) (requestOf : Call → Request) (state : State Call) : Prop where
  issued : ∀ entry ∈ state.log, entry.userId < state.users.nextId
  awaited : ∀ call, state.calls call = .checked →
    ∀ userId ∈ (requestOf call).target, userId < state.users.nextId
  rows : ∀ userId username nickname,
    HasRow state.users userId username nickname ↔ OpenAs state.log userId username nickname
  secrets : ∀ row ∈ state.users.rows, ∀ password,
    library.verifyPassword password row.password = true ↔ secretOf row.id state.log = some password

variable {log : List Entry} {users : Users} {state next : State Call}
variable {userId : Int} {username nickname password : String} {request : Request} {salt : Salt} {entry : Entry}

theorem verifyPassword_hashPassword (faithful : library.Faithful) (salt : Salt) (password other : String) :
    library.verifyPassword other (library.hashPassword salt password) = true ↔
      (if library.hashPassword salt password = "" then none else some password) = some other := by
  unfold Library.verifyPassword LoginLockout.verifyPassword
  cases hashed : library.argon2idHash salt password with
  | none => simp [Library.hashPassword, hashed]
  | some hash =>
      have marked := faithful.marked salt password hash hashed
      have nonempty : hash ≠ "" := by
        intro empty
        rw [empty] at marked
        cases marked
      have opens := faithful.verifies salt password hash hashed other
      simp [Library.hashPassword, hashed, nonempty, marked, opens, eq_comm]

/-! ## The write -/

theorem Writes.issued (writes : Writes library salt users request entry)
    (issued : ∀ entry ∈ log, entry.userId < users.nextId)
    (awaited : ∀ userId ∈ request.target, userId < users.nextId) :
    users.nextId ≤ (entry.apply users).nextId ∧
      ∀ member ∈ entry :: log, member.userId < (entry.apply users).nextId := by
  have counter : users.nextId ≤ (entry.apply users).nextId ∧ entry.userId < (entry.apply users).nextId := by
    cases writes with
    | registered fresh => simp only [Entry.apply, Entry.userId]; omega
    | changed => exact ⟨Int.le_refl _, awaited _ rfl⟩
    | deleted => exact ⟨Int.le_refl _, awaited _ rfl⟩
  refine ⟨counter.1, fun member among => ?_⟩
  obtain same | older := List.mem_cons.mp among
  · rw [same]
    exact counter.2
  · exact Int.lt_of_lt_of_le (issued member older) counter.1

theorem hasRow_registered {row : Account} :
    HasRow (Entry.apply users (.registered row password)) userId username nickname ↔
      (row.id = userId ∧ row.username = username ∧ row.nickname = nickname) ∨
        HasRow users userId username nickname := by
  simp only [HasRow, Entry.apply, List.mem_cons, or_and_right, exists_or, exists_eq_left]

theorem openAs_registered {row : Account} :
    OpenAs (.registered row password :: log) userId username nickname ↔
      ((row.id = userId ∧ row.username = username ∧ row.nickname = nickname) ∨
        ∃ row password, .registered row password ∈ log ∧ row.id = userId ∧ row.username = username ∧
          row.nickname = nickname) ∧ ∀ password, .deleted userId password ∉ log := by
  simp only [OpenAs, List.mem_cons, Entry.registered.injEq, reduceCtorEq, false_or, or_and_right, exists_or,
    and_assoc, exists_and_left, exists_eq_left]

theorem Writes.rows (writes : Writes library salt users request entry)
    (issued : ∀ entry ∈ log, entry.userId < users.nextId)
    (rows : ∀ userId username nickname, HasRow users userId username nickname ↔ OpenAs log userId username nickname)
    (userId : Int) (username nickname : String) :
    HasRow (entry.apply users) userId username nickname ↔ OpenAs (entry :: log) userId username nickname := by
  have before := rows userId username nickname
  cases writes with
  | @registered name password nick given fresh =>
      rw [hasRow_registered, openAs_registered, before, OpenAs]
      by_cases new : users.nextId = userId
      · have unknown (entry : Entry) (member : entry ∈ log) : entry.userId ≠ userId := by
          have older := issued entry member
          omega
        have kept (password : String) : .deleted userId password ∉ log := fun member => unknown _ member rfl
        simp only [kept, not_false_eq_true, implies_true, and_true]
      · simp only [new, false_and, false_or]
  | @changed target oldPassword newPassword =>
      have same : OpenAs (.changed target oldPassword newPassword (library.hashPassword salt newPassword) :: log)
          userId username nickname ↔ OpenAs log userId username nickname := by
        simp [OpenAs]
      rw [same, ← before]
      simp only [HasRow, Entry.apply, List.mem_map, exists_exists_and_eq_and]
      refine exists_congr fun row => and_congr_right' ?_
      split <;> rfl
  | @deleted target password =>
      by_cases meant : userId = target
      · refine iff_of_false ?_ fun opened => opened.2 password (by rw [meant]; exact List.mem_cons_self)
        intro present
        obtain ⟨row, member, same, _⟩ := present
        exact of_decide_eq_true (List.mem_filter.mp member).2 (same.trans meant)
      · have same : OpenAs (.deleted target password :: log) userId username nickname ↔
            OpenAs log userId username nickname := by
          simp [OpenAs, meant]
        rw [same, ← before]
        simp only [HasRow, Entry.apply, List.mem_filter, decide_eq_true_eq, and_assoc]
        refine exists_congr fun row => and_congr_right' ⟨And.right, fun known => ⟨?_, known⟩⟩
        rw [known.1]
        exact meant

theorem Writes.secrets (faithful : library.Faithful) (writes : Writes library salt users request entry)
    (keyed : Keyed library users)
    (secrets : ∀ row ∈ users.rows, ∀ password,
      library.verifyPassword password row.password = true ↔ secretOf row.id log = some password) :
    ∀ row ∈ (entry.apply users).rows, ∀ password,
      library.verifyPassword password row.password = true ↔ secretOf row.id (entry :: log) = some password := by
  intro row member other
  cases writes with
  | registered fresh =>
      obtain same | older := List.mem_cons.mp member
      · rw [same, secretOf, if_pos rfl]
        exact verifyPassword_hashPassword faithful _ _ _
      · have issued := keyed.counter row older
        rw [secretOf, if_neg (by dsimp only; omega)]
        exact secrets row older other
  | @changed target _ _ =>
      obtain ⟨old, present, same⟩ := List.mem_map.mp member
      rw [← same, secretOf]
      by_cases meant : old.id = target
      · rw [if_pos meant, if_pos meant.symm]
        exact verifyPassword_hashPassword faithful _ _ _
      · rw [if_neg meant, if_neg (Ne.symm meant)]
        exact secrets old present other
  | deleted => exact secrets row (List.mem_of_mem_filter member) other

/-! ## Runs -/

/-- A call that writes to an account has selected it. -/
theorem start_awaited {reached answered : Bool} (keyed : Keyed library users)
    (passed : library.start users reached answered request = .checked) :
    ∀ userId ∈ request.target, userId < users.nextId := by
  have selected {userId : Int} {row : Account}
      (found : (if answered then Library.selectById userId users else none) = some row) :
      userId < users.nextId := by
    cases answered with
    | false => cases found
    | true =>
        obtain ⟨member, same⟩ := selectById_eq_some found
        rw [← same]
        exact keyed.counter row member
  intro userId target
  cases request with
  | registerUser username password nickname => cases target
  | login username password => cases target
  | changePassword meant oldPassword newPassword =>
      cases target
      simp only [Library.start] at passed
      repeat' split at passed
      all_goals try cases passed
      rename_i row found known
      exact selected found
  | deleteAccount meant password =>
      cases target
      simp only [Library.start] at passed
      repeat' split at passed
      all_goals try cases passed
      rename_i row found known
      exact selected found

theorem Reflects.goto {call : Call} {phase : Phase} (reflects : Reflects library requestOf state)
    (allowed : phase = .checked → ∀ userId ∈ (requestOf call).target, userId < state.users.nextId) :
    Reflects library requestOf (state.goto call phase) where
  issued := reflects.issued
  rows := reflects.rows
  secrets := reflects.secrets
  awaited other checked := by
    simp only [State.goto, Function.update_apply] at checked
    split at checked
    · rename_i same
      rw [same]
      exact allowed checked
    · exact reflects.awaited other checked

theorem step_reflects {event : Event Call} (faithful : library.Faithful)
    (guarded : Guarded library requestOf [] state) (reflects : Reflects library requestOf state)
    (stepped : step library requestOf saltOf state event = some next) : Reflects library requestOf next := by
  obtain ⟨call, reached, answered, _, rfl⟩ | ⟨call, reply, rfl⟩ | ⟨call, reply, entry, checked, writes, rfl⟩ :=
    step_cases stepped
  · exact reflects.goto fun passed => start_awaited guarded.keyed passed
  · exact reflects.goto fun passed => by cases passed
  · obtain ⟨counter, issued⟩ := writes.issued reflects.issued (reflects.awaited call checked)
    refine ⟨issued, ?_, writes.rows reflects.issued reflects.rows,
      writes.secrets faithful guarded.keyed reflects.secrets⟩
    have answered : Reflects library requestOf (state.goto call (.returned reply)) :=
      reflects.goto fun passed => by cases passed
    exact fun other passed userId target => Int.lt_of_lt_of_le (answered.awaited other passed userId target) counter

theorem run_reflects (faithful : library.Faithful) {events : List (Event Call)} {after : State Call}
    (completed : (machine library requestOf saltOf).run { users := {} } events = some after) :
    Guarded library requestOf [] after ∧ Reflects library requestOf after := by
  have keyed : Keyed library {} :=
    ⟨.nil, .nil, List.forall_mem_nil _, List.forall_mem_nil _⟩
  have guarded : Guarded library requestOf [] ({ users := {} } : State Call) := keyed.guarded
  have reflects : Reflects library requestOf ({ users := {} } : State Call) :=
    { issued := fun _ member => by cases member
      awaited := fun _ checked => by cases checked
      rows := fun userId username nickname => by simp [HasRow, OpenAs]
      secrets := fun _ member => by cases member }
  have always : (machine library requestOf saltOf).Always
      (fun state => Guarded library requestOf [] state ∧ Reflects library requestOf state) { users := {} } events :=
    Machine.always_of_step _ ⟨guarded, reflects⟩ fun _ _ _ held stepped =>
      ⟨step_guarded held.1 stepped, step_reflects faithful held.1 held.2 stepped⟩
  exact always.atEnd completed

/-! ## What the requests check -/

/-- Two rows that share a key are one. -/
theorem row_unique {rows : List Account} {shared : Account → Account → Prop}
    (apart : rows.Pairwise fun newer older => ¬ shared older newer)
    (symmetric : ∀ left right, shared left right → shared right left)
    {left right : Account} (leftIn : left ∈ rows) (rightIn : right ∈ rows) (same : shared left right) :
    left = right := by
  have forward : rows.Pairwise fun newer older => shared newer older → newer = older :=
    apart.imp fun different together => absurd (symmetric _ _ together) different
  have backward : rows.Pairwise (flip fun newer older => shared newer older → newer = older) :=
    apart.imp fun different together => absurd together different
  exact List.Pairwise.forall_of_forall_of_flip (fun _ _ _ => rfl) forward backward leftIn rightIn same

theorem selectByName_eq_some (faithful : library.Faithful) (keyed : Keyed library users) {row : Account} :
    library.selectByName username users = some row ↔
      row ∈ users.rows ∧ library.collates row.username username = true := by
  constructor
  · intro found
    have collates := List.find?_some found
    exact ⟨List.mem_of_find?_eq_some found, collates⟩
  · intro given
    obtain ⟨member, collates⟩ := given
    cases found : library.selectByName username users with
    | none =>
        have absent := List.find?_eq_none.mp found row member
        exact absurd collates absent
    | some other =>
        have both := List.find?_some found
        have same := faithful.collation.trans collates (faithful.collation.symm both)
        have apart : users.rows.Pairwise fun newer older => ¬ library.collates older.username newer.username = true :=
          keyed.usernames.imp fun different => by simp [different]
        exact congrArg some (row_unique apart (fun _ _ => faithful.collation.symm)
          (List.mem_of_find?_eq_some found) member (faithful.collation.symm same))

theorem selectById_iff (keyed : Keyed library users) {row : Account} :
    Library.selectById userId users = some row ↔ row ∈ users.rows ∧ row.id = userId := by
  constructor
  · exact selectById_eq_some
  · intro given
    obtain ⟨member, same⟩ := given
    cases found : Library.selectById userId users with
    | none =>
        have absent := List.find?_eq_none.mp found row member
        exact absurd (decide_eq_true same) absent
    | some other =>
        obtain ⟨among, meant⟩ := selectById_eq_some found
        have apart : users.rows.Pairwise fun newer older => ¬ older.id = newer.id :=
          keyed.ids.imp fun different same => different same.symm
        exact congrArg some (row_unique apart (fun _ _ => Eq.symm) among member (meant.trans same.symm))

/-- The password is the one last set for an account that is open. -/
def Admits (log : List Entry) (userId : Int) (password : String) : Prop :=
  (∃ username nickname, OpenAs log userId username nickname) ∧ secretOf userId log = some password

omit [DecidableEq Call] in
theorem admits_iff (keyed : Keyed library state.users) (reflects : Reflects library requestOf state) :
    (∃ row, Library.selectById userId state.users = some row ∧
      library.verifyPassword password row.password = true) ↔ Admits state.log userId password := by
  have rows : (∃ row ∈ state.users.rows, row.id = userId) ↔
      ∃ username nickname, OpenAs state.log userId username nickname := by
    simp only [← reflects.rows, HasRow]
    constructor
    · intro given
      obtain ⟨row, member, same⟩ := given
      exact ⟨row.username, row.nickname, row, member, same, rfl, rfl⟩
    · intro given
      obtain ⟨_, _, row, member, same, _⟩ := given
      exact ⟨row, member, same⟩
  rw [Admits, ← rows]
  constructor
  · intro given
    obtain ⟨row, selected, known⟩ := given
    obtain ⟨member, same⟩ := (selectById_iff keyed).mp selected
    rw [← same]
    exact ⟨⟨row, member, rfl⟩, (reflects.secrets row member password).mp known⟩
  · intro given
    obtain ⟨⟨row, member, same⟩, secret⟩ := given
    refine ⟨row, (selectById_iff keyed).mpr ⟨member, same⟩, (reflects.secrets row member password).mpr ?_⟩
    rw [same]
    exact secret

theorem login_succeeds {shown : String} : library.start users true true (.login username password) =
    .returned (.loggedIn userId shown) ↔ username ≠ "" ∧ password ≠ "" ∧
      ∃ row, library.selectByName username users = some row ∧
        library.verifyPassword password row.password = true ∧ row.id = userId ∧ cString row.nickname = shown := by
  simp only [Library.start, Bool.not_true, Bool.false_eq_true, if_false, if_true]
  by_cases blank : username = "" ∨ password = ""
  · rw [if_pos blank]
    refine iff_of_false (by simp) fun given => ?_
    obtain nameless | unguarded := blank
    · exact given.1 nameless
    · exact given.2.1 unguarded
  · rw [if_neg blank]
    obtain ⟨named, given⟩ := not_or.mp blank
    cases library.selectByName username users with
    | none => simp
    | some row =>
        cases known : library.verifyPassword password row.password with
        | false => simp [known]
        | true => simp [known, named, given]

theorem changePassword_checked {oldPassword newPassword : String} :
    library.start users true true (.changePassword userId oldPassword newPassword) = .checked ↔
      isPasswordStrong newPassword = true ∧ ∃ row, Library.selectById userId users = some row ∧
        library.verifyPassword oldPassword row.password = true := by
  simp only [Library.start, Bool.not_true, Bool.false_eq_true, if_false, if_true]
  cases isPasswordStrong newPassword with
  | false => simp
  | true =>
      cases Library.selectById userId users with
      | none => simp
      | some row => simp

theorem deleteAccount_checked :
    library.start users true true (.deleteAccount userId password) = .checked ↔
      ∃ row, Library.selectById userId users = some row ∧ library.verifyPassword password row.password = true := by
  simp only [Library.start, Bool.not_true, Bool.false_eq_true, if_false, if_true]
  cases Library.selectById userId users with
  | none => simp
  | some row => simp

/-- Whatever has run before, a login that no lock turns away, a password change
and a deletion, each with a connection and an answer to its SELECT, pass their
checks exactly for an account that has been registered and not been deleted,
with the password that was last set for it. -/
theorem requests_admitted (faithful : library.Faithful) (events : List (Event Call)) (after : State Call)
    (completed : (machine library requestOf saltOf).run { users := {} } events = some after) :
    (∀ username password userId shown,
      library.start after.users true true (.login username password) = .returned (.loggedIn userId shown) ↔
        username ≠ "" ∧ password ≠ "" ∧ secretOf userId after.log = some password ∧
          ∃ name nickname, OpenAs after.log userId name nickname ∧ library.collates name username = true ∧
            cString nickname = shown) ∧
    (∀ userId oldPassword newPassword,
      library.start after.users true true (.changePassword userId oldPassword newPassword) = .checked ↔
        isPasswordStrong newPassword = true ∧ Admits after.log userId oldPassword) ∧
    (∀ userId password,
      library.start after.users true true (.deleteAccount userId password) = .checked ↔
        Admits after.log userId password) := by
  obtain ⟨guarded, reflects⟩ := run_reflects faithful completed
  refine ⟨fun username password userId shown => ?_, fun userId oldPassword newPassword => ?_,
    fun userId password => ?_⟩
  · rw [login_succeeds]
    refine and_congr_right' (and_congr_right' ?_)
    simp only [selectByName_eq_some faithful guarded.keyed, ← reflects.rows, HasRow]
    constructor
    · intro given
      obtain ⟨row, ⟨member, collates⟩, known, rfl, rfl⟩ := given
      exact ⟨(reflects.secrets row member password).mp known, row.username, row.nickname,
        ⟨row, member, rfl, rfl, rfl⟩, collates, rfl⟩
    · intro given
      obtain ⟨secret, name, nickname, ⟨row, member, rfl, rfl, rfl⟩, collates, rfl⟩ := given
      exact ⟨row, ⟨member, collates⟩, (reflects.secrets row member password).mpr secret, rfl, rfl⟩
  · rw [changePassword_checked, admits_iff guarded.keyed reflects]
  · rw [deleteAccount_checked, admits_iff guarded.keyed reflects]

theorem plainLibrary_faithful : plainLibrary.Faithful where
  verifies _ password hash hashed other := by
    cases hashed
    simp only [plainLibrary, decide_eq_true_eq, String.append_right_inj]
    exact eq_comm
  marked _ password hash hashed := by
    cases hashed
    simp
  collation := ⟨fun _ => decide_eq_true rfl, fun {_ _} same => by simpa [plainLibrary, eq_comm] using same,
    fun {_ _ _} first second => by simp_all [plainLibrary]⟩

/-- Bob registers, and changes his password. -/
def bobRequestOf : Bool → Request
  | true => .registerUser "bob" "secret123" ""
  | false => .changePassword 1 "secret123" "another22"

theorem changedPassword_admitted :
    ∃ after : State Bool, (machine plainLibrary bobRequestOf (fun _ => ())).run { users := {} }
        [.start true true true, .finish true .done, .start false true true, .finish false .done] = some after ∧
      plainLibrary.start after.users true true (.login "bob" "another22") = .returned (.loggedIn 1 "bob") := by
  refine ⟨_, rfl, ((@requests_admitted Unit Bool _ plainLibrary bobRequestOf (fun _ => ()) plainLibrary_faithful
    [.start true true true, .finish true .done, .start false true true, .finish false .done] _ rfl).1
    "bob" "another22" 1 "bob").mpr
    ⟨by simp, by simp, rfl, "bob", "bob", ⟨⟨_, _, .tail _ (.head _), rfl, rfl, rfl⟩, fun password member => ?_⟩,
      rfl, by decide⟩⟩
  change _ ∈ [Entry.changed _ _ _ _, Entry.registered _ _] at member
  simp at member

end MuduoIm.Server.Accounts
