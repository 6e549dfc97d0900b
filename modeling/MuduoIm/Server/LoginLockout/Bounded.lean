import MuduoIm.Server.LoginLockout

namespace MuduoIm.Server.LoginLockout

open MuduoIm.Transition

/-! # When the lockout bounds guessing

The check and the record of a failure are apart, so calls that were admitted
before are not seen by the next check.
-/

variable {sha256 : String → String} {argon2idVerify : String → String → Bool}
variable {Call : Type} [DecidableEq Call] {guessOf : Call → Guess} {state next : State Call}
variable {call other : Call} {event : Event Call} {phase : Phase} {opens : Nat}

/-- The window of 15 minutes that opens at this time. -/
def InWindow (opens nowMs : Nat) : Prop := opens ≤ nowMs ∧ nowMs < opens + lockoutDurationMs

instance (opens nowMs : Nat) : Decidable (InWindow opens nowMs) := by
  unfold InWindow
  infer_instance

def startedIn (guessOf : Call → Guess) (opens : Nat) (calls : Finset Call) : Finset Call :=
  calls.filter fun call => InWindow opens (guessOf call).nowMs

/-- Of the calls that start in a window without a success at most 5 try a wrong
password, and those that start while the account is locked try none. -/
structure Bounded (guessOf : Call → Guess) (state : State Call) : Prop where
  guesses : ∀ opens, (∀ nowMs ∈ state.successes, ¬ InWindow opens nowMs) →
    (startedIn guessOf opens state.wrong).card ≤ maxLoginFailures
  locked : ∀ call ∈ state.verified, call ∉ state.startedLocked

/-- The clock does not go back.  A call is admitted only while the failures
counted and the calls in flight leave room for it, and if no login has
succeeded since it read the clock.  The failure that sets the lock is that of
the last call started. -/
def InTurn (guessOf : Call → Guess) (state : State Call) : Event Call → Prop
  | .login call => (guessOf call).password ≠ "" → state.clock ≤ (guessOf call).nowMs
  | .check call => state.attempt.lockedUntilMs ≤ (guessOf call).nowMs →
      state.attempt.failures + state.inFlight.card < maxLoginFailures ∧
        ∀ successes, state.calls call = .started successes → successes = state.successes.length
  | .record call => maxLoginFailures ≤ state.attempt.failures + 1 →
      ∀ other ∈ state.counted, (guessOf other).nowMs ≤ (guessOf call).nowMs
  | .reset _ nowMs => state.clock ≤ nowMs
  | _ => True

/-! ## The invariant -/

def Phase.InFlight : Phase → Prop
  | .admitted | .selected _ | .rejected _ | .accepted => True
  | _ => False

/-- The histories follow the phase of the call. -/
structure Fits (guessOf : Call → Guess) (state : State Call) (call : Call) (phase : Phase) : Prop where
  inFlight : phase.InFlight → call ∈ state.inFlight
  idle : phase = .idle → call ∉ state.inFlight ∧ call ∉ state.verified ∧ call ∉ state.startedLocked
  wrong : call ∈ state.wrong → (∃ message, phase = .rejected message) ∨ ∃ reply, phase = .returned reply
  counted : call ∈ state.counted → ∃ reply, phase = .returned reply
  started : ∀ successes, phase = .started successes →
    (guessOf call).nowMs ≤ state.clock ∧ successes ≤ state.successes.length ∧
      (successes = state.successes.length → (∀ nowMs ∈ state.successes, nowMs ≤ (guessOf call).nowMs) ∧
        (call ∈ state.startedLocked → (guessOf call).nowMs < state.attempt.lockedUntilMs))

def Phases (guessOf : Call → Guess) (state : State Call) : Prop := ∀ call, Fits guessOf state call (state.calls call)

/-- The times and the counter. -/
structure Times (guessOf : Call → Guess) (state : State Call) : Prop where
  successes : ∀ nowMs ∈ state.successes, nowMs ≤ state.clock
  past : ∀ call ∈ state.wrong ∪ state.inFlight, (guessOf call).nowMs ≤ state.clock
  admitted : ∀ call ∈ state.inFlight, state.attempt.lockedUntilMs ≤ (guessOf call).nowMs
  unlocked : ∀ call ∈ state.verified ∪ state.inFlight, call ∉ state.startedLocked
  failures : state.attempt.failures = state.counted.card
  room : state.counted.card + state.inFlight.card ≤ maxLoginFailures

/-- No call that starts in the window is admitted any more. -/
def Closed (state : State Call) (opens : Nat) : Prop :=
  opens + lockoutDurationMs ≤ state.attempt.lockedUntilMs ∨ ∃ nowMs ∈ state.successes, opens + lockoutDurationMs ≤ nowMs

/-- The guesses of a window are few, and the counter knows them all as long as
there can be more. -/
structure Window (guessOf : Call → Guess) (state : State Call) (opens : Nat) : Prop where
  few : (startedIn guessOf opens (state.wrong ∪ state.inFlight)).card ≤ maxLoginFailures
  known : startedIn guessOf opens (state.wrong ∪ state.inFlight) ⊆ state.counted ∪ state.inFlight ∨ Closed state opens

structure Sound (guessOf : Call → Guess) (state : State Call) : Prop where
  phases : Phases guessOf state
  times : Times guessOf state
  windows : ∀ opens, (∀ nowMs ∈ state.successes, ¬ InWindow opens nowMs) → Window guessOf state opens

theorem Sound.bounded (sound : Sound guessOf state) : Bounded guessOf state := by
  constructor
  · intro opens unsuccessful
    have few := (sound.windows opens unsuccessful).few
    refine (Finset.card_le_card ?_).trans few
    exact Finset.filter_subset_filter _ Finset.subset_union_left
  · exact fun call member => sound.times.unlocked call (Finset.mem_union_left _ member)

/-! ## The phases -/

theorem goto_self : (state.goto call phase).calls call = phase := Function.update_self _ _ _

theorem Fits.goto {here : Phase} (fits : Fits guessOf state other here) :
    Fits guessOf (state.goto call phase) other here :=
  ⟨fits.inFlight, fits.idle, fits.wrong, fits.counted, fits.started⟩

/-- A call that goes on, while the rest stays. -/
theorem Phases.goto (phases : Phases guessOf state) (fits : Fits guessOf state call phase) :
    Phases guessOf (state.goto call phase) :=
  (Function.forall_update_iff state.calls (Fits guessOf (state.goto call phase))).mpr
    ⟨fits.goto, fun other _ => (phases other).goto⟩

omit [DecidableEq Call] in
theorem Fits.returned {reply : Reply} : Fits guessOf state call (.returned reply) :=
  ⟨False.elim, nofun, fun _ => .inr ⟨reply, rfl⟩, fun _ => ⟨reply, rfl⟩, nofun⟩

omit [DecidableEq Call] in
theorem Fits.flying (flying : call ∈ state.inFlight) (entered : phase ≠ .idle)
    (begun : ∀ successes, phase ≠ .started successes)
    (wrong : call ∈ state.wrong → ∃ message, phase = .rejected message) (counted : call ∉ state.counted) :
    Fits guessOf state call phase :=
  ⟨fun _ => flying, fun idle => absurd idle entered, fun member => .inl (wrong member),
    fun member => absurd member counted, fun successes started => absurd started (begun successes)⟩

theorem Phases.login {startedLocked : Finset Call} (phases : Phases guessOf state)
    (clock : state.clock ≤ (guessOf call).nowMs) (successes : ∀ nowMs ∈ state.successes, nowMs ≤ state.clock)
    (absent : call ∉ state.wrong) (uncounted : call ∉ state.counted)
    (locked : ∀ other ∈ startedLocked, other ∈ state.startedLocked ∨
      other = call ∧ (guessOf call).nowMs < state.attempt.lockedUntilMs)
    (new : call ∉ state.startedLocked) :
    Phases guessOf { state.goto call (.started state.successes.length) with
      clock := (guessOf call).nowMs, startedLocked } := by
  let started : State Call := { state.goto call (.started state.successes.length) with
    clock := (guessOf call).nowMs, startedLocked }
  refine (Function.forall_update_iff state.calls (Fits guessOf started)).mpr ⟨?_, fun other different => ?_⟩
  · refine ⟨False.elim, nofun, fun member => absurd member absent, fun member => absurd member uncounted,
      fun begun same => ?_⟩
    cases same
    refine ⟨Nat.le_refl _, Nat.le_refl _, fun _ => ⟨fun nowMs member => (successes nowMs member).trans clock, ?_⟩⟩
    intro member
    exact ((locked call member).resolve_left new).2
  · have fits := phases other
    have earlier (member : other ∈ startedLocked) : other ∈ state.startedLocked :=
      (locked other member).resolve_right fun mover => different mover.1
    refine ⟨fits.inFlight, fun idle => ?_, fits.wrong, fits.counted, fun begun same => ?_⟩
    · obtain ⟨absent, unverified, unlocked⟩ := fits.idle idle
      exact ⟨absent, unverified, fun member => unlocked (earlier member)⟩
    · obtain ⟨past, counted, current⟩ := fits.started begun same
      refine ⟨past.trans clock, counted, fun none_since => ?_⟩
      obtain ⟨later, stillLocked⟩ := current none_since
      exact ⟨later, fun member => stillLocked (earlier member)⟩

theorem Phases.enter (phases : Phases guessOf state) (begun : state.calls call ≠ .idle) :
    Phases guessOf { state with inFlight := insert call state.inFlight } := by
  intro other
  have fits := phases other
  refine ⟨fun flying => Finset.mem_insert_of_mem (fits.inFlight flying), fun idle => ?_, fits.wrong, fits.counted,
    fits.started⟩
  obtain ⟨absent, others⟩ := fits.idle idle
  refine ⟨fun member => ?_, others⟩
  rcases Finset.mem_insert.mp member with rfl | member
  · exact begun idle
  · exact absent member

theorem Phases.leave (phases : Phases guessOf state) (left : ¬ (state.calls call).InFlight) :
    Phases guessOf { state with inFlight := state.inFlight.erase call } := by
  intro other
  have fits := phases other
  refine ⟨fun flying => ?_, fun idle => ?_, fits.wrong, fits.counted, fits.started⟩
  · refine Finset.mem_erase.mpr ⟨?_, fits.inFlight flying⟩
    rintro rfl
    exact left flying
  · obtain ⟨absent, others⟩ := fits.idle idle
    exact ⟨fun member => absent (Finset.mem_of_mem_erase member), others⟩

theorem Phases.verify (phases : Phases guessOf state) (begun : state.calls call ≠ .idle) :
    Phases guessOf { state with verified := insert call state.verified } := by
  intro other
  have fits := phases other
  refine ⟨fits.inFlight, fun idle => ?_, fits.wrong, fits.counted, fits.started⟩
  obtain ⟨absent, unverified, unlocked⟩ := fits.idle idle
  refine ⟨absent, fun member => ?_, unlocked⟩
  rcases Finset.mem_insert.mp member with rfl | member
  · exact begun idle
  · exact unverified member

theorem Phases.mistake {message : String} (phases : Phases guessOf state)
    (rejected : state.calls call = .rejected message) :
    Phases guessOf { state with wrong := insert call state.wrong } := by
  intro other
  have fits := phases other
  refine ⟨fits.inFlight, fits.idle, fun member => ?_, fits.counted, fits.started⟩
  rcases Finset.mem_insert.mp member with rfl | member
  · exact .inl ⟨message, rejected⟩
  · exact fits.wrong member

omit [DecidableEq Call] in
theorem Phases.record {attempt : LoginAttempt} {counted : Finset Call} (phases : Phases guessOf state)
    (later : state.attempt.lockedUntilMs ≤ attempt.lockedUntilMs)
    (returned : ∀ other ∈ counted, ∃ reply, state.calls other = .returned reply) :
    Phases guessOf { state with attempt, counted } := by
  intro other
  have fits := phases other
  refine ⟨fits.inFlight, fits.idle, fits.wrong, returned other, fun begun started => ?_⟩
  obtain ⟨past, counted, current⟩ := fits.started begun started
  refine ⟨past, counted, fun none_since => ?_⟩
  obtain ⟨after, stillLocked⟩ := current none_since
  exact ⟨after, fun member => (stillLocked member).trans_le later⟩

theorem Phases.reset {nowMs : Nat} (phases : Phases guessOf state) (clock : state.clock ≤ nowMs) :
    Phases guessOf { state with
      attempt := {}, clock := nowMs, successes := nowMs :: state.successes, counted := ∅ } := by
  intro other
  have fits := phases other
  refine ⟨fits.inFlight, fits.idle, fits.wrong, fun member => absurd member (Finset.notMem_empty other),
    fun begun started => ?_⟩
  obtain ⟨past, counted, _⟩ := fits.started begun started
  refine ⟨past.trans clock, counted.trans (Nat.le_succ _), fun none_since => ?_⟩
  have grown : (nowMs :: state.successes).length = state.successes.length + 1 := List.length_cons
  dsimp only at none_since
  omega

/-! ## The times and the counter -/

theorem Times.login {startedLocked : Finset Call} (times : Times guessOf state)
    (clock : state.clock ≤ (guessOf call).nowMs)
    (locked : ∀ other ∈ startedLocked, other ∈ state.startedLocked ∨ other = call)
    (new : call ∉ state.verified ∪ state.inFlight) :
    Times guessOf { state with clock := (guessOf call).nowMs, startedLocked } := by
  refine ⟨fun nowMs member => (times.successes nowMs member).trans clock,
    fun other member => (times.past other member).trans clock, times.admitted, fun other member startedLocked => ?_,
    times.failures, times.room⟩
  rcases locked other startedLocked with earlier | rfl
  · exact times.unlocked other member earlier
  · exact new member

theorem Times.enter (times : Times guessOf state) (past : (guessOf call).nowMs ≤ state.clock)
    (unlocked : state.attempt.lockedUntilMs ≤ (guessOf call).nowMs) (fresh : call ∉ state.startedLocked)
    (room : state.attempt.failures + state.inFlight.card < maxLoginFailures) :
    Times guessOf { state with inFlight := insert call state.inFlight } := by
  refine ⟨times.successes, fun other member => ?_, fun other member => ?_, fun other member => ?_, times.failures, ?_⟩
  · rw [Finset.union_insert] at member
    rcases Finset.mem_insert.mp member with rfl | member
    · exact past
    · exact times.past other member
  · rcases Finset.mem_insert.mp member with rfl | member
    · exact unlocked
    · exact times.admitted other member
  · rw [Finset.union_insert] at member
    rcases Finset.mem_insert.mp member with rfl | member
    · exact fresh
    · exact times.unlocked other member
  · have grown := Finset.card_insert_le call state.inFlight
    have failures := times.failures
    dsimp only
    omega

theorem Times.leave (times : Times guessOf state) :
    Times guessOf { state with inFlight := state.inFlight.erase call } := by
  have kept : state.inFlight.erase call ⊆ state.inFlight := Finset.erase_subset call state.inFlight
  refine ⟨times.successes, fun other member => ?_, fun other member => times.admitted other (kept member),
    fun other member => ?_, times.failures, ?_⟩
  · exact times.past other (Finset.union_subset_union_right kept member)
  · exact times.unlocked other (Finset.union_subset_union_right kept member)
  · have shrunk := Finset.card_le_card kept
    have room := times.room
    dsimp only
    omega

theorem Times.verify (times : Times guessOf state) (flying : call ∈ state.inFlight) :
    Times guessOf { state with verified := insert call state.verified } := by
  refine ⟨times.successes, times.past, times.admitted, fun other member => ?_, times.failures, times.room⟩
  rw [Finset.insert_union] at member
  rcases Finset.mem_insert.mp member with rfl | member
  · exact times.unlocked other (Finset.mem_union_right _ flying)
  · exact times.unlocked other member

theorem Times.mistake (times : Times guessOf state) (flying : call ∈ state.inFlight) :
    Times guessOf { state with wrong := insert call state.wrong } := by
  refine ⟨times.successes, fun other member => ?_, times.admitted, times.unlocked, times.failures, times.room⟩
  rw [Finset.insert_union] at member
  rcases Finset.mem_insert.mp member with rfl | member
  · exact times.past other (Finset.mem_union_right _ flying)
  · exact times.past other member

/-- When the lock is set nobody else is in flight. -/
theorem Times.alone (times : Times guessOf state) (flying : call ∈ state.inFlight)
    (last : maxLoginFailures ≤ state.attempt.failures + 1) : state.inFlight = {call} := by
  have room := times.room
  rw [← times.failures] at room
  have card : state.inFlight.card ≤ 1 := by omega
  obtain ⟨only, same⟩ := Finset.card_eq_one.mp (Nat.le_antisymm card (Finset.card_pos.mpr ⟨call, flying⟩))
  rw [same, Finset.mem_singleton] at flying
  rw [same, flying]

theorem lockedUntilMs_record (times : Times guessOf state) (flying : call ∈ state.inFlight) :
    state.attempt.lockedUntilMs ≤ (recordLoginFailure state.attempt (guessOf call).nowMs).lockedUntilMs := by
  rw [recordLoginFailure]
  split
  · exact (times.admitted call flying).trans (Nat.le_add_right _ _)
  · exact Nat.le_refl _

theorem Times.record (times : Times guessOf state) (flying : call ∈ state.inFlight) (new : call ∉ state.counted) :
    Times guessOf { state with
      attempt := recordLoginFailure state.attempt (guessOf call).nowMs
      inFlight := state.inFlight.erase call
      counted := if maxLoginFailures ≤ state.attempt.failures + 1 then ∅ else insert call state.counted } := by
  have left := @Times.leave _ _ guessOf state call times
  refine ⟨left.successes, left.past, fun other member => ?_, left.unlocked, ?_, ?_⟩
  · by_cases last : maxLoginFailures ≤ state.attempt.failures + 1
    · rw [times.alone flying last, Finset.erase_singleton] at member
      cases member
    · rw [recordLoginFailure, if_neg last]
      exact left.admitted other member
  · by_cases last : maxLoginFailures ≤ state.attempt.failures + 1
    · rw [if_pos last, recordLoginFailure, if_pos last]
      rfl
    · rw [if_neg last, recordLoginFailure, if_neg last, Finset.card_insert_of_notMem new]
      dsimp only
      rw [times.failures]
  · have room := times.room
    have shrunk := Finset.card_erase_of_mem flying
    have some_flying := Finset.card_pos.mpr ⟨call, flying⟩
    split
    · rw [Finset.card_empty]
      dsimp only
      omega
    · rw [Finset.card_insert_of_notMem new]
      dsimp only
      omega

theorem Times.reset {nowMs : Nat} (times : Times guessOf state) (clock : state.clock ≤ nowMs) :
    Times guessOf { state with
      attempt := {}, clock := nowMs, successes := nowMs :: state.successes, counted := ∅ } := by
  refine ⟨fun time member => ?_, fun other member => (times.past other member).trans clock,
    fun other _ => Nat.zero_le _, times.unlocked, rfl, ?_⟩
  · rcases List.mem_cons.mp member with rfl | member
    · exact Nat.le_refl _
    · exact (times.successes time member).trans clock
  · have room := times.room
    rw [Finset.card_empty]
    dsimp only
    omega

/-! ## The windows -/

omit [DecidableEq Call] in
theorem mem_startedIn {calls : Finset Call} :
    call ∈ startedIn guessOf opens calls ↔ call ∈ calls ∧ InWindow opens (guessOf call).nowMs :=
  Finset.mem_filter

theorem Window.enter (window : Window guessOf state opens) (times : Times guessOf state)
    (unlocked : state.attempt.lockedUntilMs ≤ (guessOf call).nowMs)
    (later : ∀ nowMs ∈ state.successes, nowMs ≤ (guessOf call).nowMs)
    (room : state.attempt.failures + state.inFlight.card < maxLoginFailures) :
    Window guessOf { state with inFlight := insert call state.inFlight } opens := by
  by_cases inside : InWindow opens (guessOf call).nowMs
  · have known : startedIn guessOf opens (state.wrong ∪ state.inFlight) ⊆ state.counted ∪ state.inFlight := by
      rcases window.known with known | locked | ⟨nowMs, member, after⟩
      · exact known
      · exact absurd (locked.trans unlocked) (Nat.not_le.mpr inside.2)
      · exact absurd (after.trans (later nowMs member)) (Nat.not_le.mpr inside.2)
    have grown : startedIn guessOf opens (state.wrong ∪ insert call state.inFlight) ⊆
        state.counted ∪ insert call state.inFlight := by
      intro other member
      rw [Finset.union_insert] at member ⊢
      obtain ⟨guessing, started⟩ := mem_startedIn.mp member
      rcases Finset.mem_insert.mp guessing with rfl | guessing
      · exact Finset.mem_insert_self _ _
      · exact Finset.mem_insert_of_mem (known (mem_startedIn.mpr ⟨guessing, started⟩))
    refine ⟨(Finset.card_le_card grown).trans ?_, .inl grown⟩
    have union := Finset.card_union_le state.counted (insert call state.inFlight)
    have inserted := Finset.card_insert_le call state.inFlight
    have failures := times.failures
    omega
  · have same : startedIn guessOf opens (state.wrong ∪ insert call state.inFlight) =
        startedIn guessOf opens (state.wrong ∪ state.inFlight) := by
      rw [Finset.union_insert, startedIn, Finset.filter_insert, if_neg inside, startedIn]
    refine ⟨same ▸ window.few, window.known.imp_left fun known => ?_⟩
    dsimp only
    rw [same]
    exact known.trans (Finset.union_subset_union_right (Finset.subset_insert _ _))

theorem startedIn_leave (opens : Nat) : startedIn guessOf opens (state.wrong ∪ state.inFlight.erase call) ⊆
    startedIn guessOf opens (state.wrong ∪ state.inFlight) :=
  Finset.filter_subset_filter _ (Finset.union_subset_union_right (Finset.erase_subset _ _))

/-- A call that has tried no wrong password leaves. -/
theorem Window.leave (window : Window guessOf state opens) (untried : call ∉ state.wrong) :
    Window guessOf { state with inFlight := state.inFlight.erase call } opens := by
  refine ⟨(Finset.card_le_card (startedIn_leave opens)).trans window.few,
    window.known.imp_left fun known other member => ?_⟩
  have different : other ≠ call := by
    rintro rfl
    rcases Finset.mem_union.mp (mem_startedIn.mp member).1 with tried | flying
    · exact untried tried
    · exact Finset.notMem_erase other _ flying
  rcases Finset.mem_union.mp (known (startedIn_leave opens member)) with counted | flying
  · exact Finset.mem_union_left _ counted
  · exact Finset.mem_union_right _ (Finset.mem_erase.mpr ⟨different, flying⟩)

theorem Window.mistake (window : Window guessOf state opens) (flying : call ∈ state.inFlight) :
    Window guessOf { state with wrong := insert call state.wrong } opens := by
  have same : insert call state.wrong ∪ state.inFlight = state.wrong ∪ state.inFlight := by
    rw [Finset.insert_union, Finset.insert_eq_of_mem (Finset.mem_union_right _ flying)]
  constructor
  · dsimp only
    rw [same]
    exact window.few
  · dsimp only
    rw [same]
    exact window.known

theorem Window.record (window : Window guessOf state opens) (times : Times guessOf state)
    (flying : call ∈ state.inFlight)
    (latest : maxLoginFailures ≤ state.attempt.failures + 1 →
      ∀ other ∈ state.counted, (guessOf other).nowMs ≤ (guessOf call).nowMs) :
    Window guessOf { state with
      attempt := recordLoginFailure state.attempt (guessOf call).nowMs
      inFlight := state.inFlight.erase call
      counted := if maxLoginFailures ≤ state.attempt.failures + 1 then ∅ else insert call state.counted } opens := by
  refine ⟨(Finset.card_le_card (startedIn_leave opens)).trans window.few, ?_⟩
  have later := lockedUntilMs_record times flying
  rcases window.known with known | locked | after
  · by_cases last : maxLoginFailures ≤ state.attempt.failures + 1
    · have lock : (recordLoginFailure state.attempt (guessOf call).nowMs).lockedUntilMs =
          (guessOf call).nowMs + lockoutDurationMs := by
        rw [recordLoginFailure, if_pos last]
      by_cases opened : opens ≤ (guessOf call).nowMs
      · refine .inr (.inl ?_)
        dsimp only
        rw [lock]
        exact Nat.add_le_add_right opened _
      · refine .inl fun other member => ?_
        obtain ⟨_, started⟩ := mem_startedIn.mp member
        have sooner : (guessOf other).nowMs ≤ (guessOf call).nowMs := by
          rcases Finset.mem_union.mp (known (startedIn_leave opens member)) with counted | stillFlying
          · exact latest last other counted
          · rw [times.alone flying last] at stillFlying
            rw [Finset.mem_singleton.mp stillFlying]
        exact absurd (started.1.trans sooner) opened
    · refine .inl fun other member => ?_
      dsimp only
      rw [if_neg last]
      by_cases same : other = call
      · subst same
        exact Finset.mem_union_left _ (Finset.mem_insert_self _ _)
      · rcases Finset.mem_union.mp (known (startedIn_leave opens member)) with counted | stillFlying
        · exact Finset.mem_union_left _ (Finset.mem_insert_of_mem counted)
        · exact Finset.mem_union_right _ (Finset.mem_erase.mpr ⟨same, stillFlying⟩)
  · exact .inr (.inl (locked.trans later))
  · exact .inr (.inr after)

theorem Window.reset {nowMs : Nat} (window : Window guessOf state opens) (times : Times guessOf state)
    (flying : call ∈ state.inFlight) (clock : state.clock ≤ nowMs) (outside : ¬ InWindow opens nowMs) :
    Window guessOf { state with
      attempt := {}, clock := nowMs, successes := nowMs :: state.successes
      inFlight := state.inFlight.erase call, counted := ∅ } opens := by
  refine ⟨(Finset.card_le_card (startedIn_leave opens)).trans window.few, ?_⟩
  have past {other : Call} (member : other ∈ state.wrong ∪ state.inFlight) : (guessOf other).nowMs ≤ nowMs :=
    (times.past other member).trans clock
  rcases window.known with _ | locked | ⟨success, member, after⟩
  · by_cases opened : opens ≤ nowMs
    · refine .inr (.inr ⟨nowMs, List.mem_cons_self, ?_⟩)
      by_contra before
      exact outside ⟨opened, Nat.not_le.mp before⟩
    · refine .inl fun other member => ?_
      obtain ⟨guessing, started⟩ := mem_startedIn.mp (startedIn_leave opens member)
      exact absurd (started.1.trans (past guessing)) opened
  · have began := times.admitted call flying
    exact .inr (.inr ⟨nowMs, List.mem_cons_self, locked.trans (began.trans (past (Finset.mem_union_right _ flying)))⟩)
  · exact .inr (.inr ⟨success, List.mem_cons_of_mem _ member, after⟩)

/-! ## Runs -/

theorem Times.goto (times : Times guessOf state) : Times guessOf (state.goto call phase) :=
  ⟨times.successes, times.past, times.admitted, times.unlocked, times.failures, times.room⟩

theorem Window.frame {clock : Nat} {startedLocked verified : Finset Call} (window : Window guessOf state opens) :
    Window guessOf { state with clock, startedLocked, verified } opens :=
  ⟨window.few, window.known⟩

theorem Window.goto (window : Window guessOf state opens) : Window guessOf (state.goto call phase) opens :=
  ⟨window.few, window.known⟩

omit [DecidableEq Call] in
theorem Phases.uncounted (phases : Phases guessOf state) (here : state.calls call = phase)
    (running : ∀ reply, phase ≠ .returned reply) : call ∉ state.counted := by
  intro member
  obtain ⟨reply, returned⟩ := (phases call).counted member
  exact running reply (here.symm.trans returned)

omit [DecidableEq Call] in
theorem Phases.untried (phases : Phases guessOf state) (here : state.calls call = phase)
    (running : ∀ reply, phase ≠ .returned reply) (notRejected : ∀ message, phase ≠ .rejected message) :
    call ∉ state.wrong := by
  intro member
  obtain ⟨message, rejected⟩ | ⟨reply, returned⟩ := (phases call).wrong member
  · exact notRejected message (here.symm.trans rejected)
  · exact running reply (here.symm.trans returned)

omit [DecidableEq Call] in
theorem Phases.flying (phases : Phases guessOf state) (here : state.calls call = phase) (flies : phase.InFlight) :
    call ∈ state.inFlight :=
  (phases call).inFlight (here ▸ flies)

/-- A call that returns or waits, while the rest stays. -/
theorem Sound.goto (sound : Sound guessOf state) (fits : Fits guessOf state call phase) :
    Sound guessOf (state.goto call phase) :=
  ⟨sound.phases.goto fits, sound.times.goto, fun opens unsuccessful => (sound.windows opens unsuccessful).goto⟩

theorem Phases.leaves {reply : Reply} (phases : Phases guessOf state) :
    Phases guessOf { state.goto call (.returned reply) with inFlight := state.inFlight.erase call } := by
  have returned : Phases guessOf (state.goto call (.returned reply)) := phases.goto .returned
  refine returned.leave ?_
  rw [goto_self]
  exact id

/-- The call reads the clock. -/
theorem Sound.start (sound : Sound guessOf state) (idle : state.calls call = .idle)
    (clock : state.clock ≤ (guessOf call).nowMs) :
    Sound guessOf { state.goto call (.started state.successes.length) with
      clock := (guessOf call).nowMs
      startedLocked := if (guessOf call).nowMs < state.attempt.lockedUntilMs then
          insert call state.startedLocked else state.startedLocked } := by
  obtain ⟨absent, unverified, unlocked⟩ := (sound.phases call).idle idle
  have locked : ∀ other ∈ (if (guessOf call).nowMs < state.attempt.lockedUntilMs then
      insert call state.startedLocked else state.startedLocked),
      other ∈ state.startedLocked ∨ other = call ∧ (guessOf call).nowMs < state.attempt.lockedUntilMs := by
    intro other member
    split at member
    · rename_i stillLocked
      rcases Finset.mem_insert.mp member with same | earlier
      · exact .inr ⟨same, stillLocked⟩
      · exact .inl earlier
    · exact .inl member
  have new : call ∉ state.verified ∪ state.inFlight := by
    intro member
    rcases Finset.mem_union.mp member with verified | flying
    · exact unverified verified
    · exact absent flying
  have uncounted := sound.phases.uncounted idle nofun
  have untried := sound.phases.untried idle nofun nofun
  exact ⟨sound.phases.login clock sound.times.successes untried uncounted locked unlocked,
    (sound.times.login clock (fun other member => (locked other member).imp_right And.left) new).goto,
    fun opens unsuccessful => (sound.windows opens unsuccessful).goto.frame⟩

/-- The call passes the lock check. -/
theorem Sound.pass {successes : Nat} (sound : Sound guessOf state) (started : state.calls call = .started successes)
    (unlocked : ¬ (guessOf call).nowMs < state.attempt.lockedUntilMs)
    (room : state.attempt.failures + state.inFlight.card < maxLoginFailures)
    (current : successes = state.successes.length) :
    Sound guessOf { state.goto call .admitted with inFlight := insert call state.inFlight } := by
  have admissible := Nat.not_lt.mp unlocked
  obtain ⟨past, _, since⟩ := (sound.phases call).started successes started
  obtain ⟨later, locked⟩ := since current
  have fresh : call ∉ state.startedLocked := fun member => unlocked (locked member)
  have begun : state.calls call ≠ .idle := by
    rw [started]
    nofun
  have untried := sound.phases.untried started nofun nofun
  have admitted : Sound guessOf { state with inFlight := insert call state.inFlight } :=
    ⟨sound.phases.enter begun, sound.times.enter past admissible fresh room,
      fun opens unsuccessful => (sound.windows opens unsuccessful).enter sound.times admissible later room⟩
  exact admitted.goto (.flying (Finset.mem_insert_self call _) nofun nofun (fun tried => absurd tried untried)
    (sound.phases.uncounted started nofun))

/-- The call gives up before it has tried the password. -/
theorem Sound.giveUp {reply : Reply} (sound : Sound guessOf state) (admitted : state.calls call = .admitted) :
    Sound guessOf { state.goto call (.returned reply) with inFlight := state.inFlight.erase call } :=
  have untried := sound.phases.untried admitted nofun nofun
  ⟨sound.phases.leaves, sound.times.leave.goto,
    fun opens unsuccessful => ((sound.windows opens unsuccessful).leave untried).goto⟩

/-- The call goes on with what the SELECT returned. -/
theorem Sound.answered (sound : Sound guessOf state) (admitted : state.calls call = .admitted)
    (running : phase ≠ .idle) (begun : ∀ successes, phase ≠ .started successes) :
    Sound guessOf (state.goto call phase) :=
  have untried := sound.phases.untried admitted nofun nofun
  sound.goto (.flying (sound.phases.flying admitted trivial) running begun (fun tried => absurd tried untried)
    (sound.phases.uncounted admitted nofun))

theorem Sound.tried {storedHash : String} (sound : Sound guessOf state)
    (selected : state.calls call = .selected storedHash) :
    Sound guessOf { state with verified := insert call state.verified } := by
  have begun : state.calls call ≠ .idle := by
    rw [selected]
    nofun
  exact ⟨sound.phases.verify begun, sound.times.verify (sound.phases.flying selected trivial),
    fun opens unsuccessful => (sound.windows opens unsuccessful).frame⟩

theorem Sound.accept {storedHash : String} (sound : Sound guessOf state)
    (selected : state.calls call = .selected storedHash) :
    Sound guessOf { state.goto call .accepted with verified := insert call state.verified } := by
  have untried := sound.phases.untried selected nofun nofun
  exact (sound.tried selected).goto (.flying (sound.phases.flying selected trivial) nofun nofun
    (fun tried => absurd tried untried) (sound.phases.uncounted selected nofun))

theorem Sound.mistake {storedHash message : String} (sound : Sound guessOf state)
    (selected : state.calls call = .selected storedHash) :
    Sound guessOf { state.goto call (.rejected message) with
      verified := insert call state.verified
      wrong := insert call state.wrong } := by
  have flying := sound.phases.flying selected trivial
  have rejected := @Sound.goto _ _ _ _ call (.rejected message) (sound.tried selected)
    (.flying flying nofun nofun (fun _ => ⟨_, rfl⟩) (sound.phases.uncounted selected nofun))
  exact ⟨rejected.phases.mistake goto_self, rejected.times.mistake flying,
    fun opens unsuccessful => (rejected.windows opens unsuccessful).mistake flying⟩

/-- The failure is recorded, and may set the lock. -/
theorem Sound.record {message : String} (sound : Sound guessOf state) (inTurn : InTurn guessOf state (.record call))
    (rejected : state.calls call = .rejected message) :
    Sound guessOf { state.goto call (.returned (.failure message)) with
      attempt := recordLoginFailure state.attempt (guessOf call).nowMs
      inFlight := state.inFlight.erase call
      counted := if maxLoginFailures ≤ state.attempt.failures + 1 then ∅ else insert call state.counted } := by
  have flying := sound.phases.flying rejected trivial
  have uncounted := sound.phases.uncounted rejected nofun
  have later := lockedUntilMs_record sound.times flying
  have left := @Phases.leaves _ _ _ _ call (.failure message) sound.phases
  refine ⟨left.record later fun other member => ?_, (sound.times.record flying uncounted).goto,
    fun opens unsuccessful => ((sound.windows opens unsuccessful).record sound.times flying inTurn).goto⟩
  split at member
  · cases member
  · rcases Finset.mem_insert.mp member with rfl | member
    · exact ⟨_, goto_self⟩
    · exact (left other).counted member

/-- A login succeeds, and starts the count anew. -/
theorem Sound.reset {nowMs : Nat} (sound : Sound guessOf state) (clock : state.clock ≤ nowMs)
    (accepted : state.calls call = .accepted) :
    Sound guessOf { state.goto call (.returned .success) with
      attempt := {}
      clock := nowMs
      successes := nowMs :: state.successes
      inFlight := state.inFlight.erase call
      counted := ∅ } := by
  have flying := sound.phases.flying accepted trivial
  have left := @Phases.leaves _ _ _ _ call .success sound.phases
  have stillTimes := @Times.leave _ _ _ _ call sound.times
  refine ⟨left.reset clock, (stillTimes.reset clock).goto, fun opens unsuccessful => ?_⟩
  have before : ∀ time ∈ state.successes, ¬ InWindow opens time :=
    fun time member => unsuccessful time (List.mem_cons_of_mem _ member)
  exact ((sound.windows opens before).reset sound.times flying clock (unsuccessful nowMs List.mem_cons_self)).goto

theorem Sound.step (sound : Sound guessOf state) (inTurn : InTurn guessOf state event)
    (stepped : LoginLockout.step sha256 argon2idVerify guessOf state event = some next) : Sound guessOf next := by
  cases event with
  | login call =>
      simp only [LoginLockout.step] at stepped
      split at stepped
      · rename_i idle
        split at stepped
        · cases stepped
          exact sound.goto .returned
        · rename_i given
          cases stepped
          exact sound.start idle (inTurn given)
      · cases stepped
  | check call =>
      simp only [LoginLockout.step] at stepped
      split at stepped
      · rename_i successes started
        split at stepped
        · cases stepped
          exact sound.goto .returned
        · rename_i unlocked
          obtain ⟨room, current⟩ := inTurn (Nat.not_lt.mp unlocked)
          cases stepped
          exact sound.pass started unlocked room (current successes started)
      · cases stepped
  | select call lookup =>
      simp only [LoginLockout.step] at stepped
      split at stepped
      · rename_i admitted
        cases lookup <;> cases stepped
        · exact sound.giveUp admitted
        · exact sound.answered admitted nofun nofun
        · exact sound.answered admitted nofun nofun
      · cases stepped
  | verify call =>
      simp only [LoginLockout.step] at stepped
      split at stepped
      · rename_i storedHash selected
        split at stepped
        · cases stepped
          exact sound.accept selected
        · cases stepped
          exact sound.mistake selected
      · cases stepped
  | record call =>
      simp only [LoginLockout.step] at stepped
      split at stepped
      · rename_i message rejected
        cases stepped
        exact sound.record inTurn rejected
      · cases stepped
  | reset call nowMs =>
      simp only [LoginLockout.step] at stepped
      split at stepped
      · rename_i accepted
        cases stepped
        exact sound.reset inTurn accepted
      · cases stepped

/-- From a new process, as long as every step of a run is in turn. -/
theorem lockout_bounds_guessing (events : List (Event Call))
    (inTurn : (machine sha256 argon2idVerify guessOf).Meets (InTurn guessOf) {} events) :
    (machine sha256 argon2idVerify guessOf).Always (Bounded guessOf) {} events := by
  have initial : Sound guessOf ({} : State Call) := by
    refine ⟨fun call => ?_, ?_, fun opens _ => ?_⟩
    · exact ⟨False.elim, fun _ => ⟨Finset.notMem_empty call, Finset.notMem_empty call, Finset.notMem_empty call⟩,
        fun member => absurd member (Finset.notMem_empty call),
        fun member => absurd member (Finset.notMem_empty call), nofun⟩
    · exact ⟨nofun, fun call member => absurd member (Finset.notMem_empty call),
        fun call member => absurd member (Finset.notMem_empty call), fun call _ => Finset.notMem_empty call, rfl,
        Nat.zero_le _⟩
    · exact ⟨Nat.zero_le _, .inl (Finset.filter_subset _ _)⟩
  have always : (machine sha256 argon2idVerify guessOf).Always (Sound guessOf) {} events :=
    Machine.always_of_meets _ initial (fun _ _ _ sound allowed stepped => sound.step allowed stepped) inTurn
  exact always.mono fun _ sound => sound.bounded

/-! ## Calls at the same time -/

private def sha256Of : String → String := id

private def argon2idMatches (encoded password : String) : Bool := encoded == password

private def attemptOf (call : Nat) : Guess := { password := if call = 2 then "right" else "wrong", nowMs := call }

/-- Two wrong guesses overlap, and a right one follows. -/
private def threeGuesses : List (Event Nat) :=
  [.login 0, .login 1, .check 0, .check 1, .select 0 (.found "right"), .select 1 (.found "right"), .verify 1, .verify 0,
    .record 0, .record 1, .login 2, .check 2, .select 2 (.found "right"), .verify 2, .reset 2 60]

theorem three_guesses_bounded :
    (machine sha256Of argon2idMatches attemptOf).Always (Bounded attemptOf) {} threeGuesses := by
  refine lockout_bounds_guessing threeGuesses ?_
  have admissible {state : State Nat} {call successes : Nat} (started : state.calls call = .started successes)
      (room : state.attempt.failures + state.inFlight.card < maxLoginFailures)
      (none_since : successes = state.successes.length) : InTurn attemptOf state (.check call) := by
    intro _
    refine ⟨room, fun other here => ?_⟩
    cases started.symm.trans here
    exact none_since
  have clock : 2 ≤ 60 := by decide
  exact .cons rfl (fun _ => by decide) <| .cons rfl (fun _ => by decide) <|
    .cons rfl (admissible rfl (by decide) rfl) <| .cons rfl (admissible rfl (by decide) rfl) <|
    .cons rfl trivial <| .cons rfl trivial <| .cons rfl trivial <| .cons rfl trivial <|
    .cons rfl (fun last => absurd last (by decide)) <| .cons rfl (fun last => absurd last (by decide)) <|
    .cons rfl (fun _ => by decide) <| .cons rfl (admissible rfl (by decide) rfl) <|
    .cons rfl trivial <| .cons rfl trivial <| .cons rfl clock trivial

/-- Six wrong guesses pass the check before one of them is recorded. -/
private def sixAtOnce : List (Event Nat) :=
  [3, 4, 5, 6, 7, 8].map .login ++ [3, 4, 5, 6, 7, 8].map .check ++
    [3, 4, 5, 6, 7, 8].map (.select · (.found "right")) ++ [3, 4, 5, 6, 7, 8].map .verify

theorem six_at_once_unbounded :
    ¬ (machine sha256Of argon2idMatches attemptOf).Always (Bounded attemptOf) {} sixAtOnce := by
  intro always
  have ended := always.atEnd rfl
  have few := ended.guesses 0 nofun
  revert few
  decide

end MuduoIm.Server.LoginLockout
