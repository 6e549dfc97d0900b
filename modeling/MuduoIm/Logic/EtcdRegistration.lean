import Mathlib.Logic.Function.Basic
import MuduoIm.Transition.Machine

namespace MuduoIm.Logic.EtcdRegistration

open MuduoIm.Transition

/-! # The registration thread with etcd

The thread takes a lease of 15 seconds, binds its key to the lease and keeps the
lease alive.  After three keep-alives without success it takes another lease and
puts the key again.  A call may fail, and be executed nevertheless.
-/

/-- In milliseconds. -/
def leaseMs : Int := 15 * 1000

/-- What etcd has of the process: its leases with the times at which they end, and
the lease that its key is bound to. -/
structure Etcd where
  leases : ℕ → Option Int := fun _ => none
  nextLease : ℕ := 1
  holder : Option ℕ := none

def Etcd.grantLease (etcd : Etcd) (now : Int) : Etcd :=
  { etcd with
    leases := Function.update etcd.leases etcd.nextLease (some (now + leaseMs))
    nextLease := etcd.nextLease + 1 }

def Etcd.live (etcd : Etcd) (leaseId : ℕ) : Bool := (etcd.leases leaseId).isSome

def Etcd.put (etcd : Etcd) (leaseId : ℕ) : Etcd :=
  if etcd.live leaseId then { etcd with holder := some leaseId } else etcd

def Etcd.keepAlive (etcd : Etcd) (now : Int) (leaseId : ℕ) : Etcd :=
  if etcd.live leaseId then { etcd with leases := Function.update etcd.leases leaseId (some (now + leaseMs)) }
  else etcd

/-- A lease that ends takes the key with it. -/
def Etcd.expire (etcd : Etcd) (now : Int) : Etcd :=
  let leases leaseId := (etcd.leases leaseId).filter (now < ·)
  { etcd with leases, holder := etcd.holder.filter fun leaseId => (leases leaseId).isSome }

/-- Where the thread stands, with its `leaseId` and `keepFailures`.  In `granting`
and `putting` it registers for the first time, and `sleeping` is the pause of the
keep-alive loop. -/
inductive Phase where
  | granting (leaseId : ℕ)
  | putting (leaseId : ℕ)
  | sleeping (leaseId keepFailures : ℕ)
  | regranting
  | reputting (leaseId : ℕ)
  | deleting (leaseId : ℕ)
  | stopped
deriving DecidableEq

/-- `running` is `g_regRunning`; `served` is history, the time of the last call that
etcd has executed. -/
structure State where
  etcd : Etcd := {}
  now : Int := 0
  running : Bool := true
  phase : Phase := .granting 0
  served : Int := 0

/-- Whether a call is executed, and whether the process learns the result. -/
structure Answer where
  executed : Bool := true
  answered : Bool := true
deriving DecidableEq

inductive Event where
  | grantLease (answer : Answer)
  | put (answer : Answer)
  | keepAlive (answer : Answer)
  | shutdown
  | leaveLoop
  | del (executed : Bool)
  | crash
  | tick (elapsed : ℕ)
deriving DecidableEq

def State.call (state : State) (answer : Answer) (executed : Etcd → Etcd) : State :=
  if answer.executed then { state with etcd := executed state.etcd, served := state.now } else state

def step (state : State) : Event → Option State
  | .grantLease answer =>
      let leaseId := if answer.executed && answer.answered then state.etcd.nextLease else 0
      let after := state.call answer fun etcd => etcd.grantLease state.now
      match state.phase with
      | .granting _ =>
          if state.running then
            some { after with phase := if 0 < leaseId then .putting leaseId else .granting leaseId }
          else none
      | .regranting => some { after with phase := if 0 < leaseId then .reputting leaseId else .deleting leaseId }
      | _ => none
  | .put answer =>
      match state.phase with
      | .putting leaseId =>
          let stored := answer.executed && answer.answered && state.etcd.live leaseId
          some { state.call answer fun etcd => etcd.put leaseId with
            phase := if stored then .sleeping leaseId 0 else .granting leaseId }
      -- the result is not looked at
      | .reputting leaseId =>
          some { state.call answer fun etcd => etcd.put leaseId with phase := .sleeping leaseId 0 }
      | _ => none
  | .keepAlive answer =>
      match state.phase with
      | .sleeping leaseId keepFailures =>
          if state.running then
            let kept := answer.executed && answer.answered && state.etcd.live leaseId
            some { state.call answer fun etcd => etcd.keepAlive state.now leaseId with
              phase := if kept then .sleeping leaseId 0
                else if 3 ≤ keepFailures + 1 then .regranting
                else .sleeping leaseId (keepFailures + 1) }
          else none
      | _ => none
  | .shutdown => some { state with running := false }
  | .leaveLoop =>
      if state.running then none
      else
        match state.phase with
        | .granting leaseId => some { state with phase := .deleting leaseId }
        | .sleeping leaseId _ => some { state with phase := .deleting leaseId }
        | _ => none
  | .del executed =>
      match state.phase with
      | .deleting leaseId => some { state with
          etcd := if leaseId ≠ 0 ∧ executed = true then { state.etcd with holder := none } else state.etcd
          phase := .stopped }
      | _ => none
  | .crash => some { state with phase := .stopped }
  | .tick elapsed => some { state with now := state.now + elapsed, etcd := state.etcd.expire (state.now + elapsed) }

def machine : Machine State Event := ⟨step⟩

/-- The gateways see the key. -/
def State.Listed (state : State) : Prop := state.etcd.holder.isSome

/-- Every call is executed and answered, and no lease that the thread uses runs out
between two of them. -/
def Healthy (state : State) : Event → Prop
  | .grantLease answer | .put answer | .keepAlive answer => answer = {}
  | .shutdown | .crash => False
  | .tick elapsed => ∀ leaseId ends,
      (state.phase = .reputting leaseId ∨ ∃ failures, state.phase = .sleeping leaseId failures) →
      state.etcd.leases leaseId = some ends → state.now + elapsed < ends
  | .leaveLoop | .del _ => True

/-! ## The calls -/

variable {etcd : Etcd} {leaseId other : ℕ} {now ends : Int}

theorem live_iff : etcd.live leaseId = true ↔ ∃ ends, etcd.leases leaseId = some ends := Option.isSome_iff_exists

theorem leases_grantLease_of_ne (different : other ≠ etcd.nextLease) :
    (etcd.grantLease now).leases other = etcd.leases other := Function.update_of_ne different ..

theorem leases_grantLease (found : (etcd.grantLease now).leases other = some ends) :
    etcd.leases other = some ends ∨ (other = etcd.nextLease ∧ ends = now + leaseMs) := by
  by_cases same : other = etcd.nextLease
  · subst same
    simp only [Etcd.grantLease, Function.update_self, Option.some.injEq] at found
    exact .inr ⟨rfl, found.symm⟩
  · rw [leases_grantLease_of_ne same] at found
    exact .inl found

theorem leases_keepAlive (found : (etcd.keepAlive now leaseId).leases other = some ends) :
    etcd.leases other = some ends ∨ (other = leaseId ∧ ends = now + leaseMs) := by
  unfold Etcd.keepAlive at found
  split at found
  · by_cases same : other = leaseId
    · subst same
      simp only [Function.update_self, Option.some.injEq] at found
      exact .inr ⟨rfl, found.symm⟩
    · simp only [Function.update_of_ne same] at found
      exact .inl found
  · exact .inl found

theorem leases_put : (etcd.put leaseId).leases = etcd.leases := by
  unfold Etcd.put
  split <;> rfl

theorem live_keepAlive : (etcd.keepAlive now leaseId).live other = etcd.live other := by
  unfold Etcd.keepAlive
  split
  · rename_i live
    by_cases same : other = leaseId
    · subst same
      simp only [Etcd.live, Function.update_self, Option.isSome_some]
      exact live.symm
    · simp only [Etcd.live, Function.update_of_ne same]
  · rfl

theorem live_expire (live : etcd.leases leaseId = some ends) (later : now < ends) :
    (etcd.expire now).leases leaseId = some ends := by
  simp [Etcd.expire, live, later]

/-! ## Leases in a run -/

/-- The leases run, for 15 seconds at most after the last call, and the key is bound
to one of them. -/
structure Etcd.Sound (etcd : Etcd) (now served : Int) : Prop where
  runs : ∀ leaseId ends, etcd.leases leaseId = some ends → now < ends ∧ ends ≤ served + leaseMs
  bound : ∀ leaseId, etcd.holder = some leaseId → etcd.live leaseId = true
  unused : ∀ leaseId, etcd.nextLease ≤ leaseId → etcd.leases leaseId = none
  positive : 0 < etcd.nextLease

structure Sound (state : State) : Prop where
  etcd : state.etcd.Sound state.now state.served
  past : state.served ≤ state.now
  failures : ∀ leaseId keepFailures, state.phase = .sleeping leaseId keepFailures → keepFailures < 3

variable {state next : State} {answer : Answer} {served : Int}

theorem now_lt_ends : now < now + leaseMs := by
  unfold leaseMs
  omega

theorem Etcd.Sound.grantLease (sound : etcd.Sound now served) (past : served ≤ now) : (etcd.grantLease now).Sound now now where
  runs leaseId ends found := by
    obtain old | ⟨_, rfl⟩ := leases_grantLease found
    · obtain ⟨later, within⟩ := sound.runs leaseId ends old
      exact ⟨later, by omega⟩
    · exact ⟨now_lt_ends, Int.le_refl _⟩
  bound leaseId holds := by
    have live := sound.bound leaseId holds
    have different : leaseId ≠ etcd.nextLease := by
      intro same
      rw [Etcd.live, sound.unused leaseId (Nat.le_of_eq same.symm)] at live
      cases live
    rw [Etcd.live, leases_grantLease_of_ne different]
    exact live
  unused leaseId beyond := by
    have further : etcd.nextLease + 1 ≤ leaseId := beyond
    have different : leaseId ≠ etcd.nextLease := by omega
    rw [leases_grantLease_of_ne different]
    exact sound.unused leaseId (by omega)
  positive := Nat.succ_pos _

theorem Etcd.Sound.put (sound : etcd.Sound now served) (past : served ≤ now) (leaseId : ℕ) :
    (etcd.put leaseId).Sound now now where
  runs other ends found := by
    rw [leases_put] at found
    obtain ⟨later, within⟩ := sound.runs other ends found
    exact ⟨later, by omega⟩
  bound other holds := by
    rw [Etcd.live, leases_put]
    unfold Etcd.put at holds
    split at holds
    · rename_i live
      rw [← Option.some.inj holds]
      exact live
    · exact sound.bound other holds
  unused other beyond := by
    rw [leases_put]
    refine sound.unused other ?_
    unfold Etcd.put at beyond
    split at beyond <;> exact beyond
  positive := by
    unfold Etcd.put
    split <;> exact sound.positive

theorem Etcd.Sound.keepAlive (sound : etcd.Sound now served) (past : served ≤ now) (leaseId : ℕ) :
    (etcd.keepAlive now leaseId).Sound now now where
  runs other ends found := by
    obtain old | ⟨_, rfl⟩ := leases_keepAlive found
    · obtain ⟨later, within⟩ := sound.runs other ends old
      exact ⟨later, by omega⟩
    · exact ⟨now_lt_ends, Int.le_refl _⟩
  bound other holds := by
    rw [live_keepAlive]
    refine sound.bound other ?_
    unfold Etcd.keepAlive at holds
    split at holds <;> exact holds
  unused other beyond := by
    have same : (etcd.keepAlive now leaseId).nextLease = etcd.nextLease := by
      unfold Etcd.keepAlive
      split <;> rfl
    rw [same] at beyond
    have none_before := sound.unused other beyond
    have dead : (etcd.keepAlive now leaseId).live other = false := by
      rw [live_keepAlive, Etcd.live, none_before]
      rfl
    exact Option.isNone_iff_eq_none.mp (Option.isSome_eq_false_iff.mp dead)
  positive := by
    unfold Etcd.keepAlive
    split <;> exact sound.positive

theorem Etcd.Sound.expire (sound : etcd.Sound now served) (later : Int) : (etcd.expire later).Sound later served where
  runs leaseId ends found := by
    obtain ⟨held, runs⟩ := Option.filter_eq_some_iff.mp found
    exact ⟨of_decide_eq_true runs, (sound.runs leaseId ends held).2⟩
  bound leaseId holds := (Option.filter_eq_some_iff.mp holds).2
  unused leaseId beyond := by
    rw [Etcd.expire]
    dsimp only
    rw [sound.unused leaseId beyond]
    rfl
  positive := sound.positive

/-- A call that keeps etcd sound. -/
theorem Sound.call {executed : Etcd → Etcd} {phase : Phase} (sound : Sound state)
    (keeps : (executed state.etcd).Sound state.now state.now)
    (failures : ∀ leaseId keepFailures, phase = .sleeping leaseId keepFailures → keepFailures < 3) :
    Sound { state.call answer executed with phase } := by
  unfold State.call
  split
  · exact ⟨keeps, Int.le_refl _, failures⟩
  · exact ⟨sound.etcd, sound.past, failures⟩

theorem Sound.preserved {event : Event} (sound : Sound state) (stepped : step state event = some next) : Sound next := by
  cases event with
  | grantLease answer =>
      have granted := sound.etcd.grantLease sound.past
      simp only [step] at stepped
      split at stepped
      · split at stepped
        · cases stepped
          refine sound.call granted fun leaseId keepFailures same => ?_
          generalize (if (answer.executed && answer.answered) = true then state.etcd.nextLease else 0) = given at same
          split at same <;> cases same
        · cases stepped
      · cases stepped
        refine sound.call granted fun leaseId keepFailures same => ?_
        generalize (if (answer.executed && answer.answered) = true then state.etcd.nextLease else 0) = given at same
        split at same <;> cases same
      · cases stepped
  | put answer =>
      simp only [step] at stepped
      split at stepped
      · cases stepped
        refine sound.call (sound.etcd.put sound.past _) fun leaseId keepFailures same => ?_
        split at same <;> cases same
        omega
      · cases stepped
        refine sound.call (sound.etcd.put sound.past _) fun leaseId keepFailures same => ?_
        cases same
        omega
      · cases stepped
  | keepAlive answer =>
      simp only [step] at stepped
      split at stepped
      · split at stepped
        · cases stepped
          refine sound.call (sound.etcd.keepAlive sound.past _) fun leaseId keepFailures same => ?_
          split at same
          · cases same
            omega
          · split at same
            · cases same
            · cases same
              omega
        · cases stepped
      · cases stepped
  | shutdown =>
      cases stepped
      exact ⟨sound.etcd, sound.past, sound.failures⟩
  | leaveLoop =>
      simp only [step] at stepped
      split at stepped
      · cases stepped
      · split at stepped <;> cases stepped <;> exact ⟨sound.etcd, sound.past, fun _ _ same => by cases same⟩
  | del executed =>
      simp only [step] at stepped
      split at stepped
      · cases stepped
        refine ⟨?_, sound.past, fun _ _ same => by cases same⟩
        dsimp only
        split
        · exact ⟨sound.etcd.runs, fun _ holds => (by cases holds), sound.etcd.unused, sound.etcd.positive⟩
        · exact sound.etcd
      · cases stepped
  | crash =>
      cases stepped
      exact ⟨sound.etcd, sound.past, fun _ _ same => by cases same⟩
  | tick elapsed =>
      cases stepped
      have past := sound.past
      exact ⟨sound.etcd.expire _, by dsimp only; omega, sound.failures⟩

theorem sound_start : Sound {} where
  etcd := ⟨fun _ _ found => (by cases found), fun _ holds => (by cases holds), fun _ _ => rfl, Nat.one_pos⟩
  past := Int.le_refl _
  failures _ _ same := by cases same

/-! ## After an outage -/

/-- The key is bound to the lease of the thread, or the thread is about to find out
that its lease is gone; `rounds` counts the keep-alives that have failed so far. -/
inductive Heals (rounds : ℕ) (state : State) : Prop where
  | kept {leaseId keepFailures : ℕ} (phase : state.phase = .sleeping leaseId keepFailures)
      (live : state.etcd.live leaseId = true) (holds : state.etcd.holder = some leaseId)
  | waits {leaseId keepFailures : ℕ} (phase : state.phase = .sleeping leaseId keepFailures)
      (dead : state.etcd.live leaseId = false) (failed : rounds ≤ keepFailures)
  | regranting (phase : state.phase = .regranting)
  | reputting {leaseId : ℕ} (phase : state.phase = .reputting leaseId) (live : state.etcd.live leaseId = true)

/-- The lease of the thread runs and the key is not bound to it; a lease that it is
still bound to ends by `limit`. -/
def Orphaned (limit : Int) (state : State) : Prop :=
  ∃ leaseId keepFailures, state.phase = .sleeping leaseId keepFailures ∧ state.etcd.live leaseId = true ∧
    ∀ other, state.etcd.holder = some other → other ≠ leaseId ∧
      ∀ ends, state.etcd.leases other = some ends → ends ≤ limit

variable {rounds : ℕ} {event : Event} {events : List Event} {limit : Int}

theorem live_of_healthy_tick {elapsed : ℕ} (live : state.etcd.live leaseId = true)
    (inUse : state.phase = .reputting leaseId ∨ ∃ failures, state.phase = .sleeping leaseId failures)
    (healthy : Healthy state (.tick elapsed)) : (state.etcd.expire (state.now + elapsed)).live leaseId = true := by
  obtain ⟨ends, found⟩ := live_iff.mp live
  exact live_iff.mpr ⟨ends, live_expire found (healthy leaseId ends inUse found)⟩

theorem Heals.step (heals : Heals rounds state) (sound : Sound state) (running : state.running = true)
    (healthy : Healthy state event) (stepped : step state event = some next) :
    Heals (rounds + if event = .keepAlive {} then 1 else 0) next ∧ next.running = true := by
  cases event with
  | grantLease answer =>
      cases healthy
      cases heals with
      | kept phase live holds => simp [EtcdRegistration.step, phase] at stepped
      | waits phase dead failed => simp [EtcdRegistration.step, phase] at stepped
      | reputting phase live => simp [EtcdRegistration.step, phase] at stepped
      | regranting phase =>
          simp only [EtcdRegistration.step, phase, State.call, Bool.and_self, if_true, if_pos sound.etcd.positive] at stepped
          cases stepped
          refine ⟨.reputting rfl ?_, running⟩
          simp [Etcd.live, Etcd.grantLease]
  | put answer =>
      cases healthy
      cases heals with
      | kept phase live holds => simp [EtcdRegistration.step, phase] at stepped
      | waits phase dead failed => simp [EtcdRegistration.step, phase] at stepped
      | regranting phase => simp [EtcdRegistration.step, phase] at stepped
      | reputting phase live =>
          simp only [EtcdRegistration.step, phase, State.call, if_true] at stepped
          cases stepped
          refine ⟨.kept rfl ?_ ?_, running⟩
          · rw [Etcd.live, leases_put]
            exact live
          · rw [Etcd.put, if_pos live]
  | keepAlive answer =>
      cases healthy
      cases heals with
      | regranting phase => simp [EtcdRegistration.step, phase] at stepped
      | reputting phase live => simp [EtcdRegistration.step, phase] at stepped
      | kept phase live holds =>
          simp only [EtcdRegistration.step, phase, running, State.call, live, Bool.and_self, if_true] at stepped
          cases stepped
          refine ⟨.kept rfl ?_ ?_, rfl⟩
          · rw [live_keepAlive]
            exact live
          · rw [Etcd.keepAlive, if_pos live]
            exact holds
      | waits phase dead failed =>
          simp only [EtcdRegistration.step, phase, running, State.call, dead, Bool.and_false, if_true,
            Bool.false_eq_true, if_false] at stepped
          split at stepped
          · cases stepped
            exact ⟨.regranting rfl, rfl⟩
          · cases stepped
            refine ⟨.waits rfl ?_ ?_, rfl⟩
            · rw [live_keepAlive]
              exact dead
            · rw [if_pos rfl]
              omega
  | shutdown => cases healthy
  | leaveLoop =>
      rw [EtcdRegistration.step, running] at stepped
      cases stepped
  | del executed =>
      cases heals with
      | kept phase live holds => simp [EtcdRegistration.step, phase] at stepped
      | waits phase dead failed => simp [EtcdRegistration.step, phase] at stepped
      | regranting phase => simp [EtcdRegistration.step, phase] at stepped
      | reputting phase live => simp [EtcdRegistration.step, phase] at stepped
  | crash => cases healthy
  | tick elapsed =>
      cases stepped
      refine ⟨?_, running⟩
      cases heals with
      | kept phase live holds =>
          have lives := live_of_healthy_tick live (.inr ⟨_, phase⟩) healthy
          exact .kept phase lives (Option.filter_eq_some_iff.mpr ⟨holds, lives⟩)
      | waits phase dead failed =>
          refine .waits phase ?_ failed
          have none_before := Option.isNone_iff_eq_none.mp (Option.isSome_eq_false_iff.mp dead)
          simp [Etcd.live, Etcd.expire, none_before]
      | regranting phase => exact .regranting phase
      | reputting phase live => exact .reputting phase (live_of_healthy_tick live (.inl phase) healthy)

theorem Orphaned.step (orphaned : Orphaned limit state) (running : state.running = true)
    (healthy : Healthy state event) (stepped : step state event = some next) :
    Orphaned limit next ∧ next.running = true := by
  obtain ⟨leaseId, keepFailures, phase, live, elsewhere⟩ := orphaned
  cases event with
  | grantLease answer => simp [EtcdRegistration.step, phase] at stepped
  | put answer => simp [EtcdRegistration.step, phase] at stepped
  | keepAlive answer =>
      cases healthy
      simp only [EtcdRegistration.step, phase, running, State.call, live, Bool.and_self, if_true] at stepped
      cases stepped
      refine ⟨⟨leaseId, 0, rfl, by rw [live_keepAlive]; exact live, fun other holds => ?_⟩, rfl⟩
      rw [Etcd.keepAlive, if_pos live] at holds ⊢
      obtain ⟨different, bounded⟩ := elsewhere other holds
      refine ⟨different, fun ends found => bounded ends ?_⟩
      dsimp only at found
      rwa [Function.update_of_ne different] at found
  | shutdown => cases healthy
  | leaveLoop =>
      rw [EtcdRegistration.step, running] at stepped
      cases stepped
  | del executed => simp [EtcdRegistration.step, phase] at stepped
  | crash => cases healthy
  | tick elapsed =>
      cases stepped
      refine ⟨⟨leaseId, keepFailures, phase, live_of_healthy_tick live (.inr ⟨_, phase⟩) healthy, fun other holds => ?_⟩,
        running⟩
      obtain ⟨different, bounded⟩ := elsewhere other (Option.filter_eq_some_iff.mp holds).1
      exact ⟨different, fun ends found => bounded ends (Option.filter_eq_some_iff.mp found).1⟩

theorem Heals.run (heals : Heals rounds state) (sound : Sound state) (running : state.running = true)
    (healthy : machine.Meets Healthy state events) (completed : machine.run state events = some next) :
    Heals (rounds + events.count (.keepAlive {})) next ∧ Sound next := by
  induction events generalizing state rounds with
  | nil =>
      cases completed
      exact ⟨heals, sound⟩
  | cons event rest ih =>
      obtain ⟨between, stepped, ran⟩ := Machine.run_cons_eq_some.mp completed
      obtain ⟨allowed, later⟩ := healthy between stepped
      obtain ⟨healsNext, runs⟩ := heals.step sound running allowed stepped
      have rest_heals := ih healsNext (sound.preserved stepped) runs later ran
      have counted : rounds + (event :: rest).count (.keepAlive {}) =
          rounds + (if event = .keepAlive {} then 1 else 0) + rest.count (.keepAlive {}) := by
        rw [List.count_cons]
        simp only [beq_iff_eq]
        omega
      rw [counted]
      exact rest_heals

theorem Orphaned.run (orphaned : Orphaned limit state) (sound : Sound state) (running : state.running = true)
    (healthy : machine.Meets Healthy state events) (completed : machine.run state events = some next) :
    Orphaned limit next ∧ Sound next := by
  induction events generalizing state with
  | nil =>
      cases completed
      exact ⟨orphaned, sound⟩
  | cons event rest ih =>
      obtain ⟨between, stepped, ran⟩ := Machine.run_cons_eq_some.mp completed
      obtain ⟨allowed, later⟩ := healthy between stepped
      obtain ⟨stays, runs⟩ := orphaned.step running allowed stepped
      exact ih stays (sound.preserved stepped) runs later ran

theorem Heals.listed (heals : Heals rounds state) (sound : Sound state) (enough : 3 ≤ rounds)
    (sleeps : ∃ leaseId keepFailures, state.phase = .sleeping leaseId keepFailures) : state.Listed := by
  obtain ⟨leaseId, keepFailures, here⟩ := sleeps
  cases heals with
  | kept phase live holds =>
      rw [State.Listed, holds]
      rfl
  | waits phase dead failed =>
      have few := sound.failures _ _ phase
      omega
  | regranting phase =>
      rw [here] at phase
      cases phase
  | reputting phase live =>
      rw [here] at phase
      cases phase

theorem Orphaned.not_listed (orphaned : Orphaned limit state) (sound : Sound state) (late : limit ≤ state.now) :
    ¬ state.Listed := by
  intro listed
  obtain ⟨_, _, _, _, elsewhere⟩ := orphaned
  obtain ⟨other, holds⟩ := Option.isSome_iff_exists.mp listed
  obtain ⟨ends, found⟩ := live_iff.mp (sound.etcd.bound other holds)
  have runs := (sound.etcd.runs other ends found).1
  have bounded := (elsewhere other holds).2 ends found
  omega

/-- While the calls are healthy again for 15 seconds and three keep-alives, the key
is listed at the end exactly if the lease of the thread does not run without it. -/
def HealsUnlessOrphaned (state : State) : Prop :=
  ∀ leaseId keepFailures, state.phase = .sleeping leaseId keepFailures → state.running = true →
    ∀ events after, machine.run state events = some after → machine.Meets Healthy state events →
      (∃ leaseId keepFailures, after.phase = .sleeping leaseId keepFailures) →
      3 ≤ events.count (.keepAlive {}) → state.now + leaseMs ≤ after.now →
      (after.Listed ↔ (state.etcd.live leaseId = true → state.etcd.holder = some leaseId))

theorem Sound.heals_unless_orphaned (sound : Sound state) : HealsUnlessOrphaned state := by
  intro leaseId keepFailures phase running events after completed healthy sleeps enough late
  have heals (begins : Heals 0 state) : after.Listed := by
    obtain ⟨healed, soundAfter⟩ := begins.run sound running healthy completed
    exact healed.listed soundAfter (by omega) sleeps
  by_cases live : state.etcd.live leaseId = true
  · by_cases holds : state.etcd.holder = some leaseId
    · exact ⟨fun _ _ => holds, fun _ => heals (.kept phase live holds)⟩
    · have orphaned : Orphaned (state.now + leaseMs) state := by
        refine ⟨leaseId, keepFailures, phase, live, fun other bound => ⟨fun same => holds (same ▸ bound), ?_⟩⟩
        intro ends found
        have within := (sound.etcd.runs other ends found).2
        have past := sound.past
        omega
      obtain ⟨stays, soundAfter⟩ := orphaned.run sound running healthy completed
      exact ⟨fun listed => absurd listed (stays.not_listed soundAfter late), fun bound => absurd (bound live) holds⟩
  · have dead : state.etcd.live leaseId = false := Bool.eq_false_iff.mpr live
    exact ⟨fun _ alive => absurd alive live, fun _ => heals (.waits phase dead (Nat.zero_le _))⟩

/-- In every run the key is gone 15 seconds after the last call that etcd has
executed.  From every state of the keep-alive loop it comes back with healthy calls,
unless the second put was lost and the new lease runs without it; a second grant that
fails ends the loop instead. -/
theorem registration_heals (events : List Event) :
    machine.Always (fun state => (state.Listed → state.now < state.served + leaseMs) ∧ HealsUnlessOrphaned state) {}
      events := by
  refine (Machine.always_of_step Sound sound_start fun _ _ _ sound stepped => sound.preserved stepped).mono
    fun state sound => ⟨fun listed => ?_, sound.heals_unless_orphaned⟩
  obtain ⟨leaseId, holds⟩ := Option.isSome_iff_exists.mp listed
  obtain ⟨ends, found⟩ := live_iff.mp (sound.etcd.bound leaseId holds)
  obtain ⟨runs, within⟩ := sound.etcd.runs leaseId ends found
  omega

theorem healthy_tick {keepFailures elapsed : ℕ} (phase : state.phase = .sleeping leaseId keepFailures)
    (runs : ∀ ends ∈ state.etcd.leases leaseId, state.now + elapsed < ends) : Healthy state (.tick elapsed) := by
  intro other ends inUse found
  rw [phase] at inUse
  obtain reputting | ⟨_, sleeping⟩ := inUse
  · cases reputting
  · cases sleeping
    exact runs ends found

/-- The key is there, and goes with its lease while no keep-alive reaches etcd. -/
def outage : List Event := [.grantLease {}, .put {}, .keepAlive ⟨false, false⟩, .tick 16000]

/-- The thread notices, takes another lease and puts the key again. -/
def recovery : List Event :=
  [.keepAlive {}, .tick 5000, .keepAlive {}, .grantLease {}, .put {}, .tick 5000, .keepAlive {}, .tick 5000]

theorem recovery_healthy : ∃ state after, machine.run {} outage = some state ∧ ¬ state.Listed ∧
    machine.Meets Healthy state recovery ∧ machine.run state recovery = some after ∧ after.Listed := by
  have lasts (now later : Int) (soon : later < now + leaseMs) : ∀ ends ∈ some (now + leaseMs), later < ends := by
    simpa using soon
  refine ⟨_, _, rfl, Bool.false_ne_true, ?_, rfl, rfl⟩
  refine Machine.Meets.cons rfl rfl (Machine.Meets.cons rfl (healthy_tick rfl fun _ gone => by cases gone) ?_)
  refine Machine.Meets.cons rfl rfl (Machine.Meets.cons rfl rfl (Machine.Meets.cons rfl rfl ?_))
  refine Machine.Meets.cons rfl (healthy_tick rfl (lasts 21000 26000 (by decide))) ?_
  refine Machine.Meets.cons rfl rfl (Machine.Meets.cons rfl (healthy_tick rfl (lasts 26000 31000 (by decide))) ?_)
  trivial

/-- Three keep-alives fail, and the second put; the new lease is kept alive. -/
example : (machine.run {} [.grantLease {}, .put {}, .keepAlive ⟨false, false⟩, .keepAlive ⟨false, false⟩,
    .keepAlive ⟨false, false⟩, .grantLease {}, .put ⟨false, false⟩, .tick 14000, .keepAlive {}, .tick 14000,
    .keepAlive {}]).map (fun state => (state.phase, state.etcd.holder, state.etcd.live 2)) =
      some (.sleeping 2 0, none, true) := by decide

end MuduoIm.Logic.EtcdRegistration
