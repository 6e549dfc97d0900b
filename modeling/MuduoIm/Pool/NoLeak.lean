import MuduoIm.Pool.Transactions

namespace MuduoIm.Pool

open MuduoIm.Transition

variable {Conn Thread Request : Type} {scripts : Request → List Action}
variable {state next : State Conn Thread} {thread : Thread} {conn : Conn}

/-! # Requests that end their transactions before they release

No interleaving of such requests leaks a transaction, and any other request
leaks one when it runs alone.
-/

/-! ## Safety -/

/-- The request goes on in the right order and releases no open transaction. -/
structure Orderly (position : Position) (script : List Action) : Prop where
  follows : Follows position script
  closes : ¬ Abandons position script

/-- What the connection, the guard and the owner look like to an orderly
request. -/
def Placed (owner : Conn → Option Thread) (thread : Thread) (client : Client Conn) : Position → Prop
  | .outside => client.conn = none ∧ client.guard = none
  | .connected => ∃ conn, client.conn = some conn ∧ client.guard = none ∧ owner conn = none
  | .inTransaction =>
      ∃ conn, client.conn = some conn ∧ client.guard = some conn ∧ owner conn = some thread
  | .released => False

structure Separated (state : State Conn Thread) : Prop where
  distinct : state.free.Nodup
  apart : ∀ thread conn, (state.clients thread).conn = some conn → conn ∉ state.free
  exclusive : ∀ first second conn, (state.clients first).conn = some conn →
    (state.clients second).conn = some conn → first = second
  placed : ∀ thread, ∃ position, Orderly position (state.clients thread).script ∧
    Placed state.owner thread (state.clients thread) position
  noLeak : NoLeak state

theorem Orderly.head {position : Position} {action : Action} {rest : List Action}
    (orderly : Orderly position (action :: rest)) :
    ∃ after, position.next action = some after ∧ after ≠ .released ∧ Orderly after rest := by
  obtain ⟨follows, closes⟩ := orderly
  simp only [Follows, Abandons] at follows closes
  cases stepped : position.next action with
  | none => simp [stepped] at follows
  | some after =>
      simp only [stepped, not_or] at follows closes
      exact ⟨after, rfl, closes.1, follows, closes.2⟩

theorem Placed.congr {owner other : Conn → Option Thread} {client : Client Conn} {position : Position}
    (placed : Placed owner thread client position)
    (same : ∀ conn, client.conn = some conn → other conn = owner conn) :
    Placed other thread client position := by
  cases position with
  | outside => exact placed
  | connected =>
      obtain ⟨conn, held, idle, closed⟩ := placed
      exact ⟨conn, held, idle, (same conn held).trans closed⟩
  | inTransaction =>
      obtain ⟨conn, held, guarded, own⟩ := placed
      exact ⟨conn, held, guarded, (same conn held).trans own⟩
  | released => exact placed

def initial (pool : List Conn) : State Conn Thread := { free := pool }

theorem separated_initial {pool : List Conn} (distinct : pool.Nodup) :
    Separated (initial pool : State Conn Thread) where
  distinct := distinct
  apart := fun _ _ holds => by simp [initial] at holds
  exclusive := fun _ _ _ holds => by simp [initial] at holds
  placed := fun _ => ⟨.outside, ⟨rfl, id⟩, rfl, rfl⟩
  noLeak := ⟨fun _ _ => rfl, rfl⟩

variable [DecidableEq Thread]

theorem foreign_self {owner : Conn → Option Thread} (own : owner conn = some thread) :
    foreign owner conn thread = false := by
  simp [foreign, own]

theorem foreign_none {owner : Conn → Option Thread} (closed : owner conn = none) :
    foreign owner conn thread = false := by
  simp [foreign, closed]

/-- One thread acts; the connections of the others are not touched. -/
theorem Separated.update {free : List Conn} {owner : Conn → Option Thread} {client : Client Conn}
    {mixed : Bool} {position : Position} (separated : Separated state) (distinct : free.Nodup)
    (mine : ∀ conn, client.conn = some conn → conn ∉ free)
    (others : ∀ other, other ≠ thread → ∀ conn, (state.clients other).conn = some conn →
      conn ∉ free ∧ client.conn ≠ some conn ∧ owner conn = state.owner conn)
    (orderly : Orderly position client.script) (placed : Placed owner thread client position)
    (closed : ∀ conn ∈ free, owner conn = none) (unmixed : mixed = false) :
    Separated { free, owner, clients := Function.update state.clients thread client, mixed } where
  distinct := distinct
  apart := fun other conn holds => by
    by_cases acting : other = thread
    · simp only [acting, Function.update_self] at holds
      exact mine conn holds
    · simp only [Function.update_of_ne acting] at holds
      exact (others other acting conn holds).1
  exclusive := fun first second conn firstHolds secondHolds => by
    by_cases firstActs : first = thread
    · by_cases secondActs : second = thread
      · rw [firstActs, secondActs]
      · simp only [firstActs, Function.update_self] at firstHolds
        simp only [Function.update_of_ne secondActs] at secondHolds
        exact absurd firstHolds (others second secondActs conn secondHolds).2.1
    · simp only [Function.update_of_ne firstActs] at firstHolds
      by_cases secondActs : second = thread
      · simp only [secondActs, Function.update_self] at secondHolds
        exact absurd secondHolds (others first firstActs conn firstHolds).2.1
      · simp only [Function.update_of_ne secondActs] at secondHolds
        exact separated.exclusive first second conn firstHolds secondHolds
  placed := fun other => by
    by_cases acting : other = thread
    · subst acting
      simp only [Function.update_self]
      exact ⟨position, orderly, placed⟩
    · obtain ⟨stand, ordered, stands⟩ := separated.placed other
      simp only [Function.update_of_ne acting]
      exact ⟨stand, ordered, stands.congr fun conn holds => (others other acting conn holds).2.2⟩
  noLeak := ⟨closed, unmixed⟩

/-- An action on the held connection that keeps it. -/
theorem Separated.keep {owner : Conn → Option Thread} {client : Client Conn} {position : Position}
    (separated : Separated state) (held : (state.clients thread).conn = some conn)
    (keeps : client.conn = some conn) (same : ∀ other, other ≠ conn → owner other = state.owner other)
    (orderly : Orderly position client.script) (placed : Placed owner thread client position) :
    Separated { state with
      owner, clients := Function.update state.clients thread client, mixed := false } := by
  have unavailable := separated.apart thread conn held
  have unshared (other : Thread) (acting : other ≠ thread) (used : Conn)
      (holds : (state.clients other).conn = some used) : used ≠ conn := by
    intro equal
    exact acting (separated.exclusive other thread conn (equal ▸ holds) held)
  refine separated.update separated.distinct (fun used holds => ?_) (fun other acting used holds => ?_)
    orderly placed (fun used member => ?_) rfl
  · rw [keeps] at holds
    cases holds
    exact unavailable
  · have distinct := unshared other acting used holds
    refine ⟨separated.apart other used holds, ?_, same used distinct⟩
    rw [keeps]
    exact fun equal => distinct (Option.some.inj equal).symm
  · have distinct : used ≠ conn := fun equal => unavailable (equal ▸ member)
    exact (same used distinct).trans (separated.noLeak.1 used member)

theorem Separated.release {client : Client Conn} (separated : Separated state)
    (held : (state.clients thread).conn = some conn) (closed : state.owner conn = none)
    (drops : client.conn = none) (unguarded : client.guard = none)
    (orderly : Orderly .outside client.script) :
    Separated { state with
      free := conn :: state.free, clients := Function.update state.clients thread client } := by
  have distinct : (conn :: state.free).Nodup :=
    List.nodup_cons.mpr ⟨separated.apart thread conn held, separated.distinct⟩
  refine separated.update distinct (by simp [drops]) (fun other acting used holds => ?_) orderly
    ⟨drops, unguarded⟩ (fun used member => ?_) separated.noLeak.2
  · refine ⟨List.not_mem_cons_of_ne_of_not_mem (fun equal => acting ?_)
      (separated.apart other used holds), by simp [drops], rfl⟩
    exact separated.exclusive other thread conn (equal ▸ holds) held
  · rcases List.mem_cons.mp member with rfl | earlier
    · exact closed
    · exact separated.noLeak.1 used earlier

theorem Separated.start {client : Client Conn} (separated : Separated state)
    (drops : client.conn = none) (unguarded : client.guard = none)
    (orderly : Orderly .outside client.script) :
    Separated { state with clients := Function.update state.clients thread client } := by
  refine separated.update separated.distinct (by simp [drops]) (fun other _ used holds => ?_) orderly
    ⟨drops, unguarded⟩ separated.noLeak.1 separated.noLeak.2
  exact ⟨separated.apart other used holds, by simp [drops], rfl⟩

variable [DecidableEq Conn]

theorem Separated.acquire {rest : List Action} (separated : Separated state)
    (todo : (state.clients thread).script = .acquire :: rest) (available : conn ∈ state.free) :
    Separated { state with
      free := state.free.erase conn
      clients := Function.update state.clients thread
        { state.clients thread with script := rest, conn := some conn } } := by
  obtain ⟨position, orderly, stands⟩ := separated.placed thread
  rw [todo] at orderly
  obtain ⟨after, moved, _, ordered⟩ := orderly.head
  cases position <;> simp only [Position.next, Option.some.injEq, reduceCtorEq] at moved
  subst moved
  have connected : Placed state.owner thread
      { state.clients thread with script := rest, conn := some conn } .connected :=
    ⟨conn, rfl, stands.2, separated.noLeak.1 conn available⟩
  refine separated.update (separated.distinct.erase conn) (fun used holds => ?_)
    (fun other _ used holds => ?_) ordered connected (fun used member => ?_) separated.noLeak.2
  · cases holds
    exact separated.distinct.not_mem_erase
  · have unavailable := separated.apart other used holds
    refine ⟨fun member => unavailable (List.mem_of_mem_erase member), fun equal => ?_, rfl⟩
    cases equal
    exact unavailable available
  · exact separated.noLeak.1 used (List.mem_of_mem_erase member)

theorem Separated.perform {action : Action} {rest : List Action} (separated : Separated state)
    (todo : (state.clients thread).script = action :: rest)
    (stepped : perform state thread rest action = some next) : Separated next := by
  obtain ⟨position, orderly, stands⟩ := separated.placed thread
  have unmixed := separated.noLeak.2
  rw [todo] at orderly
  obtain ⟨after, moved, stays, ordered⟩ := orderly.head
  cases action <;> cases position <;>
    simp only [Position.next, Option.some.injEq, reduceCtorEq] at moved
  case acquire.outside => contradiction
  case statement.connected =>
    subst moved
    obtain ⟨conn, held, unguarded, closed⟩ := stands
    simp only [Pool.perform, held, Option.map_some, Option.some.injEq] at stepped
    subst stepped
    rw [foreign_none closed, unmixed]
    exact separated.keep held rfl (fun _ _ => rfl) ordered ⟨conn, rfl, unguarded, closed⟩
  case statement.inTransaction =>
    subst moved
    obtain ⟨conn, held, guarded, mine⟩ := stands
    simp only [Pool.perform, held, Option.map_some, Option.some.injEq] at stepped
    subst stepped
    rw [foreign_self mine, unmixed]
    exact separated.keep held rfl (fun _ _ => rfl) ordered ⟨conn, rfl, guarded, mine⟩
  case begin.connected =>
    subst moved
    obtain ⟨conn, held, unguarded, closed⟩ := stands
    simp only [Pool.perform, held, Option.map_some, Option.some.injEq] at stepped
    subst stepped
    rw [foreign_none closed, unmixed]
    exact separated.keep held rfl (fun other apart => Function.update_of_ne apart _ _) ordered
      ⟨conn, rfl, rfl, Function.update_self _ _ _⟩
  case commit.inTransaction succeeded =>
    obtain ⟨conn, held, guarded, mine⟩ := stands
    simp only [Pool.perform, guarded, Option.map_some, Option.some.injEq] at stepped
    subst stepped
    rw [foreign_self mine, unmixed]
    cases succeeded with
    | false =>
        cases moved
        exact separated.keep held held (fun _ _ => rfl) ordered ⟨conn, held, rfl, mine⟩
    | true =>
        cases moved
        exact separated.keep held held (fun other apart => Function.update_of_ne apart _ _) ordered
          ⟨conn, held, rfl, Function.update_self _ _ _⟩
  case release.connected =>
    subst moved
    obtain ⟨conn, held, unguarded, closed⟩ := stands
    simp only [Pool.perform, held, Option.map_some, Option.some.injEq] at stepped
    subst stepped
    exact separated.release held closed rfl unguarded ordered
  case release.inTransaction => exact absurd moved.symm stays
  case rollback.released => exact stands.elim

theorem Separated.step {event : Event Conn Thread Request} (separated : Separated state)
    (orderly : ∀ thread request, event = .call thread request → Orderly .outside (scripts request))
    (stepped : (machine Conn Thread scripts).step state event = some next) : Separated next := by
  simp only [machine, Pool.step] at stepped
  cases event with
  | call thread request =>
      simp only at stepped
      split at stepped
      · rename_i idle
        cases stepped
        obtain ⟨position, ended, stands⟩ := separated.placed thread
        rw [idle] at ended
        obtain rfl : position = .outside := ended.follows
        exact separated.start rfl rfl (orderly thread request rfl)
      · contradiction
  | acquire thread conn =>
      cases todo : (state.clients thread).script with
      | nil => simp [todo] at stepped
      | cons action rest =>
          cases action <;> simp only [todo, reduceCtorEq] at stepped
          split at stepped
          · rename_i available
            cases stepped
            exact separated.acquire todo available
          · contradiction
  | act thread =>
      cases todo : (state.clients thread).script with
      | nil => simp [todo] at stepped
      | cons action rest =>
          simp only [todo] at stepped
          exact separated.perform todo stepped

/-! ## A request that runs alone -/

/-- Only requests of the given kind are called. -/
def Calls (requests : Request → Prop) (_ : State Conn Thread) : Event Conn Thread Request → Prop
  | .call _ request => requests request
  | _ => True

/-- The thread that runs alone finds the connection where it left it. -/
def Alone (state : State Conn Thread) (thread : Thread) (conn : Conn) : Position → Prop
  | .outside => conn ∈ state.free ∧ (state.clients thread).conn = none
  | .connected => (state.clients thread).conn = some conn
  | .inTransaction => (state.clients thread).conn = some conn ∧
      (state.clients thread).guard = some conn ∧ state.owner conn = some thread
  | .released => False

variable {requests : Request → Prop}

theorem alone_step (scripts : Request → List Action) (requests : Request → Prop) {action : Action}
    {rest : List Action} {position after : Position}
    (todo : (state.clients thread).script = action :: rest) (alone : Alone state thread conn position)
    (moved : position.next action = some after) (stays : after ≠ .released) :
    ∃ event middle, (machine Conn Thread scripts).step state event = some middle ∧
      Calls requests state event ∧ (middle.clients thread).script = rest ∧
      Alone middle thread conn after := by
  cases action <;> cases position <;>
    simp only [Position.next, Option.some.injEq, reduceCtorEq] at moved
  case acquire.outside =>
    subst moved
    refine ⟨.acquire thread conn, ?_⟩
    simp [machine, Pool.step, todo, alone.1, Calls, Alone]
  case statement.connected =>
    subst moved
    replace alone : (state.clients thread).conn = some conn := alone
    refine ⟨.act thread, ?_⟩
    simp [machine, Pool.step, todo, Pool.perform, alone, Calls, Alone]
  case statement.inTransaction =>
    subst moved
    refine ⟨.act thread, ?_⟩
    simp [machine, Pool.step, todo, Pool.perform, alone.1, alone.2, Calls, Alone]
  case begin.connected =>
    subst moved
    replace alone : (state.clients thread).conn = some conn := alone
    refine ⟨.act thread, ?_⟩
    simp [machine, Pool.step, todo, Pool.perform, alone, Calls, Alone]
  case commit.inTransaction succeeded =>
    refine ⟨.act thread, ?_⟩
    cases succeeded <;> cases moved <;>
      simp [machine, Pool.step, todo, Pool.perform, alone.1, alone.2, Calls, Alone]
  case release.connected =>
    subst moved
    replace alone : (state.clients thread).conn = some conn := alone
    refine ⟨.act thread, ?_⟩
    simp [machine, Pool.step, todo, Pool.perform, alone, Calls, Alone]
  case release.inTransaction => exact absurd moved.symm stays
  case rollback.released => exact alone.elim

theorem abandoning_step (scripts : Request → List Action) {action : Action} {rest : List Action}
    {position : Position}
    (todo : (state.clients thread).script = action :: rest) (alone : Alone state thread conn position)
    (moved : position.next action = some .released) :
    ∃ after, (machine Conn Thread scripts).step state (.act thread) = some after ∧ ¬ NoLeak after := by
  cases action <;> cases position <;>
    simp only [Position.next, Option.some.injEq, reduceCtorEq] at moved
  case commit.inTransaction succeeded => cases succeeded <;> contradiction
  case release.inTransaction =>
    simp only [machine, Pool.step, todo, Pool.perform, alone.1, Option.map_some, Option.some.injEq,
      exists_eq_left']
    intro noLeak
    have closed : state.owner conn = none := noLeak.1 conn List.mem_cons_self
    rw [alone.2.2] at closed
    contradiction

theorem alone_leaks (scripts : Request → List Action) (requests : Request → Prop)
    {script : List Action} {position : Position}
    (todo : (state.clients thread).script = script) (alone : Alone state thread conn position)
    (abandons : Abandons position script) :
    ∃ (events : List (Event Conn Thread Request)) (after : State Conn Thread),
      (machine Conn Thread scripts).Meets (Calls requests) state events ∧
      (machine Conn Thread scripts).run state events = some after ∧ ¬ NoLeak after := by
  induction script generalizing state position with
  | nil => exact abandons.elim
  | cons action rest ih =>
      simp only [Abandons] at abandons
      cases moved : position.next action with
      | none => simp [moved] at abandons
      | some after =>
          simp only [moved] at abandons
          by_cases released : after = .released
          · subst released
            obtain ⟨leaked, stepped, leaks⟩ := abandoning_step scripts todo alone moved
            exact ⟨[.act thread], leaked, .cons stepped trivial trivial,
              Machine.run_cons_eq_some.mpr ⟨leaked, stepped, rfl⟩, leaks⟩
          · obtain ⟨event, middle, stepped, allowed, remaining, stands⟩ :=
              alone_step scripts requests todo alone moved released
            obtain ⟨events, last, met, completed, leaks⟩ :=
              ih remaining stands (abandons.resolve_left released)
            exact ⟨event :: events, last, .cons stepped allowed met,
              Machine.run_cons_eq_some.mpr ⟨middle, stepped, completed⟩, leaks⟩

/-! ## Exactly the orderly requests are safe -/

/-- Requests of one kind never leak a transaction, under any interleaving, if
and only if each of them ends its transactions before it releases. -/
theorem noLeak_iff_closes [Nonempty Thread] {pool : List Conn} (distinct : pool.Nodup)
    (available : pool ≠ []) (follows : ∀ request, Follows .outside (scripts request)) :
    (∀ events, (machine Conn Thread scripts).Meets (Calls requests) (initial pool) events →
      (machine Conn Thread scripts).Always NoLeak (initial pool) events) ↔
    ∀ request, requests request → ¬ Abandons .outside (scripts request) := by
  constructor
  · intro safe request allowed abandons
    obtain ⟨conn, member⟩ := List.exists_mem_of_ne_nil pool available
    obtain ⟨thread⟩ := ‹Nonempty Thread›
    let called : State Conn Thread := { (initial pool : State Conn Thread) with
      clients := Function.update (fun _ => {}) thread { script := scripts request } }
    have stepped : (machine Conn Thread scripts).step (initial pool) (.call thread request) =
        some called := rfl
    have alone : Alone called thread conn .outside := ⟨member, by simp [called]⟩
    obtain ⟨events, after, met, completed, leaks⟩ := alone_leaks scripts requests
      (by simp [called]) alone abandons
    exact leaks ((safe _ (.cons stepped allowed met)).atEnd
      (Machine.run_cons_eq_some.mpr ⟨called, stepped, completed⟩))
  · intro closes events met
    refine (Machine.always_of_meets Separated (separated_initial distinct)
      (fun state event next separated allowed stepped => ?_) met).mono (fun _ separated => separated.noLeak)
    refine separated.step (fun thread request called => ?_) stepped
    subst called
    exact ⟨follows request, closes request allowed⟩

end MuduoIm.Pool
