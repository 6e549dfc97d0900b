import Std.Data.String.ToNat
import MuduoIm.Data.ExpiringKeys
import MuduoIm.Server.InstanceRouter
import MuduoIm.Transition.Machine

namespace MuduoIm.Server.OnlineManager.AtRest

open MuduoIm.Transition MuduoIm.Data MuduoIm.Server

/-! # The online table and the presence keys of one server

A call changes the table in its locked section and sends Redis its commands
after it, so the commands of several calls may arrive in another order than
their sections ran.  Between any two of these steps other calls and time pass.
-/

/-! ## The keys of the devices -/

section Keys

variable {userId user : Int} {dev other : String}

theorem toString_int_injective (same : toString userId = toString user) : userId = user := by
  have digits (n : Nat) (c : Char) (member : c ∈ n.repr.toList) : c ≠ '-' := by
    rw [Nat.toList_repr] at member
    have digit := Nat.isDigit_of_mem_toDigits (by decide) (by decide) member
    intro sign
    rw [sign] at digit
    revert digit
    decide
  have negative (n m : Nat) : toString (Int.ofNat n) ≠ toString (Int.negSucc m) := by
    intro alike
    have sign : '-' ∈ (toString (Int.negSucc m)).toList := by
      change '-' ∈ ("-" ++ (m + 1).repr).toList
      rw [String.toList_append]
      exact List.mem_append_left _ (by decide)
    rw [← alike] at sign
    exact digits n '-' sign rfl
  cases userId with
  | ofNat n =>
      cases user with
      | ofNat m => exact congrArg Int.ofNat (Nat.repr_injective same)
      | negSucc m => exact absurd same (negative n m)
  | negSucc n =>
      cases user with
      | ofNat m => exact absurd same.symm (negative m n)
      | negSucc m =>
          have lists : ("-" ++ (n + 1).repr).toList = ("-" ++ (m + 1).repr).toList := congrArg String.toList same
          rw [String.toList_append, String.toList_append, List.append_cancel_left_eq] at lists
          have number := Nat.repr_injective (String.toList_inj.mp lists)
          exact congrArg Int.negSucc (Nat.succ.inj number)

theorem keyOnline_injective (same : keyOnline userId dev = keyOnline user other) : userId = user ∧ dev = other := by
  have lists := congrArg String.toList same
  have noBrace : ∀ user : Int, ∀ c ∈ (toString user).toList, decide (c ≠ '\x7d') = true := by
    intro user c member
    exact decide_eq_true (InstanceRouter.ne_of_mem_int member rfl (by decide))
  simp only [keyOnline, String.toList_append, List.append_assoc, List.append_cancel_left_eq] at lists
  have users := congrArg (List.takeWhile (fun c => decide (c ≠ '\x7d'))) lists
  rw [List.takeWhile_append_of_pos (noBrace userId), List.takeWhile_append_of_pos (noBrace user)] at users
  have brace (rest : List Char) : List.takeWhile (fun c => decide (c ≠ '\x7d')) ("\x7d:".toList ++ rest) = [] := rfl
  rw [brace, brace, List.append_nil, List.append_nil, String.toList_inj] at users
  have sameUser := toString_int_injective users
  rw [sameUser, List.append_cancel_left_eq, List.append_cancel_left_eq, String.toList_inj] at lists
  exact ⟨sameUser, lists⟩

end Keys

/-! ## Calls -/

variable {Session : Type}

inductive Call (Session : Type) where
  | addDevice (userId : Int) (deviceId : String) (session : Session)
  | addUser (userId : Int) (session : Session)
  | removeDevice (userId : Int) (deviceId : String)
  | removeUser (userId : Int)
  | kickDevice (userId : Int) (deviceId : String)
  | refreshOnline (userId : Int)
deriving DecidableEq, Repr

namespace Call

/-- The locked section, with the commands that the call sends after it.  A kick
that finds no entry returns at once. -/
def enter (manager : OnlineManager Session) : Call Session → OnlineManager Session × List KeyCommand
  | .addDevice userId deviceId session => manager.addDevice userId deviceId session
  | .addUser userId session => manager.addUser userId session
  | .removeDevice userId deviceId => manager.removeDevice userId deviceId
  | .removeUser userId => manager.removeUser userId
  | .kickDevice userId deviceId =>
      match manager.kickDevice userId deviceId with
      | some (_, kicked, commands) => (kicked, commands)
      | none => (manager, [])
  | .refreshOnline userId => (manager, manager.refreshOnline userId)

/-- The user whose presence the call refreshes. -/
def refreshes : Call Session → Option Int
  | .refreshOnline userId => some userId
  | _ => none

end Call

/-- A call in progress has commands left to send. -/
structure Progress where
  commands : List KeyCommand := []
  refreshes : Option Int := none
deriving DecidableEq, Repr

/-- `refreshed` is the user whose `refreshOnline` the last step has completed. -/
structure State (Session : Type) where
  manager : OnlineManager Session := {}
  redis : ExpiringKeys := {}
  calls : Nat → Progress := fun _ => {}
  refreshed : Option Int := none

/-- `command` is the next Redis command of a call. -/
inductive Event (Session : Type) where
  | call (id : Nat) (call : Call Session)
  | command (id : Nat)
  | tick (milliseconds : Nat)
deriving DecidableEq, Repr

namespace State

variable (state : State Session)

/-- The call has these commands left. -/
def proceed (id : Nat) (progress : Progress) : State Session :=
  { state with
    calls := Function.update state.calls id progress
    refreshed := if progress.commands = [] then progress.refreshes else none }

def enter (id : Nat) (call : Call Session) : State Session :=
  ({ state with manager := (call.enter state.manager).1 } : State Session).proceed id
    ⟨(call.enter state.manager).2, call.refreshes⟩

def send (id : Nat) (command : KeyCommand) (rest : List KeyCommand) : State Session :=
  ({ state with redis := state.redis.execute command } : State Session).proceed id
    { state.calls id with commands := rest }

end State

def step (state : State Session) : Event Session → Option (State Session)
  | .call id call => if (state.calls id).commands = [] then some (state.enter id call) else none
  | .command id =>
      match (state.calls id).commands with
      | [] => none
      | command :: rest => some (state.send id command rest)
  | .tick milliseconds => some { state with redis := state.redis.tick milliseconds, refreshed := none }

def machine (Session : Type) : Machine (State Session) (Event Session) := ⟨step⟩

/-- With no call in progress and the user just refreshed, the keys of the user's
devices are those of the table's entries. -/
def AgreesAtRest (state : State Session) : Prop :=
  (∀ id, (state.calls id).commands = []) → ∀ userId, state.refreshed = some userId →
    ∀ dev, dev ≠ "" → (state.redis.exist (keyOnline userId dev) = true ↔
      (state.manager.sessions.find userId dev).isSome = true)

/-- A command that sets or deletes the key has still to be sent. -/
def Outstanding (calls : Nat → Progress) (key : String) : Prop :=
  ∃ id, ∃ command ∈ (calls id).commands, command.Changes key

/-- The last of the outstanding commands for the key of a device agrees with the
table, and no device in the table is left without a refresh for the lifetime of
its key. -/
def InOrder (state : State Session) : Event Session → Prop
  | .call _ _ => True
  | .command id =>
      ∀ command rest userId dev, (state.calls id).commands = command :: rest →
        command.Changes (keyOnline userId dev) →
        ¬Outstanding (state.send id command rest).calls (keyOnline userId dev) →
        (command.Sets ↔ (state.manager.sessions.find userId dev).isSome = true)
  | .tick milliseconds =>
      ∀ userId dev, ¬Outstanding state.calls (keyOnline userId dev) →
        (state.manager.sessions.find userId dev).isSome = true →
        state.redis.Outlives (keyOnline userId dev) milliseconds

/-- A device whose key no outstanding command changes has a key if and only if
it is in the table. -/
def Agrees (state : State Session) : Prop :=
  ∀ userId dev, ¬Outstanding state.calls (keyOnline userId dev) →
    (state.redis.exist (keyOnline userId dev) = true ↔ (state.manager.sessions.find userId dev).isSome = true)

/-- All commands that are still to be sent keep a key for a while. -/
def Lasting (state : State Session) : Prop := ∀ id, ∀ command ∈ (state.calls id).commands, command.Lasting

/-! ## What a locked section leaves to be sent -/

section Enter

variable {manager : OnlineManager Session} {call : Call Session} {userId user : Int} {deviceId dev : String}
variable {session : Session}

theorem entry_addDevice (unchanged : ∀ command ∈ (manager.addDevice user deviceId session).2,
      ¬command.Changes (keyOnline userId dev)) :
    (manager.addDevice user deviceId session).1.sessions.find userId dev = manager.sessions.find userId dev := by
  rw [find_addDevice, if_neg]
  intro same
  obtain ⟨rfl, rfl⟩ := same
  exact unchanged _ (List.mem_singleton.mpr rfl) rfl

theorem entry_removeDevice (unchanged : ∀ command ∈ (manager.removeDevice user deviceId).2,
      ¬command.Changes (keyOnline userId dev)) :
    (manager.removeDevice user deviceId).1.sessions.find userId dev = manager.sessions.find userId dev := by
  rw [find_removeDevice, if_neg]
  intro same
  obtain ⟨rfl, rfl⟩ := same
  exact unchanged _ List.mem_cons_self rfl

theorem entry_removeUser (unchanged : ∀ command ∈ (manager.removeUser user).2,
      ¬command.Changes (keyOnline userId dev)) :
    (manager.removeUser user).1.sessions.find userId dev = manager.sessions.find userId dev := by
  rw [removeUser, NestedTable.find_erase]
  split
  · rename_i same
    subst same
    cases held : manager.sessions.find userId dev with
    | none => rfl
    | some session =>
        have listed : dev ∈ (manager.sessions.row userId).keys := by
          rw [← AList.mem_keys, ← AList.lookup_isSome]
          exact Option.isSome_of_eq_some held
        exact absurd rfl (unchanged (.del (keyOnline userId dev))
          (List.mem_append_left _ (List.mem_map_of_mem listed)))
  · rfl

theorem entry_kickDevice {told : Session × Json} {kicked : OnlineManager Session} {commands : List KeyCommand}
    (found : manager.kickDevice user deviceId = some (told, kicked, commands))
    (unchanged : ∀ command ∈ commands, ¬command.Changes (keyOnline userId dev)) :
    kicked.sessions.find userId dev = manager.sessions.find userId dev := by
  obtain ⟨_, _, same⟩ := Option.map_eq_some_iff.mp found
  cases same
  rw [NestedTable.find_remove, if_neg]
  intro same
  obtain ⟨rfl, rfl⟩ := same
  exact unchanged _ (List.mem_singleton.mpr rfl) rfl

/-- An entry changes only with a command for its key. -/
theorem entry_enter (unchanged : ∀ command ∈ (call.enter manager).2, ¬command.Changes (keyOnline userId dev)) :
    (call.enter manager).1.sessions.find userId dev = manager.sessions.find userId dev := by
  cases call with
  | addDevice user deviceId session => exact entry_addDevice unchanged
  | addUser user session => exact entry_addDevice unchanged
  | removeDevice user deviceId => exact entry_removeDevice unchanged
  | removeUser user => exact entry_removeUser unchanged
  | kickDevice user deviceId =>
      cases found : manager.kickDevice user deviceId with
      | none => simp only [Call.enter, found]
      | some result =>
          simp only [Call.enter, found] at unchanged ⊢
          exact entry_kickDevice found unchanged
  | refreshOnline user => rfl

theorem ttl_pos : 0 < kOnlineTtlSec := by decide

theorem lasting_enter : ∀ command ∈ (call.enter manager).2, command.Lasting := by
  intro command member
  cases call with
  | addDevice user deviceId session =>
      cases List.mem_singleton.mp member
      exact ttl_pos
  | addUser user session =>
      cases List.mem_singleton.mp member
      exact ttl_pos
  | removeDevice user deviceId =>
      rcases List.mem_cons.mp member with rfl | legacy
      · trivial
      · split at legacy
        · cases List.mem_singleton.mp legacy
          trivial
        · cases legacy
  | removeUser user =>
      rcases List.mem_append.mp member with listed | last
      · obtain ⟨dev, _, rfl⟩ := List.mem_map.mp listed
        trivial
      · cases List.mem_singleton.mp last
        trivial
  | kickDevice user deviceId =>
      cases found : manager.sessions.find user deviceId with
      | none => simp [Call.enter, kickDevice, found] at member
      | some session =>
          simp only [Call.enter, kickDevice, found, Option.map_some, List.mem_singleton] at member
          subst member
          trivial
  | refreshOnline user =>
      obtain ⟨dev, _, rfl⟩ := List.mem_map.mp member
      exact ttl_pos

end Enter

/-! ## One step -/

section Step

variable {state next : State Session} {id : Nat} {call : Call Session} {command : KeyCommand}
variable {rest : List KeyCommand} {milliseconds : Nat} {key : String}

theorem lasting_proceed {progress : Progress} (lasting : Lasting state)
    (given : ∀ command ∈ progress.commands, command.Lasting) : Lasting (state.proceed id progress) :=
  (Function.forall_update_iff state.calls fun _ (entry : Progress) => ∀ command ∈ entry.commands, command.Lasting).mpr
    ⟨given, fun other _ => lasting other⟩

/-- A command for the key that a call has left. -/
def Left (key : String) (progress : Progress) : Prop := ∃ command ∈ progress.commands, command.Changes key

theorem outstanding_update {calls : Nat → Progress} {progress : Progress} :
    Outstanding (Function.update calls id progress) key ↔
      Left key progress ∨ ∃ other, other ≠ id ∧ Left key (calls other) :=
  Function.exists_update_iff calls fun _ entry => Left key entry

theorem outstanding_split (id : Nat) {calls : Nat → Progress} :
    Outstanding calls key ↔ Left key (calls id) ∨ ∃ other, other ≠ id ∧ Left key (calls other) := by
  rw [← outstanding_update, Function.update_eq_self]

theorem outstanding_send (queued : (state.calls id).commands = command :: rest) :
    Outstanding state.calls key ↔ command.Changes key ∨ Outstanding (state.send id command rest).calls key := by
  have own : Left key (state.calls id) ↔ command.Changes key ∨ Left key { state.calls id with commands := rest } := by
    simp only [Left, queued, List.exists_mem_cons_iff]
  have sent : Outstanding (state.send id command rest).calls key ↔ _ := outstanding_update
  rw [sent, outstanding_split id, own, or_assoc]

/-- What was outstanding stays so when another call enters. -/
theorem outstanding_enter (idle : (state.calls id).commands = []) (pending : Outstanding state.calls key) :
    Outstanding (state.enter id call).calls key := by
  refine outstanding_update.mpr (.inr ?_)
  rcases (outstanding_split id).mp pending with own | other
  · obtain ⟨command, member, _⟩ := own
    rw [idle] at member
    cases member
  · exact other

theorem agrees_enter (idle : (state.calls id).commands = []) (agrees : Agrees state) :
    Agrees (state.enter id call) := by
  intro userId dev quiet
  have before := agrees userId dev (fun pending => quiet (outstanding_enter idle pending))
  have unchanged : ∀ command ∈ (call.enter state.manager).2, ¬command.Changes (keyOnline userId dev) :=
    fun command member changes => quiet (outstanding_update.mpr (.inl ⟨command, member, changes⟩))
  change _ ↔ ((call.enter state.manager).1.sessions.find userId dev).isSome = true
  rw [entry_enter unchanged]
  exact before

/-- A command keeps the agreement if and only if it agrees with the table where
it is the last one for its key. -/
theorem agrees_send (lasting : Lasting state) (queued : (state.calls id).commands = command :: rest)
    (agrees : Agrees state) :
    Agrees (state.send id command rest) ↔ ∀ userId dev, command.Changes (keyOnline userId dev) →
      ¬Outstanding (state.send id command rest).calls (keyOnline userId dev) →
      (command.Sets ↔ (state.manager.sessions.find userId dev).isSome = true) := by
  have lasts : command.Lasting := lasting id command (by rw [queued]; exact List.mem_cons_self)
  constructor
  · intro after userId dev changes quiet
    rw [← ExpiringKeys.exist_execute_of_changes lasts changes]
    exact after userId dev quiet
  · intro inOrder userId dev quiet
    by_cases changes : command.Changes (keyOnline userId dev)
    · exact (ExpiringKeys.exist_execute_of_changes lasts changes).trans (inOrder userId dev changes quiet)
    · have before := agrees userId dev fun pending => (outstanding_send queued).mp pending |>.elim changes quiet
      change (state.redis.execute command).exist _ = true ↔ _
      rw [ExpiringKeys.exist_execute_of_not_changes lasts changes]
      exact before

/-- Time keeps the agreement if and only if the keys of the table outlive it. -/
theorem agrees_tick (agrees : Agrees state) :
    Agrees { state with redis := state.redis.tick milliseconds, refreshed := none } ↔
      InOrder state (.tick milliseconds) := by
  constructor
  · intro after userId dev quiet held
    exact ExpiringKeys.exist_tick.mp ((after userId dev quiet).mpr held)
  · intro inOrder userId dev quiet
    change (state.redis.tick milliseconds).exist _ = true ↔ _
    rw [ExpiringKeys.exist_tick]
    exact ⟨fun outlives => (agrees userId dev quiet).mp outlives.exist, inOrder userId dev quiet⟩

theorem lasting_step {event : Event Session} (lasting : Lasting state) (stepped : step state event = some next) :
    Lasting next := by
  cases event with
  | call id call =>
      obtain ⟨_, same⟩ := Option.ite_none_right_eq_some.mp stepped
      cases same
      exact lasting_proceed lasting lasting_enter
  | command id =>
      rw [step] at stepped
      split at stepped
      · cases stepped
      · rename_i command rest queued
        cases stepped
        refine lasting_proceed lasting (fun left member => lasting id left ?_)
        rw [queued]
        exact List.mem_cons_of_mem _ member
  | tick milliseconds =>
      cases stepped
      exact lasting

theorem agrees_step {event : Event Session} (lasting : Lasting state) (agrees : Agrees state)
    (stepped : step state event = some next) : Agrees next ↔ InOrder state event := by
  cases event with
  | call id call =>
      obtain ⟨idle, same⟩ := Option.ite_none_right_eq_some.mp stepped
      cases same
      exact ⟨fun _ => trivial, fun _ => agrees_enter idle agrees⟩
  | command id =>
      rw [step] at stepped
      split at stepped
      · cases stepped
      · rename_i command rest queued
        cases stepped
        rw [agrees_send lasting queued agrees, InOrder]
        refine ⟨fun inOrder first left userId dev same => ?_, fun inOrder userId dev => inOrder _ _ _ _ queued⟩
        cases queued.symm.trans same
        exact inOrder userId dev
  | tick milliseconds =>
      cases stepped
      exact agrees_tick agrees

end Step

/-! ## Runs -/

section Runs

variable {state : State Session} {events : List (Event Session)}

theorem agreesAtRest_of_agrees (agrees : Agrees state) : AgreesAtRest state := by
  intro idle userId _ dev _
  refine agrees userId dev (fun pending => ?_)
  obtain ⟨id, command, member, _⟩ := pending
  rw [idle id] at member
  cases member

/-- The keys and the table agree throughout a run exactly if every step of it is
in order. -/
theorem agrees_iff_inOrder :
    (machine Session).Always Agrees {} events ↔ (machine Session).Meets InOrder {} events := by
  refine Machine.always_iff_meets Lasting ?_ ?_ (fun _ _ _ => lasting_step) (fun _ _ _ => agrees_step)
  · intro userId dev _
    have noKey : ({} : ExpiringKeys).exist (keyOnline userId dev) = false := rfl
    have noEntry : ({} : OnlineManager Session).sessions.find userId dev = none := rfl
    simp only [noKey, noEntry, Option.isSome_none, Bool.false_eq_true]
  · intro id command member
    cases member

theorem agreesAtRest_of_inOrder (inOrder : (machine Session).Meets InOrder {} events) :
    (machine Session).Always AgreesAtRest {} events :=
  (agrees_iff_inOrder.mpr inOrder).mono fun _ => agreesAtRest_of_agrees

end Runs

/-- The SET of a connect arrives after the DELs of the close that followed it;
a refresh that finds no device sends nothing. -/
def lateSet : List (Event Unit) :=
  [.call 0 (.addDevice 7 "phone" ()), .call 1 (.removeDevice 7 "phone"), .command 1, .command 1, .command 0,
   .call 2 (.refreshOnline 7)]

theorem disagrees_after_lateSet : ¬(machine Unit).Always AgreesAtRest {} lateSet := by
  intro always
  obtain ⟨after, completed⟩ : ∃ after, (machine Unit).run {} lateSet = some after := ⟨_, rfl⟩
  have agrees := always.atEnd completed
  cases completed
  have entry := (agrees (fun id => match id with
    | 0 => rfl
    | 1 => rfl
    | 2 => rfl
    | _ + 3 => rfl) 7 rfl "phone" (by decide)).mp (by decide)
  revert entry
  decide

def refreshedInTime : List (Event Unit) :=
  [.call 0 (.addDevice 7 "phone" ()), .command 0, .tick 5000, .call 1 (.refreshOnline 7), .command 1]

theorem agreesAtRest_refreshedInTime :
    (∃ after, (machine Unit).run {} refreshedInTime = some after ∧ after.refreshed = some 7) ∧
      (machine Unit).Always AgreesAtRest {} refreshedInTime := by
  refine ⟨⟨_, rfl, rfl⟩, agreesAtRest_of_inOrder ?_⟩
  refine Machine.Meets.cons rfl trivial (Machine.Meets.cons rfl ?sent (Machine.Meets.cons rfl ?waited
    (Machine.Meets.cons rfl trivial (Machine.Meets.cons rfl ?refreshed trivial))))
  case sent =>
    intro command rest userId dev queued changes quiet
    cases queued
    obtain ⟨same, sameDev⟩ := keyOnline_injective changes
    cases same
    cases sameDev
    exact ⟨fun _ => rfl, fun _ => trivial⟩
  case waited =>
    intro userId dev quiet held
    obtain ⟨session, found⟩ := Option.isSome_iff_exists.mp held
    have entry : (({} : OnlineManager Unit).addDevice 7 "phone" ()).1.sessions.find userId dev = _ := find_addDevice
    by_cases same : userId = 7 ∧ dev = device "phone"
    · obtain ⟨rfl, rfl⟩ := same
      exact ⟨_, _, rfl, by decide⟩
    · rw [if_neg same] at entry
      cases entry.symm.trans found
  case refreshed =>
    intro command rest userId dev queued changes
    cases queued
    cases changes

end MuduoIm.Server.OnlineManager.AtRest
