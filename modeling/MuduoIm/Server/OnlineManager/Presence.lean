import MuduoIm.Data.FlatMap
import MuduoIm.Server.OnlineManager

namespace MuduoIm.Server.OnlineManager.Presence

open MuduoIm.Data MuduoIm.Server

/-! # The online table as a flat map

What the table of one server is for: a map from a user and a device to a
session.  The calls update it at one place or erase a part of it, and the
readers say which of its sessions are open.
-/

variable {Session : Type}

/-- The calls, and the close of a session for whatever reason: by its peer, by
the server, or by `kickDevice` and `closeAll` after they have released the lock. -/
inductive Event (Session : Type) where
  | addDevice (userId : Int) (deviceId : String) (session : Session)
  | addUser (userId : Int) (session : Session)
  | removeDevice (userId : Int) (deviceId : String)
  | removeUser (userId : Int)
  | kickDevice (userId : Int) (deviceId : String)
  | closeAll
  | close (session : Session)
deriving DecidableEq, Repr

/-- The map from users and devices to sessions. -/
abbrev Flat (Session : Type) := FlatMap Int String Session

/-- The obvious updates.  The empty device id means the default device, but
names no device to be kicked. -/
def Flat.apply (flat : Flat Session) : Event Session → Flat Session
  | .addDevice userId deviceId session => flat.put userId (device deviceId) session
  | .addUser userId session => flat.put userId kDefaultDevice session
  | .removeDevice userId deviceId => flat.remove userId (device deviceId)
  | .removeUser userId => flat.erase userId
  | .kickDevice userId deviceId => flat.remove userId deviceId
  | .closeAll => FlatMap.nothing
  | .close _ => flat

variable {flat : Flat Session}

theorem device_ne_empty (deviceId : String) : device deviceId ≠ "" := by
  rw [device]
  split
  · decide
  · rename_i given
    simpa using given

/-- No device is kept under the empty name. -/
def Named (flat : Flat Session) : Prop := ∀ userId, flat userId "" = none

theorem named_apply {event : Event Session} (named : Named flat) : Named (Flat.apply flat event) := by
  intro userId
  have before := named userId
  cases event with
  | addDevice added deviceId session =>
      rw [Flat.apply, FlatMap.put, FlatMap.Represents.update_ite,
        if_neg (fun both => device_ne_empty deviceId both.2.symm), before]
  | addUser added session =>
      rw [Flat.apply, FlatMap.put, FlatMap.Represents.update_ite, if_neg (fun both => by simp [kDefaultDevice] at both), before]
  | removeDevice removed deviceId =>
      rw [Flat.apply, FlatMap.remove, FlatMap.Represents.update_ite, before, ite_self]
  | removeUser removed =>
      rw [Flat.apply, FlatMap.erase, Function.update_apply]
      split
      · rfl
      · exact before
  | kickDevice kicked deviceId =>
      rw [Flat.apply, FlatMap.remove, FlatMap.Represents.update_ite, before, ite_self]
  | closeAll => rfl
  | close session => exact before

theorem named_foldl {events : List (Event Session)} (named : Named flat) :
    Named (events.foldl Flat.apply flat) := by
  induction events generalizing flat with
  | nil => exact named
  | cons event rest ih => exact ih (named_apply named)

structure State (Session : Type) where
  manager : OnlineManager Session := {}
  isOpen : Session → Bool

variable [DecidableEq Session]

/-- A call that is refused leaves the table as it is. -/
def State.apply (state : State Session) : Event Session → State Session
  | .addDevice userId deviceId session =>
      { state with manager := (state.manager.addDevice userId deviceId session).1 }
  | .addUser userId session => { state with manager := (state.manager.addUser userId session).1 }
  | .removeDevice userId deviceId => { state with manager := (state.manager.removeDevice userId deviceId).1 }
  | .removeUser userId => { state with manager := (state.manager.removeUser userId).1 }
  | .kickDevice userId deviceId =>
      match state.manager.kickDevice userId deviceId with
      | some (_, manager, _) => { state with manager }
      | none => state
  | .closeAll => { state with manager := (state.manager.closeAll state.isOpen).1 }
  | .close session => { state with isOpen := Function.update state.isOpen session false }

/-- One call updates the table as it updates the map. -/
theorem represents_apply {state : State Session} {event : Event Session}
    (represents : flat.Represents state.manager.sessions) :
    (Flat.apply flat event).Represents (state.apply event).manager.sessions := by
  cases event with
  | addDevice userId deviceId session => exact represents.put
  | addUser userId session => exact represents.put
  | removeDevice userId deviceId => exact represents.remove
  | removeUser userId => exact represents.erase
  | kickDevice userId deviceId =>
      cases found : state.manager.sessions.find userId deviceId with
      | some session =>
          simp only [State.apply, kickDevice, found, Option.map_some]
          exact represents.remove
      | none =>
          simp only [State.apply, kickDevice, found, Option.map_none]
          have absent := (represents.entries userId deviceId).symm.trans found
          rw [Flat.apply, FlatMap.remove, ← absent, Function.update_eq_self, Function.update_eq_self]
          exact represents
  | closeAll => exact FlatMap.Represents.empty
  | close session => exact represents

theorem represents_foldl {events : List (Event Session)} {state : State Session}
    (represents : flat.Represents state.manager.sessions) :
    (events.foldl Flat.apply flat).Represents (events.foldl State.apply state).manager.sessions := by
  induction events generalizing flat state with
  | nil => exact represents
  | cons event rest ih => exact ih (represents_apply represents)

/-! ## Reading -/

variable (isOpen : Session → Bool) (flat : Flat Session)

/-- The device has a session, and it is open. -/
def Live (userId : Int) (dev : String) : Prop := Table.Selects (flat userId) isOpen dev

/-- What the readers return is what the map prescribes. -/
structure Reads (manager : OnlineManager Session) : Prop where
  getSessions : ∀ userId,
    Table.Lists (flat userId) (Live isOpen flat userId) (manager.getSessions isOpen userId)
  getSession_some : ∀ userId session, manager.getSession isOpen userId = some session →
    (∃ dev, flat userId dev = some session) ∧ isOpen session = true
  getSession_none : ∀ userId, manager.getSession isOpen userId = none ↔ ¬∃ dev, Live isOpen flat userId dev
  getOtherSessions : ∀ userId excludeDevice,
    Table.Lists (flat userId) (fun dev => dev ≠ device excludeDevice ∧ Live isOpen flat userId dev)
      (manager.getOtherSessions isOpen userId excludeDevice)
  getOnlineUsers : (manager.getOnlineUsers isOpen).Nodup ∧
    ∀ userId, userId ∈ manager.getOnlineUsers isOpen ↔ ∃ dev, Live isOpen flat userId dev
  findByDeviceSession : ∀ session,
    flat (manager.findByDeviceSession session).1 (manager.findByDeviceSession session).2 = some session ↔
      ∃ userId dev, flat userId dev = some session
  findByDeviceSession_none : ∀ session,
    manager.findByDeviceSession session = (-1, "") ↔ ¬∃ userId dev, flat userId dev = some session

variable {isOpen} {flat}

/-- The entry that the reverse lookup finds has the session, and one is found
if there is one. -/
theorem findEntry_eq {manager : OnlineManager Session} (session : Session)
    (represents : flat.Represents manager.sessions) :
    (∀ userId dev, manager.findEntry session = some (userId, dev) → flat userId dev = some session) ∧
      (manager.findEntry session = none → ∀ userId dev, flat userId dev ≠ some session) := by
  constructor
  · intro userId dev found
    obtain ⟨row, listed, chosen⟩ := List.exists_of_findSome?_eq_some found
    obtain ⟨entry, first, same⟩ := Option.map_eq_some_iff.mp chosen
    cases same
    have held : entry.2 = session := by simpa using List.find?_some first
    rw [← represents.row_of_mem listed, ← held]
    exact AList.mem_lookup_iff.mpr (List.mem_of_find?_eq_some first)
  · intro nowhere userId dev held
    obtain ⟨row, listed, same, entry⟩ := represents.mem_of_entry held
    have skipped := List.findSome?_eq_none_iff.mp nowhere row listed
    have absent := List.find?_eq_none.mp (Option.map_eq_none_iff.mp skipped) _ entry
    simp at absent

/-- A pair that is found has the session; the pair of the failed lookup is no
device. -/
theorem findByDeviceSession_cases {manager : OnlineManager Session} {session : Session}
    (represents : flat.Represents manager.sessions) :
    (∃ userId dev, manager.findByDeviceSession session = (userId, dev) ∧ flat userId dev = some session) ∨
      manager.findByDeviceSession session = (-1, "") ∧ ∀ userId dev, flat userId dev ≠ some session := by
  obtain ⟨sound, complete⟩ := findEntry_eq session represents
  rw [findByDeviceSession]
  cases found : manager.findEntry session with
  | some pair => exact .inl ⟨pair.1, pair.2, rfl, sound pair.1 pair.2 found⟩
  | none => exact .inr ⟨rfl, complete found⟩

/-- Every table that represents the map is read as the map prescribes. -/
theorem reads_of_represents {manager : OnlineManager Session} (represents : flat.Represents manager.sessions)
    (named : Named flat) : Reads isOpen flat manager where
  getSessions userId := Table.lists_select (represents.entries userId)
  getSession_some userId session found := by
    have listed := List.mem_of_find?_eq_some found
    have member : session ∈ (manager.sessions.row userId).select isOpen :=
      List.mem_filter.mpr ⟨listed, List.find?_some found⟩
    obtain ⟨⟨dev, held⟩, live⟩ := Table.mem_select.mp member
    exact ⟨⟨dev, (represents.entries userId dev).symm.trans held⟩, live⟩
  getSession_none userId := by
    have reads : ∀ dev, (manager.sessions.row userId).lookup dev = flat userId dev := represents.entries userId
    simp only [Live, ← Table.any_entries reads, List.any_eq_true, getSession, List.find?_eq_none]
    refine ⟨fun closed given => ?_, fun nowhere session listed chosen => ?_⟩
    · obtain ⟨entry, member, chosen⟩ := given
      exact closed entry.2 (List.mem_map_of_mem member) chosen
    · obtain ⟨entry, member, rfl⟩ := List.mem_map.mp listed
      exact nowhere ⟨entry, member, chosen⟩
  getOtherSessions userId excludeDevice := Table.lists_select_erase (represents.entries userId)
  getOnlineUsers := represents.outer_keys rfl
  findByDeviceSession session := by
    obtain ⟨userId, dev, found, held⟩ | ⟨found, nowhere⟩ := findByDeviceSession_cases represents
    · rw [found]
      exact ⟨fun _ => ⟨userId, dev, held⟩, fun _ => held⟩
    · exact ⟨fun held => ⟨_, _, held⟩, fun given => by
        obtain ⟨userId, dev, held⟩ := given
        exact absurd held (nowhere userId dev)⟩
  findByDeviceSession_none session := by
    obtain ⟨userId, dev, found, held⟩ | ⟨found, nowhere⟩ := findByDeviceSession_cases represents
    · rw [found]
      refine ⟨fun absent => ?_, fun nowhere => absurd ⟨userId, dev, held⟩ nowhere⟩
      cases absent
      rw [named] at held
      cases held
    · refine ⟨fun _ given => ?_, fun _ => found⟩
      obtain ⟨userId, dev, held⟩ := given
      exact nowhere userId dev held

/-- After any calls and closes, the table has the entries of the flat map with
the obvious updates and no empty row, and it is read as the map prescribes, in
whatever order its entries are traversed. -/
theorem represents_and_reads (isOpen : Session → Bool) (events : List (Event Session)) :
    let start : State Session := { isOpen }
    let state := events.foldl State.apply start
    let flat := events.foldl Flat.apply FlatMap.nothing
    flat.Represents state.manager.sessions ∧
      ∀ manager : OnlineManager Session, flat.Represents manager.sessions → Reads state.isOpen flat manager := by
  refine ⟨represents_foldl FlatMap.Represents.empty, fun manager represents => ?_⟩
  exact reads_of_represents represents (named_foldl fun _ => rfl)

end MuduoIm.Server.OnlineManager.Presence
