import MuduoIm.Transition.Machine
import MuduoIm.Server.OnlineManager

namespace MuduoIm.Server.OnlineManager.StaleClose

open MuduoIm.Transition MuduoIm.Data MuduoIm.Server

/-! # Connects and closes of WebSocket sessions

A session is accepted, its connection handler runs, it closes, and its close
handler runs.  Sessions of one device are not ordered among each other: the old
one may close, or run its close handler, after the new one has connected.
-/

inductive Stage where
  | accepted
  | connected
  | handled
deriving DecidableEq, Repr

/-- `userId` and `deviceId` are what the two extractors return for the path of
the handshake; the contexts are what the connection handler stores. -/
structure Session where
  userId : Int
  deviceId : String
  isOpen : Bool := true
  userIdContext : Option Int := none
  deviceIdContext : Option String := none
  stage : Stage := .accepted
deriving DecidableEq, Repr

namespace Session

variable (status : Session)

def close : Session := { status with isOpen := false }

def reject : Session := { status.close with stage := .connected }

def authenticate : Session := { status with
  userIdContext := some status.userId
  deviceIdContext := some status.deviceId
  stage := .connected }

def handle : Session := { status with stage := .handled }

/-- The user whose device the close handler removes. -/
def contextUser : Int := status.userIdContext.getD 0

def contextDevice : String := status.deviceIdContext.getD kDefaultDevice

end Session

/-- One call of `addDevice`. -/
structure Added where
  session : Nat
  userId : Int
  dev : String
deriving DecidableEq, Repr

/-- `added` is history: the calls of `addDevice`, the last one first. -/
structure State where
  manager : OnlineManager Nat := {}
  sessions : Table Nat Session := ∅
  added : List Added := []

namespace State

variable (state : State)

def set (session : Nat) (status : Session) : State :=
  { state with sessions := state.sessions.insert session status }

def isOpen (session : Nat) : Bool := (state.sessions.lookup session).any Session.isOpen

/-- The open sessions for which `addDevice` has run, the last added first. -/
def openAdded (userId : Int) (dev : String) : List Nat :=
  (state.added.filter (fun call => decide (call.userId = userId ∧ call.dev = dev) &&
    state.isOpen call.session)).map Added.session

end State

def State.addDevice (state : State) (session : Nat) (userId : Int) (deviceId : String) : State :=
  { state with
    manager := (state.manager.addDevice userId deviceId session).1
    added := ⟨session, userId, device deviceId⟩ :: state.added }

def State.removeDevice (state : State) (userId : Int) (deviceId : String) : State :=
  { state with manager := (state.manager.removeDevice userId deviceId).1 }

/-- The connection handler closes a session without a valid token. -/
def connectionHandler (state : State) (session : Nat) (status : Session) : State :=
  if status.userId ≤ 0 then state.set session status.reject
  else (state.set session status.authenticate).addDevice session status.userId status.deviceId

def closeHandler (state : State) (session : Nat) (status : Session) : State :=
  if status.contextUser ≤ 0 then state.set session status.handle
  else (state.set session status.handle).removeDevice status.contextUser status.contextDevice

/-- `close` stands for whatever ends a session: the peer, the idle timeout, the server. -/
inductive Event where
  | accept (session : Nat) (userId : Int) (deviceId : String)
  | connect (session : Nat)
  | close (session : Nat)
  | handleClose (session : Nat)
deriving DecidableEq, Repr

def step (state : State) : Event → Option State
  | .accept session userId deviceId =>
      match state.sessions.lookup session with
      | some _ => none
      | none => some (state.set session { userId, deviceId })
  | .connect session =>
      match state.sessions.lookup session with
      | some status =>
          if status.stage = .accepted then some (connectionHandler state session status) else none
      | none => none
  | .close session =>
      match state.sessions.lookup session with
      | some status =>
          if status.isOpen then some (state.set session status.close) else none
      | none => none
  | .handleClose session =>
      match state.sessions.lookup session with
      | some status =>
          if status.stage = .connected ∧ status.isOpen = false then
            some (closeHandler state session status)
          else none
      | none => none

def machine : Machine State Event := ⟨step⟩

/-- Every device with an open session that has been added is listed with the
last added one. -/
def ListsLive (state : State) : Prop :=
  ∀ userId dev session, (state.openAdded userId dev).head? = some session →
    state.manager.sessions.find userId dev = some session

/-- A session that connects is still open, or no other open one of its device
has been added; the last added of several open sessions does not close before
the others; a close handler runs when no open session of the device has been
added. -/
def SparesLive (state : State) : Event → Prop
  | .accept _ _ _ => True
  | .connect session =>
      ∀ status, state.sessions.lookup session = some status → 0 < status.userId →
        status.isOpen = true ∨ state.openAdded status.userId (device status.deviceId) = []
  | .close session =>
      ∀ userId dev other rest, state.openAdded userId dev ≠ session :: other :: rest
  | .handleClose session =>
      ∀ status, state.sessions.lookup session = some status → 0 < status.contextUser →
        state.openAdded status.contextUser (device status.contextDevice) = []

/-! ## The history of added sessions -/

/-- What holds of the history in every run. -/
structure Sound (state : State) : Prop where
  connected : ∀ call ∈ state.added, ∃ status,
    state.sessions.lookup call.session = some status ∧ status.stage ≠ .accepted
  distinct : (state.added.map Added.session).Nodup

variable {state next : State} {event : Event} {session other : Nat} {status : Session}

theorem sound_init : Sound {} where
  connected := by simp
  distinct := .nil

theorem isOpen_set : (state.set session status).isOpen other =
    if other = session then status.isOpen else state.isOpen other := by
  simp only [State.isOpen, State.set, Table.lookup_insert_ite]
  split
  · rfl
  · rfl

/-- A session at the accepted stage has not been added. -/
theorem Sound.fresh (sound : Sound state) (found : state.sessions.lookup session = some status)
    (stage : status.stage = .accepted) : ∀ call ∈ state.added, call.session ≠ session := by
  intro call member same
  obtain ⟨known, listed, moved⟩ := sound.connected call member
  rw [same, found] at listed
  cases listed
  exact moved stage

/-- An added session is stored only at a later stage. -/
theorem Sound.set (sound : Sound state)
    (leaves : status.stage = .accepted → ∀ call ∈ state.added, call.session ≠ session) :
    Sound (state.set session status) where
  connected := by
    intro call member
    by_cases same : call.session = session
    · refine ⟨status, ?_, fun accepted => leaves accepted call member same⟩
      rw [same]
      exact AList.lookup_insert state.sessions
    · obtain ⟨known, found, stage⟩ := sound.connected call member
      exact ⟨known, by rw [State.set, AList.lookup_insert_ne same, found], stage⟩
  distinct := sound.distinct

theorem Sound.addDevice (sound : Sound state) (found : state.sessions.lookup session = some status)
    (stage : status.stage ≠ .accepted) (fresh : ∀ call ∈ state.added, call.session ≠ session)
    (userId : Int) (deviceId : String) : Sound (state.addDevice session userId deviceId) where
  connected := by
    intro call member
    rcases List.mem_cons.mp member with rfl | member
    · exact ⟨status, found, stage⟩
    · exact sound.connected call member
  distinct := by
    refine List.nodup_cons.mpr ⟨?_, sound.distinct⟩
    intro member
    obtain ⟨call, listed, same⟩ := List.mem_map.mp member
    exact fresh call listed same

theorem Sound.openAdded_nodup (sound : Sound state) (userId : Int) (dev : String) :
    (state.openAdded userId dev).Nodup := by
  apply List.Nodup.sublist _ sound.distinct
  exact List.filter_sublist.map Added.session

theorem openAdded_congr (state after : State)
    (sameOpen : ∀ call ∈ state.added, after.isOpen call.session = state.isOpen call.session)
    (sameAdded : after.added = state.added)
    (userId : Int) (dev : String) : after.openAdded userId dev = state.openAdded userId dev := by
  rw [State.openAdded, State.openAdded, sameAdded]
  congr 1
  apply List.filter_congr
  intro call member
  rw [sameOpen call member]

/-! ## What one step changes -/

theorem connectionHandler_rejected (rejected : status.userId ≤ 0) :
    connectionHandler state session status =
      state.set session status.reject := by
  rw [connectionHandler, if_pos rejected]

/-- An admitted session is in front of the open ones of its device. -/
theorem openAdded_connect (admitted : 0 < status.userId)
    (fresh : ∀ call ∈ state.added, call.session ≠ session) (user : Int) (dev : String) :
    (connectionHandler state session status).openAdded user dev =
      if (status.userId = user ∧ device status.deviceId = dev) ∧ status.isOpen then
        session :: state.openAdded user dev
      else state.openAdded user dev := by
  have accepted : ¬ status.userId ≤ 0 := by omega
  have openSelf : (state.set session status.authenticate).isOpen session = status.isOpen := by
    rw [isOpen_set, if_pos rfl]
    rfl
  have others : (state.set session status.authenticate).openAdded user dev = state.openAdded user dev := by
    refine openAdded_congr state (state.set session status.authenticate) (fun call member => ?_) rfl user dev
    rw [isOpen_set, if_neg (fresh call member)]
  have front : (connectionHandler state session status).openAdded user dev =
      ((⟨session, status.userId, device status.deviceId⟩ :: state.added).filter (fun call =>
        decide (call.userId = user ∧ call.dev = dev) &&
          (state.set session status.authenticate).isOpen call.session)).map Added.session := by
    rw [connectionHandler, if_neg accepted]
    rfl
  rw [front, ← others, State.openAdded, List.filter_cons]
  simp only [Bool.and_eq_true, decide_eq_true_eq, openSelf]
  by_cases own : (status.userId = user ∧ device status.deviceId = dev) ∧ status.isOpen = true
  · rw [if_pos own, if_pos own]
    rfl
  · rw [if_neg own, if_neg own]
    rfl

theorem find_connect (admitted : 0 < status.userId) (user : Int) (dev : String) :
    (connectionHandler state session status).manager.sessions.find user dev =
      if user = status.userId ∧ dev = device status.deviceId then some session
      else state.manager.sessions.find user dev := by
  have accepted : ¬ status.userId ≤ 0 := by omega
  rw [connectionHandler, if_neg accepted]
  exact find_addDevice

theorem ListsLive.congr {after : State} (live : ListsLive state)
    (sameOpen : ∀ userId dev, after.openAdded userId dev = state.openAdded userId dev)
    (sameManager : after.manager = state.manager) : ListsLive after := by
  intro user dev newest first
  rw [sameManager]
  rw [sameOpen] at first
  exact live user dev newest first

theorem mem_openAdded {user : Int} {dev : String} (member : session ∈ state.openAdded user dev) :
    ∃ call ∈ state.added, call.session = session := by
  obtain ⟨call, listed, same⟩ := List.mem_map.mp member
  exact ⟨call, (List.mem_filter.mp listed).1, same⟩

theorem listsLive_connect_iff (sound : Sound state) (live : ListsLive state)
    (found : state.sessions.lookup session = some status) (stage : status.stage = .accepted) :
    ListsLive (connectionHandler state session status) ↔ SparesLive state (.connect session) := by
  have fresh := sound.fresh found stage
  have known : ∀ known, state.sessions.lookup session = some known → known = status := by
    intro known listed
    exact Option.some.inj (listed.symm.trans found)
  by_cases admitted : 0 < status.userId
  · have openAfter := openAdded_connect admitted fresh
    have entryAfter := @find_connect state session status admitted
    generalize connectionHandler state session status = after at openAfter entryAfter
    constructor
    · intro listed same lookedUp valid
      rw [known same lookedUp]
      by_contra closed
      simp only [not_or, Bool.not_eq_true] at closed
      obtain ⟨newest, rest, order⟩ := List.exists_cons_of_ne_nil closed.2
      have entry := listed status.userId (device status.deviceId) newest
        (by rw [openAfter, closed.1, order]; simp)
      rw [entryAfter, if_pos ⟨rfl, rfl⟩] at entry
      obtain ⟨call, member, same⟩ := mem_openAdded (order ▸ List.mem_cons_self)
      exact fresh call member (same.trans (Option.some.inj entry).symm)
    · intro spares user dev newest first
      rw [openAfter] at first
      rw [entryAfter]
      by_cases own : status.userId = user ∧ device status.deviceId = dev
      · obtain ⟨rfl, rfl⟩ := own
        rw [if_pos ⟨rfl, rfl⟩]
        rcases spares status found admitted with isOpen | none
        · simpa [isOpen] using first
        · simp only [none] at first
          split at first
          · simpa using first
          · cases first
      · rw [if_neg (fun both => own both.1)] at first
        rw [if_neg (fun both => own ⟨both.1.symm, both.2.symm⟩)]
        exact live user dev newest first
  · rw [connectionHandler_rejected (by omega)]
    constructor
    · intro _ same lookedUp valid
      rw [known same lookedUp] at valid
      exact absurd valid admitted
    · intro _
      refine live.congr (openAdded_congr _ _ (fun call member => ?_) rfl) rfl
      rw [isOpen_set, if_neg (fresh call member)]

/-- A session that closes leaves the open ones of its device. -/
theorem openAdded_close (user : Int) (dev : String) :
    (state.set session status.close).openAdded user dev =
      (state.openAdded user dev).filter (fun other => decide (other ≠ session)) := by
  rw [State.openAdded, State.openAdded, List.filter_map, List.filter_filter]
  congr 1
  apply List.filter_congr
  intro call _
  rw [isOpen_set]
  by_cases same : call.session = session
  · simp [same, Session.close]
  · simp [same]

theorem listsLive_close_iff (sound : Sound state) (live : ListsLive state) :
    ListsLive (state.set session status.close) ↔
      SparesLive state (.close session) := by
  have openAfter := @openAdded_close state session status
  have sameManager : (state.set session status.close).manager =
      state.manager := rfl
  generalize state.set session status.close = after at openAfter sameManager
  constructor
  · intro listed user dev other rest order
    have distinct := order ▸ sound.openAdded_nodup user dev
    have differs : other ≠ session := by
      intro same
      rw [same] at distinct
      exact (List.nodup_cons.mp distinct).1 List.mem_cons_self
    have entry := listed user dev other (by rw [openAfter, order]; simp [differs])
    rw [sameManager, live user dev session (by rw [order]; rfl)] at entry
    exact differs (Option.some.inj entry).symm
  · intro spares user dev newest first
    rw [sameManager]
    rw [openAfter] at first
    apply live user dev newest
    cases order : state.openAdded user dev with
    | nil => simp [order] at first
    | cons head rest =>
        by_cases closes : head = session
        · cases rest with
          | nil => simp [order, closes] at first
          | cons other rest => exact absurd (closes ▸ order) (spares user dev other rest)
        · simpa [order, closes] using first

theorem openAdded_handleClose (found : state.sessions.lookup session = some status)
    (user : Int) (dev : String) :
    (closeHandler state session status).openAdded user dev = state.openAdded user dev := by
  have same : ∀ other, (state.set session status.handle).isOpen other = state.isOpen other := by
    intro other
    rw [isOpen_set]
    split
    · rename_i self
      rw [self, State.isOpen, found]
      rfl
    · rfl
  rw [closeHandler]
  split
  · exact openAdded_congr _ _ (fun call _ => same call.session) rfl user dev
  · exact openAdded_congr _ _ (fun call _ => same call.session) rfl user dev

theorem listsLive_handleClose_iff (live : ListsLive state)
    (found : state.sessions.lookup session = some status) :
    ListsLive (closeHandler state session status) ↔ SparesLive state (.handleClose session) := by
  have openAfter := openAdded_handleClose found
  have known : ∀ known, state.sessions.lookup session = some known → known = status := by
    intro known listed
    exact Option.some.inj (listed.symm.trans found)
  by_cases valid : 0 < status.contextUser
  · have entryAfter : ∀ user dev, (closeHandler state session status).manager.sessions.find user dev =
        if user = status.contextUser ∧ dev = device status.contextDevice then none
        else state.manager.sessions.find user dev := by
      intro user dev
      rw [closeHandler, if_neg (by omega)]
      exact find_removeDevice
    generalize closeHandler state session status = after at openAfter entryAfter
    constructor
    · intro listed same lookedUp _
      rw [known same lookedUp]
      by_contra others
      obtain ⟨newest, rest, order⟩ := List.exists_cons_of_ne_nil others
      have entry := listed status.contextUser (device status.contextDevice) newest
        (by rw [openAfter, order]; rfl)
      rw [entryAfter, if_pos ⟨rfl, rfl⟩] at entry
      cases entry
    · intro spares user dev newest first
      rw [openAfter] at first
      rw [entryAfter, if_neg]
      · exact live user dev newest first
      · intro own
        obtain ⟨rfl, rfl⟩ := own
        rw [spares status found valid] at first
        cases first
  · constructor
    · intro _ same lookedUp positive
      rw [known same lookedUp] at positive
      exact absurd positive valid
    · intro _
      refine live.congr openAfter ?_
      rw [closeHandler, if_pos (by omega)]
      rfl

theorem step_cases (stepped : machine.step state event = some next) :
    (∃ session userId deviceId, event = .accept session userId deviceId ∧
      state.sessions.lookup session = none ∧ next = state.set session { userId, deviceId }) ∨
    (∃ session status, event = .connect session ∧ state.sessions.lookup session = some status ∧
      status.stage = .accepted ∧ next = connectionHandler state session status) ∨
    (∃ session status, event = .close session ∧ state.sessions.lookup session = some status ∧
      next = state.set session status.close) ∨
    ∃ session status, event = .handleClose session ∧
      state.sessions.lookup session = some status ∧ next = closeHandler state session status := by
  change step state event = some next at stepped
  cases event with
  | accept session userId deviceId =>
      simp only [step] at stepped
      split at stepped
      · cases stepped
      · rename_i absent
        cases stepped
        exact .inl ⟨session, userId, deviceId, rfl, absent, rfl⟩
  | connect session =>
      simp only [step] at stepped
      split at stepped
      · rename_i status found
        split at stepped
        · rename_i stage
          cases stepped
          exact .inr (.inl ⟨session, status, rfl, found, stage, rfl⟩)
        · cases stepped
      · cases stepped
  | close session =>
      simp only [step] at stepped
      split at stepped
      · rename_i status found
        split at stepped
        · cases stepped
          exact .inr (.inr (.inl ⟨session, status, rfl, found, rfl⟩))
        · cases stepped
      · cases stepped
  | handleClose session =>
      simp only [step] at stepped
      split at stepped
      · rename_i status found
        split at stepped
        · cases stepped
          exact .inr (.inr (.inr ⟨session, status, rfl, found, rfl⟩))
        · cases stepped
      · cases stepped

theorem Sound.step (sound : Sound state) (stepped : machine.step state event = some next) :
    Sound next := by
  rcases step_cases stepped with ⟨session, userId, deviceId, _, absent, rfl⟩ |
    ⟨session, status, _, found, stage, rfl⟩ | ⟨session, status, _, found, rfl⟩ |
    ⟨session, status, _, found, rfl⟩
  · refine sound.set (fun _ call member same => ?_)
    obtain ⟨known, listed, _⟩ := sound.connected call member
    rw [same, absent] at listed
    cases listed
  · have fresh := sound.fresh found stage
    rw [connectionHandler]
    split
    · exact sound.set (fun _ => fresh)
    · have moved : Sound (state.set session status.authenticate) := sound.set (fun _ => fresh)
      exact moved.addDevice (AList.lookup_insert state.sessions) (by simp [Session.authenticate]) fresh _ _
  · exact sound.set (fun accepted => sound.fresh found accepted)
  · have moved : Sound (state.set session status.handle) :=
      sound.set (fun accepted => by simp [Session.handle] at accepted)
    rw [closeHandler]
    split
    · exact moved
    · exact ⟨moved.connected, moved.distinct⟩

/-- In a run every device with an open added session stays listed with the last
added one exactly if every connect, close and close handler spares it. -/
theorem lists_live_iff (events : List Event) :
    machine.Always ListsLive {} events ↔ machine.Meets SparesLive {} events := by
  refine Machine.always_iff_meets Sound ?_ sound_init (fun _ _ _ => Sound.step) ?_
  · intro userId dev session first
    cases first
  intro state event next sound live stepped
  rcases step_cases stepped with ⟨session, userId, deviceId, rfl, absent, rfl⟩ |
    ⟨session, status, rfl, found, stage, rfl⟩ | ⟨session, status, rfl, found, rfl⟩ |
    ⟨session, status, rfl, found, rfl⟩
  · refine iff_of_true (live.congr (openAdded_congr _ _ (fun call member => ?_) rfl) rfl) trivial
    obtain ⟨known, listed, _⟩ := sound.connected call member
    rw [isOpen_set, if_neg]
    intro same
    rw [same, absent] at listed
    cases listed
  · exact listsLive_connect_iff sound live found stage
  · exact listsLive_close_iff sound live
  · exact listsLive_handleClose_iff live found

/-- The device reconnects before the close of its old session is handled. -/
theorem late_close_unlists_live_session :
    ¬ ∀ events, machine.Always ListsLive {} events := by
  intro always
  have reconnected := always [.accept 1 7 "phone", .connect 1, .close 1,
    .accept 2 7 "phone", .connect 2, .handleClose 1]
  have listed := reconnected.atEnd rfl 7 "phone" 2 (by decide)
  revert listed
  decide

end MuduoIm.Server.OnlineManager.StaleClose
