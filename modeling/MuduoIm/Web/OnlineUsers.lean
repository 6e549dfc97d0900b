import MuduoIm.Server.OnlineManager
import MuduoIm.Transition.Machine

namespace MuduoIm.Web.OnlineUsers

open MuduoIm.Data MuduoIm.Transition MuduoIm.Server

/-! # Who is shown as online

A server tells the friends of a user when he connects and when his last connection is
closed.  A page keeps whom it was told about, also when it connects again.  Friends stay
friends here, and a page reads a frame when it is sent.
-/

/-- `contexts` are the user and the device of each connection until its close handler
has run, `closing` those that the server has closed before, and `onlineUsers` the sets
of the pages. -/
structure State where
  manager : OnlineManager ℕ := {}
  contexts : Table ℕ (Int × String) := ∅
  closing : List ℕ := []
  onlineUsers : ℕ → Int → Bool := fun _ _ => false

namespace State

variable (state : State)

def isOpen (session : ℕ) : Bool := (state.contexts.lookup session).isSome && !state.closing.contains session

def getSessions (userId : Int) : List ℕ := state.manager.getSessions state.isOpen userId

/-- No call sets the key that is looked up in Redis. -/
def isOnline (userId : Int) : Bool := state.manager.isOnline state.isOpen ∅ userId

/-- The pages of these connections get a frame `online` or `offline` about the user. -/
def sendAll (sessions : List ℕ) (userId : Int) (online : Bool) : State :=
  { state with onlineUsers := fun session other =>
      if session ∈ sessions ∧ other = userId then online else state.onlineUsers session other }

def added (session : ℕ) (userId : Int) (deviceId : String) (shown : Int → Bool) : State :=
  { state with
    manager := (state.manager.addDevice userId deviceId session).1
    contexts := state.contexts.insert session (userId, deviceId)
    onlineUsers := Function.update state.onlineUsers session shown }

def removed (session : ℕ) (userId : Int) (deviceId : String) : State :=
  { state with
    manager := (state.manager.removeDevice userId deviceId).1
    contexts := state.contexts.erase session
    closing := state.closing.filter (· ≠ session) }

/-- The set of a page that was connected before, or of a new one. -/
def shown (page : Option ℕ) (other : Int) : Bool := page.any fun session => state.onlineUsers session other

end State

section Handlers

variable (friends : Int → List Int)

/-- One connection of each friend is told. -/
def connectionHandler (state : State) (session : ℕ) (userId : Int) (deviceId : String) (shown : Int → Bool) : State :=
  let added := state.added session userId deviceId shown
  added.sendAll ((friends userId).filterMap fun friend => added.manager.getSession added.isOpen friend) userId true

/-- All connections of each friend are told. -/
def closeHandler (state : State) (session : ℕ) (userId : Int) (deviceId : String) : State :=
  let removed := state.removed session userId deviceId
  if removed.isOnline userId then removed
  else removed.sendAll ((friends userId).flatMap removed.getSessions) userId false

/-- `page` is an earlier connection of a page that connects again. -/
inductive Event where
  | connect (session : ℕ) (userId : Int) (deviceId : String) (page : Option ℕ)
  | close (session : ℕ)
  | kick (userId : Int) (deviceId : String)

def step (state : State) : Event → Option State
  | .connect session userId deviceId page =>
      if (state.contexts.lookup session).isNone then
        some (connectionHandler friends state session userId deviceId (state.shown page))
      else none
  | .close session =>
      (state.contexts.lookup session).map fun context => closeHandler friends state session context.1 context.2
  | .kick userId deviceId =>
      (state.manager.kickDevice userId deviceId).map fun kicked =>
        { state with manager := kicked.2.1, closing := kicked.1.1 :: state.closing }

def machine : Machine State Event := ⟨step friends⟩

/-- Every connected page shows of those whom it has as friends who is online. -/
def Right (state : State) : Prop :=
  ∀ userId, ∀ session ∈ state.getSessions userId, ∀ other, other ≠ userId → userId ∈ friends other →
    state.onlineUsers session other = state.isOnline other

/-- Who connects is right about his friends from before, and is online already unless
each of his friends has one connection at most; who is kicked has another connection
unless his friends have none. -/
def Allowed (state : State) : Event → Prop
  | .connect _ userId _ page =>
      (∀ other, other ≠ userId → userId ∈ friends other → state.shown page other = state.isOnline other) ∧
        (state.isOnline userId = true ∨ ∀ friend ∈ friends userId, friend ≠ userId →
          ∀ first ∈ state.getSessions friend, ∀ second ∈ state.getSessions friend, first = second)
  | .close _ => True
  | .kick userId deviceId =>
      (∃ dev, dev ≠ deviceId ∧ (state.manager.sessions.find userId dev).any state.isOpen = true) ∨
        ∀ friend ∈ friends userId, friend ≠ userId → state.getSessions friend = []

end Handlers

/-! ## The connections in the table -/

structure Sound (state : State) : Prop where
  registered : ∀ userId dev session, state.manager.sessions.find userId dev = some session →
    ∃ deviceId, state.contexts.lookup session = some (userId, deviceId) ∧ OnlineManager.device deviceId = dev
  open_ : ∀ userId dev session, state.manager.sessions.find userId dev = some session → session ∉ state.closing
  closing : ∀ session ∈ state.closing, (state.contexts.lookup session).isSome = true

variable {friends : Int → List Int} {state next : State} {userId other friend : Int} {session : ℕ} {deviceId dev : String}
variable {shown : Int → Bool}

theorem Sound.isOpen (sound : Sound state) (found : state.manager.sessions.find userId dev = some session) :
    state.isOpen session = true := by
  obtain ⟨deviceId, context, _⟩ := sound.registered userId dev session found
  have live := sound.open_ userId dev session found
  simp [State.isOpen, context, live]

theorem Sound.mem_getSessions (sound : Sound state) :
    session ∈ state.getSessions userId ↔ ∃ dev, state.manager.sessions.find userId dev = some session := by
  rw [State.getSessions, OnlineManager.mem_getSessions]
  constructor
  · intro both
    exact both.1
  · intro found
    obtain ⟨dev, entry⟩ := found
    exact ⟨⟨dev, entry⟩, sound.isOpen entry⟩

theorem Sound.isOnline_iff (sound : Sound state) :
    state.isOnline userId = true ↔ ∃ dev session, state.manager.sessions.find userId dev = some session := by
  have nothing : Keyspace.exist ∅ (OnlineManager.keyOnlineUid userId) = false := rfl
  rw [State.isOnline, OnlineManager.isOnline, nothing, Bool.or_false, Bool.not_eq_true', ← Bool.not_eq_true,
    List.isEmpty_iff, ← ne_eq, OnlineManager.getSessions_ne_nil]
  constructor
  · intro found
    obtain ⟨dev, session, entry, _⟩ := found
    exact ⟨dev, session, entry⟩
  · intro found
    obtain ⟨dev, session, entry⟩ := found
    exact ⟨dev, session, entry, sound.isOpen entry⟩

/-- A connection is that of one user on one device. -/
theorem Sound.unique (sound : Sound state) {otherDev : String}
    (first : state.manager.sessions.find userId dev = some session)
    (second : state.manager.sessions.find other otherDev = some session) : userId = other ∧ dev = otherDev := by
  obtain ⟨deviceId, context, rfl⟩ := sound.registered _ _ _ first
  obtain ⟨_, same, rfl⟩ := sound.registered _ _ _ second
  cases context.symm.trans same
  exact ⟨rfl, rfl⟩

theorem getSession_eq_head? (state : State) (userId : Int) :
    state.manager.getSession state.isOpen userId = (state.getSessions userId).head? :=
  List.head?_filter.symm

/-! ## The handlers -/

/-- Nobody is told about another user. -/
theorem onlineUsers_connect_of_ne (different : other ≠ userId) (given : ℕ) :
    (connectionHandler friends state session userId deviceId shown).onlineUsers given other =
      if given = session then shown other else state.onlineUsers given other := by
  simp only [connectionHandler, State.sendAll, different, and_false, if_false, State.added, Function.update_apply]
  split
  · rfl
  · rfl

section Connect

variable (fresh : state.contexts.lookup session = none)

include fresh

theorem Sound.added (sound : Sound state) : Sound (state.added session userId deviceId shown) where
  registered user device other found := by
    rw [State.added, OnlineManager.find_addDevice] at found
    rw [State.added, Table.lookup_insert_ite]
    split at found
    · rename_i same
      cases found
      rw [if_pos rfl, same.1]
      exact ⟨deviceId, rfl, same.2.symm⟩
    · obtain ⟨own, context, device_eq⟩ := sound.registered user device other found
      rw [if_neg, context]
      · exact ⟨own, rfl, device_eq⟩
      · intro same
        rw [same, fresh] at context
        cases context
  open_ user device other found := by
    rw [State.added, OnlineManager.find_addDevice] at found
    split at found
    · cases found
      intro member
      have known := sound.closing session member
      rw [fresh] at known
      cases known
    · exact sound.open_ user device other found
  closing other member := by
    have known := sound.closing other member
    rw [State.added, Table.lookup_insert_ite]
    split
    · rfl
    · exact known

/-- Other users keep their connections. -/
theorem mem_getSessions_added (sound : Sound state) (different : friend ≠ userId) {given : ℕ} :
    given ∈ (state.added session userId deviceId shown).getSessions friend ↔ given ∈ state.getSessions friend := by
  rw [(sound.added fresh).mem_getSessions, sound.mem_getSessions]
  simp only [State.added, OnlineManager.find_addDevice, different, false_and, if_false]

theorem isOnline_added (sound : Sound state) :
    (state.added session userId deviceId shown).isOnline other = (decide (other = userId) || state.isOnline other) := by
  rw [Bool.eq_iff_iff, (sound.added fresh).isOnline_iff, Bool.or_eq_true, decide_eq_true_eq, sound.isOnline_iff]
  simp only [State.added, OnlineManager.find_addDevice]
  by_cases same : other = userId
  · refine iff_of_true ⟨OnlineManager.device deviceId, session, ?_⟩ (.inl same)
    rw [if_pos ⟨same, rfl⟩]
  · simp only [same, false_and, if_false, false_or]

/-- The new connection is that of no other user. -/
theorem ne_of_other (sound : Sound state) {given : ℕ} (member : given ∈ state.getSessions friend) : given ≠ session := by
  intro same
  obtain ⟨dev, found⟩ := sound.mem_getSessions.mp member
  obtain ⟨_, context, _⟩ := sound.registered friend dev given found
  rw [same, fresh] at context
  cases context

/-- A connection that is told is the first one of its own user. -/
theorem told_iff (sound : Sound state) {given : ℕ} (member : given ∈ state.getSessions friend)
    (different : friend ≠ userId) (listed : friend ∈ friends userId) :
    given ∈ ((friends userId).filterMap fun friend =>
        (state.added session userId deviceId shown).manager.getSession
          (state.added session userId deviceId shown).isOpen friend) ↔
      ((state.added session userId deviceId shown).getSessions friend).head? = some given := by
  rw [List.mem_filterMap]
  constructor
  · intro told
    obtain ⟨other, _, first⟩ := told
    rw [getSession_eq_head?] at first
    obtain ⟨_, found⟩ := (sound.added fresh).mem_getSessions.mp (List.mem_of_head? first)
    obtain ⟨_, own⟩ := (sound.added fresh).mem_getSessions.mp ((mem_getSessions_added fresh sound different).mpr member)
    obtain rfl := ((sound.added fresh).unique found own).1
    exact first
  · intro first
    exact ⟨friend, listed, (getSession_eq_head? _ _).trans first⟩

theorem onlineUsers_connect (sound : Sound state) {given : ℕ} (member : given ∈ state.getSessions friend)
    (different : friend ≠ userId) (listed : friend ∈ friends userId) :
    (connectionHandler friends state session userId deviceId shown).onlineUsers given userId = true ↔
      ((state.added session userId deviceId shown).getSessions friend).head? = some given ∨
        state.onlineUsers given userId = true := by
  rw [← told_iff fresh sound member different listed]
  simp only [connectionHandler, State.sendAll, and_true]
  split
  · rename_i told
    exact iff_of_true rfl (.inl told)
  · rename_i untold
    have kept : (state.added session userId deviceId shown).onlineUsers given userId =
        state.onlineUsers given userId := by
      rw [State.added]
      dsimp only
      rw [Function.update_of_ne (ne_of_other fresh sound member)]
    rw [kept]
    exact (or_iff_right untold).symm

theorem isOnline_connect (sound : Sound state) :
    (connectionHandler friends state session userId deviceId shown).isOnline other =
      (decide (other = userId) || state.isOnline other) := by
  have same : (state.added session userId deviceId shown).isOnline other = _ := isOnline_added fresh sound
  exact same

theorem allowed_of_right_connect (sound : Sound state) (right : Right friends state) {page : Option ℕ}
    (after : Right friends (connectionHandler friends state session userId deviceId (state.shown page))) :
    Allowed friends state (.connect session userId deviceId page) := by
  refine ⟨fun other different listed => ?_, ?_⟩
  · have own : session ∈ (state.added session userId deviceId (state.shown page)).getSessions userId := by
      refine (sound.added fresh).mem_getSessions.mpr ⟨OnlineManager.device deviceId, ?_⟩
      rw [State.added, OnlineManager.find_addDevice, if_pos ⟨rfl, rfl⟩]
    have shows := after userId session own other different listed
    rw [onlineUsers_connect_of_ne different, if_pos rfl] at shows
    refine shows.trans ?_
    rw [isOnline_connect fresh sound, decide_eq_false different, Bool.false_or]
  · by_cases online : state.isOnline userId = true
    · exact .inl online
    refine .inr fun friend listed different first memberFirst second memberSecond => ?_
    have chosen {given : ℕ} (member : given ∈ state.getSessions friend) :
        ((state.added session userId deviceId (state.shown page)).getSessions friend).head? = some given := by
      have kept : given ∈ (state.added session userId deviceId (state.shown page)).getSessions friend :=
        (mem_getSessions_added fresh sound different).mpr member
      have shows := after friend given kept userId different.symm listed
      have online_now : (state.added session userId deviceId (state.shown page)).isOnline userId = true := by
        rw [isOnline_added fresh sound, decide_eq_true rfl, Bool.true_or]
      obtain first | before := (onlineUsers_connect fresh sound member different listed).mp (shows.trans online_now)
      · exact first
      · rw [right friend given member userId different.symm listed] at before
        exact absurd before online
    exact Option.some.inj ((chosen memberFirst).symm.trans (chosen memberSecond))

theorem right_connect (sound : Sound state) (right : Right friends state) {page : Option ℕ}
    (allowed : Allowed friends state (.connect session userId deviceId page)) :
    Right friends (connectionHandler friends state session userId deviceId (state.shown page)) := by
  intro friend given connected other different listed
  obtain ⟨known, single⟩ := allowed
  have member : given ∈ (state.added session userId deviceId (state.shown page)).getSessions friend := connected
  rw [isOnline_connect fresh sound]
  by_cases self : other = userId
  · subst self
    have before := (mem_getSessions_added fresh sound different.symm).mp member
    rw [decide_eq_true rfl, Bool.true_or, onlineUsers_connect fresh sound before different.symm listed]
    obtain online | one := single
    · exact .inr ((right friend given before other different listed).trans online)
    · refine .inl ?_
      cases head : ((state.added session other deviceId (state.shown page)).getSessions friend).head? with
      | none =>
          rw [List.head?_eq_none_iff.mp head] at member
          cases member
      | some first =>
          have present := (mem_getSessions_added fresh sound different.symm).mp (List.mem_of_head? head)
          rw [one friend listed different.symm first present given before]
  · rw [onlineUsers_connect_of_ne self, decide_eq_false self, Bool.false_or]
    split
    · rename_i own
      obtain ⟨_, found⟩ := (sound.added fresh).mem_getSessions.mp member
      rw [own] at found
      obtain ⟨_, context, _⟩ := (sound.added fresh).registered _ _ _ found
      rw [State.added, AList.lookup_insert] at context
      cases context
      exact known other self listed
    · rename_i old
      refine right friend given ?_ other different listed
      obtain ⟨dev, found⟩ := (sound.added fresh).mem_getSessions.mp member
      rw [State.added, OnlineManager.find_addDevice] at found
      split at found
      · cases found
        exact absurd rfl old
      · exact sound.mem_getSessions.mpr ⟨dev, found⟩

theorem right_connect_iff (sound : Sound state) (right : Right friends state) {page : Option ℕ} :
    Right friends (connectionHandler friends state session userId deviceId (state.shown page)) ↔
      Allowed friends state (.connect session userId deviceId page) :=
  ⟨allowed_of_right_connect fresh sound right, right_connect fresh sound right⟩

end Connect

/-! ## The end of a connection -/

/-- The entries of others, and those of other devices. -/
theorem find_removed {user : Int} : (state.removed session userId deviceId).manager.sessions.find user dev =
    if user = userId ∧ dev = OnlineManager.device deviceId then none else state.manager.sessions.find user dev :=
  OnlineManager.find_removeDevice

theorem Sound.removed (sound : Sound state) (context : state.contexts.lookup session = some (userId, deviceId)) :
    Sound (state.removed session userId deviceId) where
  registered user device given found := by
    rw [find_removed] at found
    split at found
    · cases found
    · rename_i apart
      obtain ⟨own, known, device_eq⟩ := sound.registered user device given found
      have other : given ≠ session := by
        intro same
        rw [same, context] at known
        cases known
        exact apart ⟨rfl, device_eq.symm⟩
      refine ⟨own, ?_, device_eq⟩
      rw [State.removed]
      dsimp only
      rw [AList.lookup_erase_ne other, known]
  open_ user device given found := by
    rw [find_removed] at found
    split at found
    · cases found
    · intro member
      exact sound.open_ user device given found (List.mem_of_mem_filter member)
  closing given member := by
    obtain ⟨old, other⟩ := List.mem_filter.mp member
    have different : given ≠ session := of_decide_eq_true other
    rw [State.removed]
    dsimp only
    rw [AList.lookup_erase_ne different]
    exact sound.closing given old

section Close

variable (context : state.contexts.lookup session = some (userId, deviceId))

include context

theorem mem_getSessions_removed (sound : Sound state) {given : ℕ}
    (member : given ∈ (state.removed session userId deviceId).getSessions friend) : given ∈ state.getSessions friend := by
  obtain ⟨dev, found⟩ := (sound.removed context).mem_getSessions.mp member
  rw [find_removed] at found
  split at found
  · cases found
  · exact sound.mem_getSessions.mpr ⟨dev, found⟩

theorem isOnline_removed (sound : Sound state) (different : other ≠ userId) :
    (state.removed session userId deviceId).isOnline other = state.isOnline other := by
  rw [Bool.eq_iff_iff, (sound.removed context).isOnline_iff, sound.isOnline_iff]
  simp only [find_removed, different, false_and, if_false]

/-- Who is online without a connection was online with it. -/
theorem isOnline_of_removed (sound : Sound state)
    (online : (state.removed session userId deviceId).isOnline userId = true) : state.isOnline userId = true := by
  obtain ⟨dev, given, found⟩ := (sound.removed context).isOnline_iff.mp online
  rw [find_removed] at found
  split at found
  · cases found
  · exact sound.isOnline_iff.mpr ⟨dev, given, found⟩

theorem right_close (sound : Sound state) (right : Right friends state) :
    Right friends (closeHandler friends state session userId deviceId) := by
  have before {friend given other} (member : given ∈ (state.removed session userId deviceId).getSessions friend)
      (different : other ≠ friend) (listed : friend ∈ friends other) :
      state.onlineUsers given other = state.isOnline other :=
    right friend given (mem_getSessions_removed context sound member) other different listed
  unfold closeHandler
  dsimp only
  split
  · rename_i online
    intro friend given member other different listed
    refine (before member different listed).trans ?_
    by_cases self : other = userId
    · rw [self, online]
      exact isOnline_of_removed context sound online
    · exact (isOnline_removed context sound self).symm
  · rename_i offline
    rw [Bool.not_eq_true] at offline
    intro friend given member other different listed
    have connected : given ∈ (state.removed session userId deviceId).getSessions friend := member
    refine Eq.trans ?_ (show _ = (state.removed session userId deviceId).isOnline other from rfl)
    by_cases self : other = userId
    · subst self
      have told : given ∈ (friends other).flatMap (state.removed session other deviceId).getSessions :=
        List.mem_flatMap.mpr ⟨friend, listed, connected⟩
      rw [State.sendAll]
      dsimp only
      rw [if_pos ⟨told, rfl⟩, offline]
    · rw [State.sendAll]
      dsimp only
      rw [if_neg (fun both => self both.2), isOnline_removed context sound self]
      exact before connected different listed

end Close

/-- What `kickDevice` leaves behind: the connection is closed, and its handler is still
to run. -/
def State.kicked (state : State) (session : ℕ) (userId : Int) (deviceId : String) : State :=
  { state with
    manager := { state.manager with sessions := state.manager.sessions.remove userId deviceId }
    closing := session :: state.closing }

theorem kick_eq_some (stepped : step friends state (.kick userId deviceId) = some next) :
    ∃ session, state.manager.sessions.find userId deviceId = some session ∧
      next = state.kicked session userId deviceId := by
  simp only [step, OnlineManager.kickDevice, Option.map_map] at stepped
  obtain ⟨session, found, rfl⟩ := Option.map_eq_some_iff.mp stepped
  exact ⟨session, found, rfl⟩

theorem find_kicked {user : Int} : (state.kicked session userId deviceId).manager.sessions.find user dev =
    if user = userId ∧ dev = deviceId then none else state.manager.sessions.find user dev :=
  NestedTable.find_remove

section Kick

variable (held : state.manager.sessions.find userId deviceId = some session)

include held

theorem Sound.kicked (sound : Sound state) : Sound (state.kicked session userId deviceId) where
  registered user device given found := by
    rw [find_kicked] at found
    split at found
    · cases found
    · exact sound.registered user device given found
  open_ user device given found := by
    rw [find_kicked] at found
    split at found
    · cases found
    · rename_i apart
      refine List.not_mem_cons_of_ne_of_not_mem (fun same => apart ?_) (sound.open_ user device given found)
      rw [same] at found
      exact sound.unique found held
  closing given member := by
    obtain rfl | old := List.mem_cons.mp member
    · obtain ⟨own, context, _⟩ := sound.registered userId deviceId given held
      rw [State.kicked]
      dsimp only
      rw [context]
      rfl
    · exact sound.closing given old

theorem mem_getSessions_kicked (sound : Sound state) (different : friend ≠ userId) {given : ℕ} :
    given ∈ (state.kicked session userId deviceId).getSessions friend ↔ given ∈ state.getSessions friend := by
  rw [(sound.kicked held).mem_getSessions, sound.mem_getSessions]
  simp only [find_kicked, different, false_and, if_false]

theorem isOnline_kicked (sound : Sound state) (different : other ≠ userId) :
    (state.kicked session userId deviceId).isOnline other = state.isOnline other := by
  rw [Bool.eq_iff_iff, (sound.kicked held).isOnline_iff, sound.isOnline_iff]
  simp only [find_kicked, different, false_and, if_false]

/-- Who is kicked stays online with another connection. -/
theorem isOnline_kicked_self (sound : Sound state) : (state.kicked session userId deviceId).isOnline userId = true ↔
    ∃ dev, dev ≠ deviceId ∧ (state.manager.sessions.find userId dev).any state.isOpen = true := by
  rw [(sound.kicked held).isOnline_iff]
  simp only [find_kicked, true_and]
  constructor
  · intro found
    obtain ⟨dev, given, entry⟩ := found
    split at entry
    · cases entry
    · rename_i different
      exact ⟨dev, different, by rw [entry]; exact sound.isOpen entry⟩
  · intro found
    obtain ⟨dev, different, entry⟩ := found
    obtain ⟨given, kept, _⟩ := (Option.any_eq_true _ _).mp entry
    exact ⟨dev, given, by rw [if_neg different, kept]⟩

theorem right_kick_iff (sound : Sound state) (right : Right friends state) :
    Right friends (state.kicked session userId deviceId) ↔ Allowed friends state (.kick userId deviceId) := by
  rw [Allowed, ← isOnline_kicked_self held sound]
  have online : state.isOnline userId = true := sound.isOnline_iff.mpr ⟨deviceId, session, held⟩
  constructor
  · intro after
    by_cases stays : (state.kicked session userId deviceId).isOnline userId = true
    · exact .inl stays
    refine .inr fun friend listed different => List.eq_nil_iff_forall_not_mem.mpr fun given member => stays ?_
    have shows := after friend given ((mem_getSessions_kicked held sound different).mpr member) userId different.symm
      listed
    exact shows.symm.trans ((right friend given member userId different.symm listed).trans online)
  · intro allowed friend given member other different listed
    by_cases self : other = userId
    · subst self
      have before := (mem_getSessions_kicked held sound different.symm).mp member
      obtain stays | alone := allowed
      · exact ((right friend given before other different listed).trans online).trans stays.symm
      · rw [alone friend listed different.symm] at before
        cases before
    · rw [isOnline_kicked held sound self]
      refine right friend given ?_ other different listed
      by_cases own : friend = userId
      · obtain ⟨dev, found⟩ := (sound.kicked held).mem_getSessions.mp member
        rw [find_kicked] at found
        split at found
        · cases found
        · exact sound.mem_getSessions.mpr ⟨dev, found⟩
      · exact (mem_getSessions_kicked held sound own).mp member

end Kick

/-! ## Runs -/

theorem Sound.preserved {event : Event} (sound : Sound state) (stepped : step friends state event = some next) :
    Sound next := by
  cases event with
  | connect session userId deviceId page =>
      simp only [step] at stepped
      split at stepped
      · rename_i fresh
        cases stepped
        have added : Sound (state.added session userId deviceId (state.shown page)) :=
          sound.added (Option.isNone_iff_eq_none.mp fresh)
        exact ⟨added.registered, added.open_, added.closing⟩
      · cases stepped
  | close session =>
      obtain ⟨context, found, rfl⟩ := Option.map_eq_some_iff.mp stepped
      have removed : Sound (state.removed session context.1 context.2) := sound.removed found
      unfold closeHandler
      dsimp only
      split
      · exact removed
      · exact ⟨removed.registered, removed.open_, removed.closing⟩
  | kick userId deviceId =>
      obtain ⟨session, held, rfl⟩ := kick_eq_some stepped
      exact sound.kicked held

theorem right_step_iff {event : Event} (sound : Sound state) (right : Right friends state)
    (stepped : step friends state event = some next) : Right friends next ↔ Allowed friends state event := by
  cases event with
  | connect session userId deviceId page =>
      simp only [step] at stepped
      split at stepped
      · rename_i fresh
        cases stepped
        exact right_connect_iff (Option.isNone_iff_eq_none.mp fresh) sound right
      · cases stepped
  | close session =>
      obtain ⟨context, found, rfl⟩ := Option.map_eq_some_iff.mp stepped
      exact iff_of_true (right_close found sound right) trivial
  | kick userId deviceId =>
      obtain ⟨session, held, rfl⟩ := kick_eq_some stepped
      exact right_kick_iff held sound right

/-- In every run of one server's handlers, with friends that stay, the pages are right
about who is online exactly if every connection and every kick is allowed. -/
theorem right_iff_allowed (friends : Int → List Int) (events : List Event) :
    (machine friends).Always (Right friends) {} events ↔ (machine friends).Meets (Allowed friends) {} events := by
  have start : Sound {} := ⟨fun _ _ _ found => (by cases found), fun _ _ _ found => (by cases found),
    fun _ member => by cases member⟩
  have nobody : Right friends {} := by
    intro userId session member
    cases member
  exact Machine.always_iff_meets Sound nobody start (fun _ _ _ sound stepped => sound.preserved stepped)
    fun _ _ _ sound right stepped => right_step_iff sound right stepped

/-- Of two devices of a friend only one is told who has connected; both are told who
has gone. -/
example :
    let friends (userId : Int) : List Int := if userId = 1 then [2] else [1]
    let run := (machine friends).run {} [.connect 0 1 "web" none, .connect 1 1 "phone" none, .connect 2 2 "web" none]
    run.map (fun state => (state.onlineUsers 0 2, state.onlineUsers 1 2, state.isOnline 2)) = some (false, true, true) ∧
      (run.bind fun state => step friends state (.close 2)).map (fun state =>
        (state.onlineUsers 0 2, state.onlineUsers 1 2, state.isOnline 2)) = some (false, false, false) := by
  decide

end MuduoIm.Web.OnlineUsers
