import Mathlib.Data.List.Basic
import MuduoIm.Transition.Machine

namespace MuduoIm.Web.Connection

open MuduoIm.Transition

/-! # The connection of the page

The page keeps one socket to the server while a user is logged in, and opens the
next one three seconds after a socket has closed.  A socket that is no longer `ws`
lives on until the browser has closed it, and its handlers still run.
-/

inductive ReadyState where
  | connecting
  | «open»
  | closing
  | closed
deriving DecidableEq

variable {User : Type}

/-- A socket with the token in its address; the token stands for its user. -/
structure Socket (User : Type) where
  token : Option User
  readyState : ReadyState
deriving DecidableEq

def Socket.live (socket : Socket User) : Bool :=
  socket.readyState = .open || socket.readyState = .connecting

/-- `ws.close()`. -/
def Socket.close (socket : Socket User) : Socket User :=
  if socket.live then { socket with readyState := .closing } else socket

/-- The state of one page.  `sockets` are all that it has opened and `ws` the number
of the current one.  `exchanged` is history: for each frame that was sent or handled
the token of its socket and the token of the page. -/
structure State (User : Type) where
  token : Option User
  sockets : List (Socket User) := []
  ws : Option ℕ := none
  wsReconnectTimer : Bool := false
  wsStatus : Bool := false
  exchanged : List (Option User × Option User) := []
deriving DecidableEq

inductive Event (User : Type) where
  | doLogin (user : User)
  | doLogout
  | onopen (id : ℕ)
  | startClosing (id : ℕ)
  | onclose (id : ℕ)
  | onmessage (id : ℕ)
  | send
  | reconnect
deriving DecidableEq

def State.socket? (state : State User) : Option (Socket User) := state.ws.bind (state.sockets[·]?)

def State.update (state : State User) (id : ℕ) (change : Socket User → Socket User) : State User :=
  { state with sockets := state.sockets.modify id change }

def State.connectWebSocket (state : State User) : State User :=
  if state.socket?.any Socket.live then state
  else { state with sockets := state.sockets ++ [⟨state.token, .connecting⟩], ws := some state.sockets.length }

def State.scheduleReconnect (state : State User) : State User :=
  if state.wsReconnectTimer then state
  else if state.token.isNone then state
  else { state with wsReconnectTimer := true }

def State.doLogin (state : State User) (user : User) : State User :=
  { state with token := some user }.connectWebSocket

def State.doLogout (state : State User) : State User :=
  let closed := match state.ws with
    | some id => state.update id Socket.close
    | none => state
  { closed with token := none, ws := none, wsReconnectTimer := false }

def State.onopen (state : State User) (id : ℕ) : State User :=
  { state.update id ({ · with readyState := .open }) with wsStatus := true, wsReconnectTimer := false }

def State.onclose (state : State User) (id : ℕ) : State User :=
  { state.update id ({ · with readyState := .closed }) with wsStatus := false }.scheduleReconnect

def State.exchange (state : State User) (socket : Socket User) : State User :=
  { state with exchanged := (socket.token, state.token) :: state.exchanged }

/-- The page after `init`, with the token that the browser has stored. -/
def State.init (token : Option User) : State User :=
  if token.isSome then State.connectWebSocket { token } else { token }

def step (state : State User) : Event User → Option (State User)
  | .doLogin user => some (state.doLogin user)
  | .doLogout => some state.doLogout
  | .onopen id => (state.sockets[id]?.filter (·.readyState = .connecting)).map fun _ => state.onopen id
  -- the server or the browser ends the connection; no handler runs
  | .startClosing id => (state.sockets[id]?.filter (·.readyState = .open)).map fun _ =>
      state.update id ({ · with readyState := .closing })
  | .onclose id => (state.sockets[id]?.filter (·.readyState ≠ .closed)).map fun _ => state.onclose id
  -- a socket that is closing hands out no more messages
  | .onmessage id => (state.sockets[id]?.filter (·.readyState = .open)).map state.exchange
  | .send => (state.socket?.filter (·.readyState = .open)).map state.exchange
  | .reconnect =>
      if state.wsReconnectTimer then some { state with wsReconnectTimer := false }.connectWebSocket else none

def machine : Machine (State User) (Event User) := ⟨step⟩

/-- A login with no other user's connection still in use. -/
def FreshLogin (state : State User) : Event User → Prop
  | .doLogin user => state.socket?.any Socket.live = true → state.token = some user
  | _ => True

/-! ## The sockets after an update -/

variable {state next : State User} {socket : Socket User} {id other : ℕ} {change : Socket User → Socket User}

@[simp] theorem State.update_ws : (state.update id change).ws = state.ws := rfl

@[simp] theorem State.update_token : (state.update id change).token = state.token := rfl

@[simp] theorem State.update_wsReconnectTimer :
    (state.update id change).wsReconnectTimer = state.wsReconnectTimer := rfl

@[simp] theorem State.update_wsStatus : (state.update id change).wsStatus = state.wsStatus := rfl

@[simp] theorem State.update_exchanged : (state.update id change).exchanged = state.exchanged := rfl

theorem State.update_sockets (found : (state.update id change).sockets[other]? = some socket) :
    ∃ old, state.sockets[other]? = some old ∧ socket = if id = other then change old else old := by
  rw [State.update, List.getElem?_modify] at found
  obtain ⟨old, before, rfl⟩ := Option.map_eq_some_iff.mp found
  exact ⟨old, before, rfl⟩

theorem State.update_sockets_self (found : state.sockets[id]? = some socket) :
    (state.update id change).sockets[id]? = some (change socket) := by
  simp [State.update, found]

theorem State.update_sockets_of_ne (different : id ≠ other) :
    (state.update id change).sockets[other]? = state.sockets[other]? := by
  simp [State.update, different]

theorem Socket.close_not_live : socket.close.live = false := by
  unfold Socket.close
  split
  · rfl
  · rename_i dead
    exact Bool.eq_false_iff.mpr dead

/-- What `connectWebSocket` can do. -/
theorem State.connectWebSocket_cases (state : State User) :
    (state.socket?.any Socket.live = true ∧ state.connectWebSocket = state) ∨
    (state.socket?.any Socket.live = false ∧ state.connectWebSocket =
      { state with sockets := state.sockets ++ [⟨state.token, .connecting⟩], ws := some state.sockets.length }) := by
  unfold State.connectWebSocket
  cases live : state.socket?.any Socket.live with
  | true => exact .inl ⟨rfl, rfl⟩
  | false => exact .inr ⟨rfl, rfl⟩

theorem socket_of_live (live : state.socket?.any Socket.live = true) :
    ∃ id socket, state.ws = some id ∧ state.sockets[id]? = some socket ∧ socket.live = true := by
  obtain ⟨socket, found, alive⟩ := (Option.any_eq_true _ _).mp live
  obtain ⟨id, current, found⟩ := Option.bind_eq_some_iff.mp found
  exact ⟨id, socket, current, found, alive⟩


theorem socket_of_ws (current : state.ws = some id) (found : state.sockets[id]? = some socket) :
    state.socket? = some socket := by
  rw [State.socket?, current]
  exact found

/-! ## One connection, or one to come -/

/-- A connection is in use, or will be opened by the timer or once a closing socket
has closed. -/
def State.Pending (state : State User) : Prop :=
  state.socket?.any Socket.live = true ∨ state.wsReconnectTimer = true ∨
    ∃ (id : ℕ) (socket : Socket User), state.sockets[id]? = some socket ∧ socket.readyState = .closing

structure Sound (state : State User) : Prop where
  live : ∀ id socket, state.sockets[id]? = some socket → socket.live = true → state.ws = some id
  loggedOut : state.token = none → state.ws = none ∧ state.wsReconnectTimer = false
  pending : state.token.isSome = true → state.Pending
  shown : state.wsStatus = true → ∃ (id : ℕ) (socket : Socket User), state.sockets[id]? = some socket ∧
    (socket.readyState = .open ∨ socket.readyState = .closing)

theorem Sound.connect {token : Option User} {timer : Bool} (sound : Sound state) (present : token.isSome = true) :
    Sound { state with token, wsReconnectTimer := timer }.connectWebSocket := by
  obtain ⟨live, same⟩ | ⟨dead, same⟩ := State.connectWebSocket_cases { state with token, wsReconnectTimer := timer }
  · rw [same]
    exact ⟨sound.live, fun absent => (by rw [Option.isSome_iff_ne_none] at present; exact absurd absent present),
      fun _ => .inl live, sound.shown⟩
  · rw [same]
    have others (id : ℕ) (socket : Socket User) (found : state.sockets[id]? = some socket) :
        socket.live = false := by
      refine Bool.eq_false_iff.mpr fun alive => ?_
      have current := sound.live id socket found alive
      have used : state.socket?.any Socket.live = true := by
        rw [socket_of_ws current found]
        exact alive
      exact Bool.false_ne_true (dead.symm.trans used)
    refine ⟨fun id socket found alive => ?_, fun absent => ?_, fun _ => .inl ?_, fun shown => ?_⟩
    · dsimp only at found ⊢
      by_cases old : id < state.sockets.length
      · rw [List.getElem?_append_left old] at found
        rw [others id socket found] at alive
        cases alive
      · have bound := (List.getElem?_eq_some_iff.mp found).1
        rw [List.length_append, List.length_singleton] at bound
        have last : id = state.sockets.length := by omega
        rw [last]
    · rw [Option.isSome_iff_ne_none] at present
      exact absurd absent present
    · simp [State.socket?, Socket.live]
    · obtain ⟨id, socket, found, ready⟩ := sound.shown shown
      have old := (List.getElem?_eq_some_iff.mp found).1
      exact ⟨id, socket, by rw [← found]; exact List.getElem?_append_left old, ready⟩

theorem Sound.doLogout_closes (sound : Sound state) (found : state.doLogout.sockets[id]? = some socket) :
    socket.live = false := by
  refine Bool.eq_false_iff.mpr fun alive => ?_
  unfold State.doLogout at found
  cases current : state.ws with
  | some ws =>
      simp only [current] at found
      obtain ⟨old, before, rfl⟩ := State.update_sockets found
      by_cases same : ws = id
      · rw [if_pos same, Socket.close_not_live] at alive
        cases alive
      · rw [if_neg same] at alive
        have other := sound.live id old before alive
        rw [current] at other
        exact same (Option.some.inj other)
  | none =>
      simp only [current] at found
      have other := sound.live id socket found alive
      rw [current] at other
      cases other

theorem Sound.doLogout (sound : Sound state) : Sound state.doLogout := by
  refine ⟨fun id socket found alive => ?_, fun _ => ⟨rfl, rfl⟩, fun present => (by cases present), fun shown => ?_⟩
  · rw [sound.doLogout_closes found] at alive
    cases alive
  · unfold State.doLogout at shown ⊢
    cases current : state.ws with
    | some ws =>
        simp only [current] at shown ⊢
        obtain ⟨id, socket, found, ready⟩ := sound.shown shown
        by_cases same : ws = id
        · subst same
          refine ⟨ws, _, State.update_sockets_self found, .inr ?_⟩
          obtain ready | ready := ready <;> simp [Socket.close, Socket.live, ready]
        · exact ⟨id, socket, (State.update_sockets_of_ne same).trans found, ready⟩
    | none =>
        simp only [current] at shown ⊢
        exact sound.shown shown

theorem Sound.onclose (sound : Sound state) : Sound (state.onclose id) := by
  have live (other : ℕ) (socket : Socket User)
      (there : (state.update id ({ · with readyState := .closed })).sockets[other]? = some socket)
      (alive : socket.live = true) : state.ws = some other := by
    obtain ⟨old, before, rfl⟩ := State.update_sockets there
    by_cases same : id = other
    · rw [if_pos same] at alive
      cases alive
    · rw [if_neg same] at alive
      exact sound.live other old before alive
  unfold State.onclose State.scheduleReconnect
  split
  · rename_i timer
    exact ⟨live, sound.loggedOut, fun _ => .inr (.inl timer), fun shown => by cases shown⟩
  · split
    · rename_i absent
      have absent : state.token = none := Option.isNone_iff_eq_none.mp absent
      exact ⟨live, sound.loggedOut, fun present => (by rw [State.update_token, absent] at present; cases present),
        fun shown => by cases shown⟩
    · rename_i present
      have loggedIn : state.token ≠ none := fun absent => present (Option.isNone_iff_eq_none.mpr absent)
      exact ⟨live, fun absent => absurd absent loggedIn, fun _ => .inr (.inl rfl), fun shown => by cases shown⟩

theorem Sound.preserved {event : Event User} (sound : Sound state) (stepped : step state event = some next) :
    Sound next := by
  cases event with
  | doLogin user =>
      cases stepped
      exact sound.connect rfl
  | doLogout =>
      cases stepped
      exact sound.doLogout
  | onopen id =>
      obtain ⟨socket, found, rfl⟩ := Option.map_eq_some_iff.mp stepped
      obtain ⟨found, ready⟩ := Option.filter_eq_some_iff.mp found
      have connecting := of_decide_eq_true ready
      have current := sound.live id socket found (by rw [Socket.live, connecting]; rfl)
      refine ⟨fun other changed there alive => ?_, fun absent => ?_, fun _ => .inl ?_, fun _ => ?_⟩
      · obtain ⟨old, before, rfl⟩ := State.update_sockets there
        by_cases same : id = other
        · exact same ▸ current
        · rw [if_neg same] at alive
          exact sound.live other old before alive
      · have unused := (sound.loggedOut absent).1
        rw [current] at unused
        cases unused
      · have updated : (state.update id ({ · with readyState := .open })).sockets[id]? =
            some { socket with readyState := .open } := State.update_sockets_self found
        rw [State.socket?, State.onopen]
        dsimp only
        rw [State.update_ws, current, Option.bind_some, updated]
        rfl
      · exact ⟨id, _, State.update_sockets_self found, .inl rfl⟩
  | startClosing id =>
      obtain ⟨socket, found, rfl⟩ := Option.map_eq_some_iff.mp stepped
      obtain ⟨found, ready⟩ := Option.filter_eq_some_iff.mp found
      refine ⟨fun other changed there alive => ?_, sound.loggedOut, fun _ => .inr (.inr ?_), fun _ => ?_⟩
      · obtain ⟨old, before, rfl⟩ := State.update_sockets there
        by_cases same : id = other
        · rw [if_pos same] at alive
          cases alive
        · rw [if_neg same] at alive
          exact sound.live other old before alive
      · exact ⟨id, _, State.update_sockets_self found, rfl⟩
      · exact ⟨id, _, State.update_sockets_self found, .inr rfl⟩
  | onclose id =>
      obtain ⟨socket, found, rfl⟩ := Option.map_eq_some_iff.mp stepped
      exact sound.onclose
  | onmessage id =>
      obtain ⟨socket, found, rfl⟩ := Option.map_eq_some_iff.mp stepped
      exact ⟨sound.live, sound.loggedOut, sound.pending, sound.shown⟩
  | send =>
      obtain ⟨socket, found, rfl⟩ := Option.map_eq_some_iff.mp stepped
      exact ⟨sound.live, sound.loggedOut, sound.pending, sound.shown⟩
  | reconnect =>
      simp only [step] at stepped
      split at stepped
      · rename_i timer
        cases stepped
        refine sound.connect (Option.isSome_iff_ne_none.mpr fun absent => ?_)
        rw [(sound.loggedOut absent).2] at timer
        cases timer
      · cases stepped


theorem State.onclose_frame (state : State User) (id : ℕ) :
    (state.onclose id).sockets = (state.update id ({ · with readyState := .closed })).sockets ∧
      (state.onclose id).token = state.token ∧ (state.onclose id).exchanged = state.exchanged := by
  unfold State.onclose State.scheduleReconnect
  split
  · exact ⟨rfl, rfl, rfl⟩
  · split <;> exact ⟨rfl, rfl, rfl⟩

theorem sound_blank : Sound ({ token := none } : State User) where
  live _ _ found := by cases found
  loggedOut _ := ⟨rfl, rfl⟩
  pending present := by cases present
  shown shown := by cases shown

theorem sound_init (token : Option User) : Sound (State.init token) := by
  unfold State.init
  split
  · rename_i present
    exact sound_blank.connect present
  · rename_i absent
    rw [Option.not_isSome_iff_eq_none] at absent
    subst absent
    exact sound_blank

/-! ## The next connection -/

/-- Without the user, a run to a state in which the socket of the page is open. -/
def State.CanOpen (state : State User) : Prop :=
  ∃ events after, machine.run state events = some after ∧
    (∀ event ∈ events, event ≠ .doLogout ∧ ∀ user, event ≠ .doLogin user) ∧
    after.token = state.token ∧ ∃ socket, after.socket? = some socket ∧ socket.readyState = .open

theorem canOpen_of_live (live : state.socket?.any Socket.live = true) : state.CanOpen := by
  obtain ⟨id, socket, current, found, alive⟩ := socket_of_live live
  simp only [Socket.live, Bool.or_eq_true, decide_eq_true_eq] at alive
  obtain ready | connecting := alive
  · exact ⟨[], state, rfl, by simp, rfl, socket, socket_of_ws current found, ready⟩
  · have opened : (state.onopen id).socket? = some { socket with readyState := .open } :=
      socket_of_ws current (State.update_sockets_self found)
    refine ⟨[.onopen id], state.onopen id, ?_, by simp, rfl, _, opened, rfl⟩
    simp [machine, Machine.run_cons, step, found, connecting]

theorem State.CanOpen.of_step (event : Event User) (canOpen : next.CanOpen) (stepped : step state event = some next)
    (unattended : event ≠ .doLogout ∧ ∀ user, event ≠ .doLogin user) (same : next.token = state.token) :
    state.CanOpen := by
  obtain ⟨events, after, completed, others, kept, opened⟩ := canOpen
  refine ⟨event :: events, after, Machine.run_cons_eq_some.mpr ⟨next, stepped, completed⟩, ?_, kept.trans same, opened⟩
  intro other member
  obtain rfl | later := List.mem_cons.mp member
  · exact unattended
  · exact others other later

theorem State.connectWebSocket_token (state : State User) : state.connectWebSocket.token = state.token := by
  unfold State.connectWebSocket
  split <;> rfl

theorem State.connectWebSocket_live (state : State User) : state.connectWebSocket.socket?.any Socket.live = true := by
  obtain ⟨live, same⟩ | ⟨_, same⟩ := State.connectWebSocket_cases state
  · rw [same]
    exact live
  · rw [same]
    simp [State.socket?, Socket.live]

theorem canOpen_of_timer (timer : state.wsReconnectTimer = true) : state.CanOpen := by
  refine State.CanOpen.of_step .reconnect (canOpen_of_live (State.connectWebSocket_live { state with
    wsReconnectTimer := false })) ?_ (by simp) (State.connectWebSocket_token _)
  rw [step, if_pos timer]

theorem Sound.canOpen (sound : Sound state) (present : state.token.isSome = true) : state.CanOpen := by
  obtain live | timer | ⟨id, socket, found, closing⟩ := sound.pending present
  · exact canOpen_of_live live
  · exact canOpen_of_timer timer
  · have stepped : step state (.onclose id) = some (state.onclose id) := by
      simp [step, found, closing]
    have timer : (state.onclose id).wsReconnectTimer = true := by
      unfold State.onclose State.scheduleReconnect
      split
      · rename_i set
        exact set
      · split
        · rename_i absent
          rw [State.update_token, Option.isNone_iff_eq_none] at absent
          rw [absent] at present
          cases present
        · rfl
    obtain ⟨_, token, _⟩ := State.onclose_frame state id
    exact State.CanOpen.of_step (.onclose id) (canOpen_of_timer timer) stepped (by simp) token

/-- In every run at most one socket is in use, the page's own, and none while nobody
is logged in; the status says connected only while a socket is open or closing; and
while a user is logged in, a socket can always open without the user. -/
theorem connection_kept (token : Option User) (events : List (Event User)) :
    machine.Always (fun state =>
        (∀ id socket, state.sockets[id]? = some socket → socket.live = true →
          state.ws = some id ∧ state.token.isSome = true) ∧
        (state.wsStatus = true → ∃ (id : ℕ) (socket : Socket User), state.sockets[id]? = some socket ∧
          (socket.readyState = .open ∨ socket.readyState = .closing)) ∧
        (state.token.isSome = true → state.CanOpen)) (State.init token) events := by
  refine (Machine.always_of_step Sound (sound_init token) fun _ _ _ sound stepped => sound.preserved stepped).mono
    fun state sound => ⟨fun id socket found alive => ?_, sound.shown, sound.canOpen⟩
  have current := sound.live id socket found alive
  refine ⟨current, Option.isSome_iff_ne_none.mpr fun absent => ?_⟩
  rw [(sound.loggedOut absent).1] at current
  cases current

/-! ## Whose connection it is -/

/-- Every socket in use is of the user of the page, and so was every one that carried
a frame, when it did. -/
structure Owned (state : State User) : Prop where
  live : ∀ (id : ℕ) (socket : Socket User), state.sockets[id]? = some socket → socket.live = true →
    socket.token = state.token
  exchanged : ∀ frame ∈ state.exchanged, frame.1 = frame.2

theorem Owned.of_update (owned : Owned state) {next : State User} (token : next.token = state.token)
    (exchanged : next.exchanged = state.exchanged)
    (live : ∀ (id : ℕ) (socket : Socket User), next.sockets[id]? = some socket → socket.live = true →
      ∃ old : Socket User, state.sockets[id]? = some old ∧ old.live = true ∧ old.token = socket.token) :
    Owned next where
  live id socket found alive := by
    obtain ⟨old, before, used, same⟩ := live id socket found alive
    rw [← same, token]
    exact owned.live id old before used
  exchanged := by
    rw [exchanged]
    exact owned.exchanged

theorem Owned.connect {token : Option User} {timer : Bool} (owned : Owned state) (sound : Sound state)
    (same : state.socket?.any Socket.live = true → state.token = token) :
    Owned { state with token, wsReconnectTimer := timer }.connectWebSocket := by
  obtain ⟨live, unchanged⟩ | ⟨dead, opened⟩ :=
    State.connectWebSocket_cases { state with token, wsReconnectTimer := timer }
  · rw [unchanged]
    refine ⟨fun id socket found alive => ?_, owned.exchanged⟩
    rw [owned.live id socket found alive]
    exact same live
  · rw [opened]
    refine ⟨fun id socket found alive => ?_, owned.exchanged⟩
    dsimp only at found ⊢
    by_cases old : id < state.sockets.length
    · rw [List.getElem?_append_left old] at found
      have used : state.socket?.any Socket.live = true := by
        rw [socket_of_ws (sound.live id socket found alive) found]
        exact alive
      exact absurd (dead.symm.trans used) Bool.false_ne_true
    · rw [List.getElem?_append_right (by omega)] at found
      have only := List.mem_of_getElem? found
      rw [List.mem_singleton] at only
      rw [only]

theorem Owned.exchange (owned : Owned state) (own : socket.token = state.token) : Owned (state.exchange socket) where
  live := owned.live
  exchanged frame member := by
    obtain rfl | old := List.mem_cons.mp member
    · exact own
    · exact owned.exchanged frame old


theorem Owned.step_iff {event : Event User} (owned : Owned state) (sound : Sound state)
    (stepped : step state event = some next) : Owned next ↔ FreshLogin state event := by
  cases event with
  | doLogin user =>
      cases stepped
      refine ⟨fun kept live => ?_, fun fresh => owned.connect sound fresh⟩
      obtain ⟨id, socket, current, found, alive⟩ := socket_of_live live
      have unchanged : state.doLogin user = { state with token := some user } := by
        rw [State.doLogin, State.connectWebSocket]
        exact if_pos live
      rw [unchanged] at kept
      exact (owned.live id socket found alive).symm.trans (kept.live id socket found alive)
  | doLogout =>
      cases stepped
      refine ⟨fun _ => trivial, fun _ => ⟨fun id socket found alive => ?_, ?_⟩⟩
      · rw [sound.doLogout_closes found] at alive
        cases alive
      · unfold State.doLogout
        cases state.ws <;> exact owned.exchanged
  | onopen id =>
      obtain ⟨socket, found, rfl⟩ := Option.map_eq_some_iff.mp stepped
      obtain ⟨found, ready⟩ := Option.filter_eq_some_iff.mp found
      have connecting := of_decide_eq_true ready
      refine ⟨fun _ => trivial, fun _ => owned.of_update rfl rfl fun other changed there alive => ?_⟩
      obtain ⟨old, before, rfl⟩ := State.update_sockets there
      by_cases same : id = other
      · subst same
        rw [found] at before
        cases before
        exact ⟨socket, found, by rw [Socket.live, connecting]; rfl, by rw [if_pos rfl]⟩
      · rw [if_neg same] at alive ⊢
        exact ⟨old, before, alive, rfl⟩
  | startClosing id =>
      obtain ⟨socket, found, rfl⟩ := Option.map_eq_some_iff.mp stepped
      refine ⟨fun _ => trivial, fun _ => owned.of_update rfl rfl fun other changed there alive => ?_⟩
      obtain ⟨old, before, rfl⟩ := State.update_sockets there
      by_cases same : id = other
      · rw [if_pos same] at alive
        cases alive
      · rw [if_neg same] at alive ⊢
        exact ⟨old, before, alive, rfl⟩
  | onclose id =>
      obtain ⟨socket, found, rfl⟩ := Option.map_eq_some_iff.mp stepped
      obtain ⟨sockets, token, exchanged⟩ := State.onclose_frame state id
      refine ⟨fun _ => trivial, fun _ => owned.of_update token exchanged fun other changed there alive => ?_⟩
      rw [sockets] at there
      obtain ⟨old, before, rfl⟩ := State.update_sockets there
      by_cases same : id = other
      · rw [if_pos same] at alive
        cases alive
      · rw [if_neg same] at alive ⊢
        exact ⟨old, before, alive, rfl⟩
  | onmessage id =>
      obtain ⟨socket, found, rfl⟩ := Option.map_eq_some_iff.mp stepped
      obtain ⟨found, ready⟩ := Option.filter_eq_some_iff.mp found
      have alive : socket.live = true := by
        rw [Socket.live, ready]
        rfl
      exact ⟨fun _ => trivial, fun _ => owned.exchange (owned.live id socket found alive)⟩
  | send =>
      obtain ⟨socket, found, rfl⟩ := Option.map_eq_some_iff.mp stepped
      obtain ⟨current, ready⟩ := Option.filter_eq_some_iff.mp found
      obtain ⟨id, _, found⟩ := Option.bind_eq_some_iff.mp current
      have alive : socket.live = true := by
        rw [Socket.live, ready]
        rfl
      exact ⟨fun _ => trivial, fun _ => owned.exchange (owned.live id socket found alive)⟩
  | reconnect =>
      simp only [step] at stepped
      split at stepped
      · cases stepped
        exact ⟨fun _ => trivial, fun _ => owned.connect sound fun _ => rfl⟩
      · cases stepped

theorem owned_init (token : Option User) : Owned (State.init token) := by
  have blank (token : Option User) : Owned ({ token } : State User) :=
    ⟨fun _ _ found => (by cases found), fun _ member => (by cases member)⟩
  unfold State.init
  split
  · exact (blank none).connect sound_blank fun live => by cases live
  · exact blank token

/-- The connection of the page stays that of its user exactly if nobody logs in as
another user while it is in use. -/
theorem owned_iff (token : Option User) (events : List (Event User)) :
    machine.Always Owned (State.init token) events ↔ machine.Meets FreshLogin (State.init token) events :=
  Machine.always_iff_meets Sound (owned_init token) (sound_init token)
    (fun _ _ _ sound stepped => sound.preserved stepped)
    fun _ _ _ sound owned stepped => owned.step_iff sound stepped

/-- Two logins in a row, the second as another user: the first socket stays. -/
example : (machine.run (State.init none) [.doLogin 1, .onopen 0, .doLogin 2, .onmessage 0]).map (·.exchanged) =
    some [(some 1, some 2)] := by decide

end MuduoIm.Web.Connection
