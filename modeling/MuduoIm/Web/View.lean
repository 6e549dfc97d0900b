import MuduoIm.Transition.Machine
import MuduoIm.Web.MessageUpdates.Registers

namespace MuduoIm.Web.View

open MuduoIm.Data MuduoIm.Data.FirstMatch MuduoIm.Transition
open MuduoIm.Web.MessageCache (Key isSnow)
open MuduoIm.Web.MessageUpdates
open MuduoIm.Web.MessageOrder (insertMessageSorted cmpByMsgId)

/-! # The messages on the screen

The page draws the messages of the selected conversation from its cache.  A message
that comes last is appended to what is drawn, other changes draw everything again or
change one item in place, and the answer to a selection replaces the array.  What an
item shows of its own message is compared.
-/

/-- What is drawn of a message of its own; of a recalled one nothing but that.  Left out
are the quote, which is drawn from another message, the buttons and the class of the
item: an ack and a recall in place leave parts of these that drawing again changes. -/
structure Item where
  msgId : Option String
  fromId : ℤ
  shown : Option (Option Number × Body)

def item (message : Message) : Item where
  msgId := message.msgId
  fromId := message.rest.fromId
  shown :=
    if message.rest.recalled then none else some (message.timestamp, { message.rest with replyTo := none })

def hasItem (msgId : String) (item : Item) : Bool := decide (item.msgId = some msgId)

/-- `selections` are the answers that `selectChat` waits for, with their numbers.
`loading` is the conversation whose older messages are asked for; it has the array
itself once another has taken its place in the cache.  `sent` is history. -/
structure State where
  client : Client
  currentChat : Option Key := none
  dom : List Item := []
  selections : List (ℕ × Key) := []
  lastSelection : ℕ := 0
  historyFullyLoaded : List Key := []
  loading : Option (Key × Option (List Message)) := none
  sent : List String := []

def State.renderMessages (state : State) : State :=
  { state with dom := (state.currentChat.map fun key => (state.client.messages key).map item).getD [] }

def State.appendMessageToDOM (state : State) (message : Message) : State :=
  { state with dom := state.dom ++ [item message] }

def State.inDom (state : State) (msgId : String) : Bool := state.dom.any (hasItem msgId)

/-- A message of somebody else: it is appended, or everything is drawn again. -/
def State.arrive (state : State) (key : Key) (message : Message) : State :=
  let (array, insertedAt) := insertMessageSorted (state.client.messages key) message
  let after := { state with client := state.client.insert key message }
  if state.currentChat = some key then
    if insertedAt = array.length - 1 then after.appendMessageToDOM message else after.renderMessages
  else after

/-- The message of a frame that brings one. -/
def arrival (userId : ℤ) : Frame → Option (Key × Message)
  | .msg msgId fromId toId content replyTo timestamp =>
      some (.friend fromId, { msgId := some msgId, timestamp := some (Number.ofInt timestamp)
                              rest := { fromId, toId, content, replyTo } })
  | .groupMsg msgId fromId toId content replyTo timestamp mention mentions =>
      if fromId = userId then none
      else some (.group toId, { msgId := some msgId, timestamp := some (Number.ofInt timestamp)
                                rest := { fromId, toId, content, replyTo, mention, mentions } })
  | .fileMsg msgId fromId toId groupId filename url fileSize timestamp =>
      if fromId = userId then none
      else some (if groupId = 0 then .friend fromId else .group groupId,
        { msgId := some msgId, timestamp := some (Number.ofInt timestamp)
          rest := { fromId, toId, content := if filename = "" then fileText else filename, fileUrl := some url,
                    filename := some filename, fileSize := some fileSize } })
  | _ => none

/-- `handleWsMessage`, with what it draws. -/
def State.receive (state : State) (now : ℤ) (frame : Frame) : State :=
  let after := { state with client := state.client.handle now frame }
  match arrival state.client.userId frame with
  | some (key, message) => state.arrive key message
  | none =>
      match frame with
      | .ack clientMsgId msgId =>
          if clientMsgId ≠ "" ∧ msgId ≠ "" ∧ clientMsgId ≠ msgId then
            { after with dom := updateFirst (hasItem clientMsgId) ({ · with msgId := some msgId }) state.dom }
          else after
      | .delivered msgId .. | .edit msgId .. =>
          if state.inDom msgId && state.currentChat.isSome then after.renderMessages else after
      | .reactionUpdate msgId _ => if state.inDom msgId then after.renderMessages else after
      | .recall msgId => { after with dom := updateFirst (hasItem msgId) ({ · with shown := none }) state.dom }
      | .readAck fromId _ => if state.currentChat = some (.friend fromId) then after.renderMessages else after
      | _ => after

/-- The array of a key is replaced; who has the old one keeps it. -/
def State.replace (state : State) (key : Key) (array : List Message) : State :=
  { state with
    client := { state.client with messageCache := state.client.messageCache.insert key array }
    loading := state.loading.map fun request =>
      if request.1 = key then (request.1, some (request.2.getD (state.client.messages key))) else request }

/-- `history` is the answer to a selection, and `page` that to a scroll, or their
failures; `close` is the end of the selected conversation. -/
inductive Event where
  | selectChat (key : Key)
  | history (number : ℕ) (rows : Option (List Message))
  | onChatScroll
  | page (rows : Option (List Message))
  | receive (now : ℤ) (frame : Frame)
  | send (msgId : String) (timestamp : ℤ) (body : Body)
  | recallMessage (msgId : String)
  | close
  | doLogout
  | doLogin (userId : ℤ)

def snowRow (message : Message) : Bool := message.msgId.any isSnow

/-- The server's ids are digits, and those that the page makes are not and are new;
an ack is for one of these. -/
def fromServer (sent : List String) : Frame → Bool
  | .msg msgId .. | .groupMsg msgId .. | .fileMsg msgId .. => isSnow msgId
  | .ack clientMsgId msgId => isSnow msgId && sent.contains clientMsgId
  | _ => true

def step (state : State) : Event → Option State
  | .selectChat key => some { state with
      currentChat := some key
      selections := state.selections ++ [(state.lastSelection + 1, key)]
      lastSelection := state.lastSelection + 1
      historyFullyLoaded := state.historyFullyLoaded.filter (· ≠ key) }
  | .history number rows =>
      match state.selections.find? (·.1 = number) with
      | some (_, key) =>
          let array := (rows.getD []).mergeSort fun first second => (cmpByMsgId first second).atMostZero
          if (rows.getD []).all snowRow then
            some { state.replace key array with
              selections := state.selections.filter (·.1 ≠ number) }.renderMessages
          else none
      | none => none
  | .onChatScroll =>
      match state.currentChat with
      | some key =>
          match state.client.messages key with
          | oldest :: _ =>
              if state.loading.isSome ∨ key ∈ state.historyFullyLoaded ∨
                  Number.orZero oldest.timestamp = Number.ofInt 0 then none
              else some { state with loading := some (key, none) }
          | [] => none
      | none => none
  | .page rows =>
      match state.loading, rows with
      | some (key, array), some (row :: more) =>
          if (row :: more).all snowRow then
            let after := state.replace key (row :: more ++ array.getD (state.client.messages key))
            some { after.renderMessages with
              loading := none
              historyFullyLoaded :=
                if (row :: more).length < 20 then key :: state.historyFullyLoaded else state.historyFullyLoaded }
          else none
      | some (key, _), some [] =>
          some { state with loading := none, historyFullyLoaded := key :: state.historyFullyLoaded }
      | some _, none => some { state with loading := none }
      | none, _ => none
  | .receive now frame => if fromServer state.sent frame then some (state.receive now frame) else none
  | .send msgId timestamp body =>
      match state.currentChat with
      | some key =>
          if isSnow msgId = false ∧ msgId ∉ state.sent then
            let message : Message := { msgId := some msgId, timestamp := some (Number.ofInt timestamp), rest := body }
            some { { state with client := state.client.send key msgId timestamp body }.appendMessageToDOM message with
              sent := msgId :: state.sent }
          else none
      | none => none
  | .recallMessage msgId => some (state.receive 0 (.recall msgId))
  | .close => some { state with currentChat := none, dom := [] }
  -- what is drawn stays
  | .doLogout => some { state with
      client := { userId := 0 }
      currentChat := none
      historyFullyLoaded := []
      loading := state.loading.map fun request =>
        (request.1, some (request.2.getD (state.client.messages request.1))) }
  | .doLogin userId => some { state with client := { state.client with userId } }

def machine : Machine State Event := ⟨step⟩

/-- The answer to the last selection is still to come. -/
def State.Waits (state : State) : Prop := ∃ key, (state.lastSelection, key) ∈ state.selections

/-- The messages on the screen are those of the cache, by what is their own. -/
def Drawn (state : State) : Prop :=
  ∀ key, state.currentChat = some key → ¬ state.Waits → state.dom = (state.client.messages key).map item

/-- A message that the user sends while the conversation is drawn does not sort before
the last one of the array. -/
def SentLast (state : State) : Event → Prop
  | .send msgId timestamp body => ∀ key, state.currentChat = some key → ¬ state.Waits →
      let message : Message := { msgId := some msgId, timestamp := some (Number.ofInt timestamp), rest := body }
      ∀ last ∈ (state.client.messages key).getLast?, (cmpByMsgId last message).aboveZero = false
  | _ => True

/-! ## The ids of an array -/

/-- The ids are the server's or those of sent messages, and of the latter each is there
once at most. -/
structure Known (sent : List String) (ids : List (Option String)) : Prop where
  known : ∀ id ∈ ids, ∃ name, id = some name ∧ (isSnow name = true ∨ name ∈ sent)
  once : ∀ name ∈ sent, ids.count (some name) ≤ 1

def ids (messages : List Message) : List (Option String) := messages.map (·.msgId)

variable {client : Client} {key target : Key} {msgId : String} {array messages : List Message} {message : Message}
variable {sent : List String} {frame : Frame} {now : ℤ} {state next : State}

theorem known_nil : Known sent [] := ⟨fun _ member => (by cases member), fun _ _ => by simp⟩

theorem Known.perm {before after : List (Option String)} (known : Known sent before) (perm : after.Perm before) :
    Known sent after where
  known id member := known.known id (perm.mem_iff.mp member)
  once name member := by
    rw [perm.count_eq]
    exact known.once name member

/-- The server's ids may come in any number. -/
theorem Known.append_snow (plain : ∀ name ∈ sent, isSnow name = false) {rows : List Message}
    (snow : ∀ message ∈ rows, snowRow message = true) {rest : List (Option String)} (known : Known sent rest) :
    Known sent (ids rows ++ rest) where
  known id member := by
    obtain row | old := List.mem_append.mp member
    · obtain ⟨message, present, rfl⟩ := List.mem_map.mp row
      obtain ⟨name, found, digits⟩ := (Option.any_eq_true _ _).mp (snow message present)
      exact ⟨name, found, .inl digits⟩
    · exact known.known id old
  once name member := by
    have none_there : (ids rows).count (some name) = 0 := by
      refine List.count_eq_zero.mpr fun present => ?_
      obtain ⟨message, row, same⟩ := List.mem_map.mp present
      have digits := snow message row
      rw [snowRow, same, Option.any_some, plain name member] at digits
      cases digits
    rw [List.count_append, none_there, Nat.zero_add]
    exact known.once name member

theorem Known.fresh {before : List (Option String)} (known : Known sent before) (plain : isSnow msgId = false)
    (unsent : msgId ∉ sent) : some msgId ∉ before := by
  intro present
  obtain ⟨name, same, digits | own⟩ := known.known _ present
  · rw [← Option.some.inj same, plain] at digits
    cases digits
  · exact unsent (Option.some.inj same ▸ own)

/-- A message of the page has a new id. -/
theorem Known.cons_own {rest : List (Option String)} (known : Known sent rest) (plain : isSnow msgId = false)
    (fresh : msgId ∉ sent) : Known (msgId :: sent) (some msgId :: rest) where
  known id member := by
    obtain rfl | old := List.mem_cons.mp member
    · exact ⟨msgId, rfl, .inr List.mem_cons_self⟩
    · obtain ⟨name, same, digits | own⟩ := known.known id old
      · exact ⟨name, same, .inl digits⟩
      · exact ⟨name, same, .inr (List.mem_cons_of_mem _ own)⟩
  once name member := by
    rw [List.count_cons]
    obtain rfl | old := List.mem_cons.mp member
    · rw [List.count_eq_zero.mpr (known.fresh plain fresh)]
      split <;> omega
    · have other : ¬ (some msgId == some name) = true := by
        intro same
        exact fresh (Option.some.inj (eq_of_beq same) ▸ old)
      rw [if_neg other]
      exact known.once name old

theorem Known.weaken {rest : List (Option String)} (known : Known sent rest) (plain : isSnow msgId = false)
    (fresh : msgId ∉ sent) : Known (msgId :: sent) rest where
  known id member := by
    obtain ⟨name, same, digits | own⟩ := known.known id member
    · exact ⟨name, same, .inl digits⟩
    · exact ⟨name, same, .inr (List.mem_cons_of_mem _ own)⟩
  once name member := by
    have more := (known.cons_own plain fresh).once name member
    rw [List.count_cons] at more
    omega

theorem perm_insert (messages : List Message) (message : Message) :
    (ids (insertMessageSorted messages message).1).Perm (message.msgId :: ids messages) := by
  rw [MessageOrder.insertMessageSorted_eq]
  exact (StableInsert.insertAt_perm.map _)

theorem ids_updateFirst (selected : Message → Bool) (change : Body → Body) :
    ids (updateFirst selected (onBody change) messages) = ids messages := by
  induction messages with
  | nil => rfl
  | cons message rest ih =>
      rw [updateFirst]
      split
      · rfl
      · exact congrArg (message.msgId :: ·) ih

theorem msgId_markRead (userId : ℤ) : (markRead userId message).msgId = message.msgId := by
  unfold markRead
  split <;> rfl

theorem ids_handleReadAck (userId : ℤ) (lastMsgId : String) :
    ids (handleReadAck userId lastMsgId messages) = ids messages := by
  have all (messages : List Message) : ids (messages.map (markRead userId)) = ids messages := by
    rw [ids, ids, List.map_map]
    exact List.map_congr_left fun message _ => msgId_markRead userId
  have marked : ids (markUntil userId lastMsgId messages).1 = ids messages := by
    induction messages with
    | nil => rfl
    | cons message rest ih =>
        rw [markUntil]
        split
        · exact congrArg (· :: ids rest) (msgId_markRead userId)
        · exact congrArg₂ List.cons (msgId_markRead userId) ih
  rw [handleReadAck]
  dsimp only
  split
  · exact marked
  · exact (all _).trans marked

/-- An ack gives a sent message an id of the server. -/
theorem Known.ack {tmpId realId : String} (known : Known sent (ids messages))
    (plain : ∀ name ∈ sent, isSnow name = false) (snow : isSnow realId = true) :
    Known sent (ids (messages.map (rename tmpId realId))) := by
  have renamed : ids (messages.map (rename tmpId realId)) =
      (ids messages).map fun id => if id = some tmpId then some realId else id := by
    rw [ids, ids, List.map_map, List.map_map]
    rfl
  rw [renamed]
  constructor
  · intro id member
    obtain ⟨old, present, rfl⟩ := List.mem_map.mp member
    split
    · exact ⟨realId, rfl, .inl snow⟩
    · exact known.known old present
  · intro name member
    have few := known.once name member
    have apart : realId ≠ name := by
      intro same
      rw [same, plain name member] at snow
      cases snow
    refine Nat.le_trans ?_ few
    generalize ids messages = names
    induction names with
    | nil => exact Nat.le_refl _
    | cons id names ih =>
        rw [List.map_cons, List.count_cons, List.count_cons]
        by_cases same : id = some tmpId
        · rw [if_pos same, if_neg (by simpa using apart)]
          omega
        · rw [if_neg same]
          omega

/-! ## Frames -/

theorem handle_arrival (brought : arrival client.userId frame = some (key, message)) :
    client.handle now frame = client.insert key message := by
  cases frame with
  | msg msgId fromId toId content replyTo timestamp =>
      cases brought
      rfl
  | groupMsg msgId fromId toId content replyTo timestamp mention mentions =>
      simp only [arrival] at brought
      split at brought
      · cases brought
      · rename_i other
        cases brought
        rw [Client.handle, if_neg other]
  | fileMsg msgId fromId toId groupId filename url fileSize timestamp =>
      simp only [arrival] at brought
      split at brought
      · cases brought
      · rename_i other
        cases brought
        rw [Client.handle, if_neg other]
  | ack _ _ => cases brought
  | delivered _ _ _ => cases brought
  | reactionUpdate _ _ => cases brought
  | edit _ _ _ => cases brought
  | «recall» _ => cases brought
  | readAck _ _ => cases brought

theorem snowRow_arrival (server : fromServer sent frame = true)
    (brought : arrival client.userId frame = some (key, message)) : snowRow message = true := by
  cases frame with
  | msg msgId fromId toId content replyTo timestamp =>
      cases brought
      exact server
  | groupMsg msgId fromId toId content replyTo timestamp mention mentions =>
      simp only [arrival] at brought
      split at brought
      · cases brought
      · cases brought
        exact server
  | fileMsg msgId fromId toId groupId filename url fileSize timestamp =>
      simp only [arrival] at brought
      split at brought
      · cases brought
      · cases brought
        exact server
  | ack _ _ => cases brought
  | delivered _ _ _ => cases brought
  | reactionUpdate _ _ => cases brought
  | edit _ _ _ => cases brought
  | «recall» _ => cases brought
  | readAck _ _ => cases brought

theorem Known.insert (known : ∀ key, Known sent (ids (client.messages key)))
    (plain : ∀ name ∈ sent, isSnow name = false) (snow : snowRow message = true) (target key : Key) :
    Known sent (ids ((client.insert target message).messages key)) := by
  rw [messages_insert]
  split
  · have row : ∀ other ∈ [message], snowRow other = true := by simpa using snow
    exact ((known target).append_snow plain row).perm (perm_insert _ message)
  · exact known key

theorem Known.handle (known : ∀ key, Known sent (ids (client.messages key)))
    (plain : ∀ name ∈ sent, isSnow name = false) (server : fromServer sent frame = true) (key : Key) :
    Known sent (ids ((client.handle now frame).messages key)) := by
  cases brought : arrival client.userId frame with
  | some arrived =>
      rw [handle_arrival brought]
      exact Known.insert known plain (snowRow_arrival server brought) arrived.1 key
  | none =>
      have updated (msgId : String) (change : Body → Body) :
          Known sent (ids ((client.update msgId change).messages key)) := by
        rw [Client.update, messages_mapValues _ rfl, ids_updateFirst]
        exact known key
      cases frame with
      | msg _ _ _ _ _ _ => cases brought
      | groupMsg msgId fromId toId content replyTo timestamp mention mentions =>
          simp only [arrival] at brought
          split at brought
          · rename_i own
            rw [Client.handle, if_pos own, messages_touch]
            exact known key
          · cases brought
      | fileMsg msgId fromId toId groupId filename url fileSize timestamp =>
          simp only [arrival] at brought
          split at brought
          · rename_i own
            rw [Client.handle, if_pos own, messages_touch]
            exact known key
          · cases brought
      | ack clientMsgId msgId =>
          rw [Client.handle]
          split
          · rw [messages_mapValues _ rfl]
            exact (known key).ack plain (Bool.and_eq_true_iff.mp server).1
          · exact known key
      | delivered msgId deliveredAt deliveredCount => exact updated _ _
      | reactionUpdate msgId reactions => exact updated _ _
      | edit msgId newBody editedAt => exact updated _ _
      | «recall» msgId => exact updated _ _
      | readAck fromId lastMsgId =>
          rw [Client.handle]
          split
          · rw [Client.messages, Table.lookup_insert_ite]
            split
            · rename_i same
              rw [Option.getD_some, ids_handleReadAck, ← same]
              exact known key
            · exact known key
          · exact known key

/-! ## The arrays in a run -/

structure Sound (state : State) : Prop where
  plain : ∀ name ∈ state.sent, isSnow name = false
  arrays : ∀ key, Known state.sent (ids (state.client.messages key))
  captured : ∀ key array, state.loading = some (key, some array) → Known state.sent (ids array)

theorem State.receive_frame (state : State) (now : ℤ) (frame : Frame) :
    (state.receive now frame).client = state.client.handle now frame ∧
      (state.receive now frame).loading = state.loading ∧ (state.receive now frame).sent = state.sent ∧
      (state.receive now frame).currentChat = state.currentChat ∧
      (state.receive now frame).selections = state.selections ∧
      (state.receive now frame).lastSelection = state.lastSelection := by
  unfold State.receive
  cases brought : arrival state.client.userId frame with
  | some arrived =>
      have same := @handle_arrival state.client arrived.1 arrived.2 frame now brought
      dsimp only [State.arrive]
      split
      · split <;> exact ⟨same.symm, rfl, rfl, rfl, rfl, rfl⟩
      · exact ⟨same.symm, rfl, rfl, rfl, rfl, rfl⟩
  | none =>
      dsimp only
      split
      · split <;> exact ⟨rfl, rfl, rfl, rfl, rfl, rfl⟩
      · split <;> exact ⟨rfl, rfl, rfl, rfl, rfl, rfl⟩
      · split <;> exact ⟨rfl, rfl, rfl, rfl, rfl, rfl⟩
      · split <;> exact ⟨rfl, rfl, rfl, rfl, rfl, rfl⟩
      · exact ⟨rfl, rfl, rfl, rfl, rfl, rfl⟩
      · split <;> exact ⟨rfl, rfl, rfl, rfl, rfl, rfl⟩
      · exact ⟨rfl, rfl, rfl, rfl, rfl, rfl⟩

theorem Sound.receive (sound : Sound state) (server : fromServer state.sent frame = true) :
    Sound (state.receive now frame) := by
  obtain ⟨client, loading, sent, _, _, _⟩ := state.receive_frame now frame
  refine ⟨by rw [sent]; exact sound.plain, fun key => ?_, fun key array taken => ?_⟩
  · rw [client, sent]
    exact Known.handle sound.arrays sound.plain server key
  · rw [loading] at taken
    rw [sent]
    exact sound.captured key array taken

theorem messages_replace (array : List Message) :
    (state.replace target array).client.messages key = if key = target then array else state.client.messages key := by
  rw [Client.messages, State.replace, Table.lookup_insert_ite]
  split
  · rfl
  · rfl

theorem Sound.replace (sound : Sound state) {array : List Message} (known : Known state.sent (ids array)) :
    Sound (state.replace target array) where
  plain := sound.plain
  arrays key := by
    rw [messages_replace]
    split
    · exact known
    · exact sound.arrays key
  captured key old taken := by
    obtain ⟨request, present, same⟩ := Option.map_eq_some_iff.mp taken
    split at same
    · cases same
      cases holds : request.2 with
      | none => exact sound.arrays target
      | some own => exact sound.captured request.1 own (by rw [present, ← holds])
    · cases same
      exact sound.captured key old present

theorem Sound.preserved {event : Event} (sound : Sound state) (stepped : step state event = some next) :
    Sound next := by
  cases event with
  | selectChat key =>
      cases stepped
      exact ⟨sound.plain, sound.arrays, sound.captured⟩
  | history number rows =>
      simp only [step] at stepped
      split at stepped
      · rename_i number key found
        split at stepped
        · rename_i snow
          cases stepped
          have rows_known := known_nil.append_snow sound.plain (List.all_eq_true.mp snow)
          rw [List.append_nil] at rows_known
          have known := rows_known.perm (List.Perm.map (·.msgId) ((rows.getD []).mergeSort_perm
            fun first second => (cmpByMsgId first second).atMostZero))
          have replaced := @Sound.replace key state sound _ known
          exact ⟨replaced.plain, replaced.arrays, replaced.captured⟩
        · cases stepped
      · cases stepped
  | onChatScroll =>
      simp only [step] at stepped
      split at stepped
      · split at stepped
        · split at stepped
          · cases stepped
          · cases stepped
            exact ⟨sound.plain, sound.arrays, fun _ _ taken => by cases taken⟩
        · cases stepped
      · cases stepped
  | page rows =>
      simp only [step] at stepped
      split at stepped
      · rename_i key array row more found
        split at stepped
        · rename_i snow
          cases stepped
          have old : Known state.sent (ids (array.getD (state.client.messages key))) := by
            cases array with
            | none => exact sound.arrays key
            | some own => exact sound.captured key own found
          have known := old.append_snow sound.plain (List.all_eq_true.mp snow)
          rw [ids, ids, ← List.map_append] at known
          have replaced := @Sound.replace key state sound _ known
          exact ⟨replaced.plain, replaced.arrays, fun _ _ taken => by cases taken⟩
        · cases stepped
      · cases stepped
        exact ⟨sound.plain, sound.arrays, fun _ _ taken => by cases taken⟩
      · cases stepped
        exact ⟨sound.plain, sound.arrays, fun _ _ taken => by cases taken⟩
      · cases stepped
  | receive now frame =>
      simp only [step] at stepped
      split at stepped
      · rename_i server
        cases stepped
        exact sound.receive server
      · cases stepped
  | send msgId timestamp body =>
      simp only [step] at stepped
      split at stepped
      · rename_i key chat
        split at stepped
        · rename_i allowed
          obtain ⟨plain, fresh⟩ := allowed
          cases stepped
          refine ⟨?_, fun other => ?_, fun other array taken => (sound.captured other array taken).weaken plain fresh⟩
          · intro name member
            obtain rfl | old := List.mem_cons.mp member
            · exact plain
            · exact sound.plain name old
          · rw [State.appendMessageToDOM]
            dsimp only
            rw [Client.send, messages_insert]
            split
            · exact ((sound.arrays key).cons_own plain fresh).perm (perm_insert _ _)
            · exact (sound.arrays other).weaken plain fresh
        · cases stepped
      · cases stepped
  | recallMessage msgId =>
      cases stepped
      exact sound.receive rfl
  | close =>
      cases stepped
      exact ⟨sound.plain, sound.arrays, sound.captured⟩
  | doLogout =>
      cases stepped
      refine ⟨sound.plain, fun _ => known_nil, fun key array taken => ?_⟩
      obtain ⟨request, present, same⟩ := Option.map_eq_some_iff.mp taken
      cases same
      cases holds : request.2 with
      | none => exact sound.arrays _
      | some own => exact sound.captured request.1 own (by rw [present, ← holds])
  | doLogin userId =>
      cases stepped
      exact ⟨sound.plain, sound.arrays, sound.captured⟩

/-! ## Drawing -/

variable {arr : List Message}

theorem insert_last (last : (insertMessageSorted arr message).2 = arr.length) :
    (insertMessageSorted arr message).1 = arr ++ [message] := by
  rw [MessageOrder.insertMessageSorted_eq] at last ⊢
  dsimp only at last ⊢
  rw [last]
  exact StableInsert.insertAt_length _ _

theorem length_insert : (insertMessageSorted arr message).1.length = arr.length + 1 := by
  rw [MessageOrder.insertMessageSorted_eq]
  exact StableInsert.insertAt_perm.length_eq

theorem insert_last_iff : (insertMessageSorted arr message).2 = arr.length ↔
    ∀ last ∈ arr.getLast?, (cmpByMsgId last message).aboveZero = false := by
  rw [MessageOrder.insertMessageSorted_eq]
  constructor
  · intro place_end last member
    by_contra above
    obtain ⟨before, rfl⟩ := List.getLast?_eq_some_iff.mp member
    dsimp only at place_end
    rw [List.length_append, List.length_singleton, StableInsert.place, List.getElem?_concat_length, Option.any_some,
      if_pos (by simpa using above)] at place_end
    have bound := StableInsert.place_le (fun other => (cmpByMsgId other message).aboveZero) (before ++ [last])
      before.length
    omega
  · exact StableInsert.place_length

/-- A new message is drawn in its place exactly if that is the end. -/
theorem drawn_append_iff (fresh : message.msgId ∉ ids arr) :
    arr.map item ++ [item message] = (insertMessageSorted arr message).1.map item ↔
      (insertMessageSorted arr message).2 = arr.length := by
  constructor
  · intro same
    by_contra before
    have within := MessageOrder.index_le_length arr message
    have there : (insertMessageSorted arr message).1[(insertMessageSorted arr message).2]? = some message := by
      rw [MessageOrder.insertMessageSorted_eq] at within ⊢
      exact StableInsert.getElem?_insertAt within
    have drawn := congrArg (·[(insertMessageSorted arr message).2]?) same
    rw [List.getElem?_map, there, Option.map_some, List.getElem?_append_left (by rw [List.length_map]; omega),
      List.getElem?_map] at drawn
    obtain ⟨other, found, equal⟩ := Option.map_eq_some_iff.mp drawn
    have named : other.msgId = message.msgId := congrArg Item.msgId equal
    exact fresh (List.mem_map.mpr ⟨other, List.mem_of_getElem? found, named⟩)
  · intro last
    rw [insert_last last, List.map_append]
    rfl

theorem item_hasItem (msgId : String) (message : Message) : hasItem msgId (item message) = hasId msgId message := rfl

/-- Without an item of the id nothing in the array changes. -/
theorem updateFirst_of_not_drawn {change : Message → Message}
    (absent : ((arr.map item).any (hasItem msgId)) = false) : updateFirst (hasId msgId) change arr = arr := by
  induction arr with
  | nil => rfl
  | cons message rest ih =>
      rw [List.map_cons, List.any_cons, Bool.or_eq_false_iff, item_hasItem] at absent
      rw [updateFirst, absent.1, ih absent.2]
      rfl

/-- A recall changes the item that it changes in the array. -/
theorem drawn_recall : (updateFirst (hasId msgId)
      (onBody fun body => { body with recalled := true, content := recalledText, fileUrl := none }) arr).map item =
    updateFirst (hasItem msgId) ({ · with shown := none }) (arr.map item) := by
  induction arr with
  | nil => rfl
  | cons message rest ih =>
      rw [List.map_cons, updateFirst, updateFirst, item_hasItem]
      split
      · rfl
      · rw [List.map_cons, ih]

theorem item_rename (tmpId realId : String) (message : Message) : item (rename tmpId realId message) =
    if hasItem tmpId (item message) then { item message with msgId := some realId } else item message := by
  rw [item_hasItem, hasId]
  split
  · rename_i found
    rw [item, rename, if_pos (of_decide_eq_true found)]
    rfl
  · rename_i absent
    rw [item, rename, if_neg (fun found => absent (decide_eq_true found))]
    rfl

/-- An ack renames the one item that has the id. -/
theorem drawn_ack {tmpId realId : String} (once : (ids arr).count (some tmpId) ≤ 1) :
    (arr.map (rename tmpId realId)).map item =
      updateFirst (hasItem tmpId) ({ · with msgId := some realId }) (arr.map item) := by
  have untouched {rest : List Message} (absent : (ids rest).count (some tmpId) = 0) :
      (rest.map (rename tmpId realId)).map item = rest.map item := by
    rw [List.map_map]
    apply List.map_congr_left
    intro message member
    have other : ¬ message.msgId = some tmpId := by
      intro same
      exact List.count_eq_zero.mp absent (List.mem_map.mpr ⟨message, member, same⟩)
    rw [Function.comp, item_rename, item_hasItem, hasId, decide_eq_false other]
    rfl
  induction arr with
  | nil => rfl
  | cons message rest ih =>
      rw [ids, List.map_cons, List.count_cons] at once
      rw [List.map_cons, List.map_cons, List.map_cons, updateFirst, item_rename]
      by_cases found : hasItem tmpId (item message) = true
      · have same : (message.msgId == some tmpId) = true := beq_iff_eq.mpr (of_decide_eq_true found)
        rw [if_pos same] at once
        rw [if_pos found, if_pos found, untouched (by rw [ids]; omega)]
      · rw [if_neg found, if_neg found, ih (by rw [ids]; omega)]

theorem drawn_renderMessages (state : State) : Drawn state.renderMessages := by
  intro key chat _
  rw [State.renderMessages] at chat ⊢
  dsimp only at chat ⊢
  rw [chat]
  rfl

theorem Drawn.arrive (drawn : Drawn state) (target : Key) (message : Message) :
    Drawn (state.arrive target message) := by
  unfold State.arrive
  dsimp only
  split
  · rename_i chat
    split
    · rename_i last
      intro key selected waits
      have held : state.dom = (state.client.messages key).map item := drawn key selected waits
      have same : target = key := Option.some.inj (chat.symm.trans selected)
      rw [length_insert, Nat.add_sub_cancel] at last
      rw [State.appendMessageToDOM]
      dsimp only
      rw [messages_insert, if_pos same.symm, insert_last last, List.map_append, held, same]
      rfl
    · exact drawn_renderMessages _
  · rename_i other
    intro key selected waits
    have held : state.dom = (state.client.messages key).map item := drawn key selected waits
    have elsewhere : key ≠ target := by
      intro same
      exact other (same ▸ selected)
    dsimp only
    rw [messages_insert, if_neg elsewhere, held]

/-- A frame that changes a message has everything drawn again, or the message is not
drawn. -/
theorem Drawn.update (drawn : Drawn state) {shown : Bool} (change : Body → Body)
    (shows : state.currentChat.isSome = true → state.inDom msgId = true → shown = true) :
    Drawn (if shown then { state with client := state.client.update msgId change }.renderMessages
      else { state with client := state.client.update msgId change }) := by
  split
  · exact drawn_renderMessages _
  · rename_i hidden
    intro key selected waits
    have held : state.dom = (state.client.messages key).map item := drawn key selected waits
    have chat : state.currentChat = some key := selected
    have absent : ((state.client.messages key).map item).any (hasItem msgId) = false := by
      by_contra present
      rw [Bool.not_eq_false, ← held] at present
      exact hidden (shows (by rw [chat]; rfl) present)
    dsimp only
    rw [Client.update, messages_mapValues _ rfl, updateFirst_of_not_drawn absent, held]

theorem Drawn.receive (sound : Sound state) (server : fromServer state.sent frame = true) (drawn : Drawn state) :
    Drawn (state.receive now frame) := by
  unfold State.receive
  cases brought : arrival state.client.userId frame with
  | some arrived => exact drawn.arrive arrived.1 arrived.2
  | none =>
      have touched (target : Key) : Drawn { state with client := state.client.touch target } := by
        intro key selected waits
        dsimp only
        rw [messages_touch]
        exact drawn key selected waits
      cases frame with
      | msg _ _ _ _ _ _ => cases brought
      | groupMsg msgId fromId toId content replyTo timestamp mention mentions =>
          simp only [arrival] at brought
          split at brought
          · rename_i own
            dsimp only
            rw [Client.handle, if_pos own]
            exact touched _
          · cases brought
      | fileMsg msgId fromId toId groupId filename url fileSize timestamp =>
          simp only [arrival] at brought
          split at brought
          · rename_i own
            dsimp only
            rw [Client.handle, if_pos own]
            exact touched _
          · cases brought
      | ack clientMsgId msgId =>
          dsimp only
          rw [Client.handle]
          split
          · intro key selected waits
            have held : state.dom = (state.client.messages key).map item := drawn key selected waits
            dsimp only
            have own : clientMsgId ∈ state.sent := List.contains_iff_mem.mp (Bool.and_eq_true_iff.mp server).2
            rw [messages_mapValues _ rfl, drawn_ack ((sound.arrays key).once clientMsgId own), held]
          · exact drawn
      | delivered msgId deliveredAt deliveredCount =>
          apply drawn.update
          intro chat present
          rw [chat, present]
          rfl
      | edit msgId newBody editedAt =>
          apply drawn.update
          intro chat present
          rw [chat, present]
          rfl
      | reactionUpdate msgId reactions => exact drawn.update _ fun _ present => present
      | «recall» msgId =>
          intro key selected waits
          have held : state.dom = (state.client.messages key).map item := drawn key selected waits
          dsimp only
          rw [Client.handle, Client.update, messages_mapValues _ rfl, drawn_recall, held]
      | readAck fromId lastMsgId =>
          dsimp only
          split
          · exact drawn_renderMessages _
          · rename_i other
            intro key selected waits
            have held : state.dom = (state.client.messages key).map item := drawn key selected waits
            have elsewhere : key ≠ .friend fromId := by
              intro same
              exact other (same ▸ selected)
            dsimp only
            rw [Client.handle]
            split
            · rw [Client.messages, Table.lookup_insert_ite, if_neg elsewhere, held]
              rfl
            · exact held

theorem drawn_step {event : Event} (sound : Sound state) (drawn : Drawn state)
    (stepped : step state event = some next) : Drawn next ↔ SentLast state event := by
  cases event with
  | selectChat key =>
      cases stepped
      refine iff_of_true (fun _ _ waits => absurd ⟨key, ?_⟩ waits) trivial
      exact List.mem_append_right _ List.mem_cons_self
  | history number rows =>
      simp only [step] at stepped
      split at stepped
      · split at stepped
        · cases stepped
          exact iff_of_true (drawn_renderMessages _) trivial
        · cases stepped
      · cases stepped
  | onChatScroll =>
      simp only [step] at stepped
      split at stepped
      · split at stepped
        · split at stepped
          · cases stepped
          · cases stepped
            exact iff_of_true drawn trivial
        · cases stepped
      · cases stepped
  | page rows =>
      simp only [step] at stepped
      split at stepped
      · split at stepped
        · cases stepped
          exact iff_of_true (drawn_renderMessages _) trivial
        · cases stepped
      · cases stepped
        exact iff_of_true drawn trivial
      · cases stepped
        exact iff_of_true drawn trivial
      · cases stepped
  | receive now frame =>
      simp only [step] at stepped
      split at stepped
      · rename_i server
        cases stepped
        exact iff_of_true (drawn.receive sound server) trivial
      · cases stepped
  | send msgId timestamp body =>
      simp only [step] at stepped
      split at stepped
      · rename_i key chat
        split at stepped
        · rename_i allowed
          obtain ⟨plain, unsent⟩ := allowed
          cases stepped
          have fresh := (sound.arrays key).fresh plain unsent
          let message : Message := { msgId := some msgId, timestamp := some (Number.ofInt timestamp), rest := body }
          have shown (waits : ¬ state.Waits) :
              state.dom ++ [item message] = ((state.client.send key msgId timestamp body).messages key).map item ↔
                ∀ last ∈ (state.client.messages key).getLast?, (cmpByMsgId last message).aboveZero = false := by
            rw [drawn key chat waits, Client.send, messages_insert, if_pos rfl, drawn_append_iff fresh, insert_last_iff]
          constructor
          · intro after other selected waits
            obtain rfl : key = other := Option.some.inj (chat.symm.trans selected)
            exact (shown waits).mp (after key chat waits)
          · intro last other selected waits
            obtain rfl : key = other := Option.some.inj (chat.symm.trans selected)
            exact (shown waits).mpr (last key chat waits)
        · cases stepped
      · cases stepped
  | recallMessage msgId =>
      cases stepped
      exact iff_of_true (drawn.receive sound rfl) trivial
  | close =>
      cases stepped
      exact iff_of_true (fun _ chat => by cases chat) trivial
  | doLogout =>
      cases stepped
      exact iff_of_true (fun _ chat => by cases chat) trivial
  | doLogin userId =>
      cases stepped
      exact iff_of_true drawn trivial

/-- From an empty cache the screen shows the selected conversation as it is cached
whenever no answer to its selection is outstanding, as long as no message of the user
sorts before another one when it is sent. -/
theorem drawn_iff (userId : ℤ) (events : List Event) :
    machine.Always Drawn { client := { userId } } events ↔
      machine.Meets SentLast { client := { userId } } events := by
  have start : Sound { client := { userId } } :=
    ⟨fun _ member => (by cases member), fun _ => known_nil, fun _ _ taken => by cases taken⟩
  exact machine.always_iff_meets Sound (fun _ chat => by cases chat) start
    (fun _ _ _ sound stepped => sound.preserved stepped)
    (fun _ _ _ sound drawn stepped => drawn_step sound drawn stepped)

end MuduoIm.Web.View
