import MuduoIm.Transition.Machine
import MuduoIm.Web.MessageUpdates.Registers

namespace MuduoIm.Web.Convergence

open MuduoIm.Data MuduoIm.Transition
open MuduoIm.Web.MessageCache (Key isSnow)
open MuduoIm.Web.MessageUpdates

/-! # A page and the tables

The handlers change a row first and push a frame about it afterwards, several
of them at a time.  The frames to one connected page are in flight for any
time, and arrive in the order in which they were pushed.
-/

/-- A text that somebody else has sent to the user of the page; `key` is where
the page files it. -/
structure Row where
  key : Key
  content : String
  editedAt : Option ℤ := none
  recalled : Bool := false
  reactions : Json := .object []

/-- `unsent` are the frames that handlers hold, in the order of the writes that
they tell of, and `stale` the messages whose reactions have changed since they
were last read.  `own` collects all other ids, a history. -/
structure State where
  rows : Table String Row := ∅
  stale : List String := []
  unsent : List Frame := []
  queue : List Frame := []
  client : Client
  own : List String := []

/-- `store` is the work on a new text, `push index` the push of a frame that a
handler holds, and `foreign` a frame about a file or a message of the user.
`pushedAt` is a clock that the handler of an edit reads after its write, `reached`
is whether the handler has the page among those whom it pushes to, and `other`
what a handler reads of reactions from a replica that lags, or without a
connection. -/
inductive Event where
  | store (frame : Frame)
  | edit (msgId newBody : String) (now pushedAt : ℤ)
  | recall (msgId : String)
  | toggle (msgId : String) (reactions : Json)
  | readReactions (msgId : String) (other : Option Json)
  | push (index : ℕ) (reached : Bool)
  | foreign (frame : Frame)
  | send (chat : Key) (msgId : String) (timestamp : ℤ) (body : Body)
  | receive (now : ℤ)

/-- The messages that a frame names. -/
def names : Frame → List String
  | .msg msgId .. | .groupMsg msgId .. | .fileMsg msgId .. | .delivered msgId .. | .reactionUpdate msgId _
  | .edit msgId .. | .recall msgId => [msgId]
  | .ack clientMsgId msgId => [clientMsgId, msgId]
  | .readAck _ _ => []

/-- The server's ids are digits, and no id is given twice.  The sender and the age
of a message, which `editMessage` and `recallMessage` check too, do not matter
here. -/
def step (state : State) : Event → Option State
  | .store frame =>
      match frame.brings state.client.userId with
      | some (key, msgId, shown) =>
          if shown.fileUrl = none ∧ isSnow msgId = true ∧ msgId ∉ state.rows ∧ msgId ∉ state.own then
            some { state with
              rows := state.rows.insert msgId { key, content := shown.content }
              unsent := state.unsent ++ [frame] }
          else none
      | none => none
  | .edit msgId newBody now pushedAt =>
      match state.rows.lookup msgId with
      | some row =>
          if row.recalled = true ∨ pushedAt = 0 then none
          else some { state with
            rows := state.rows.insert msgId { row with content := newBody, editedAt := some now }
            unsent := state.unsent ++ [.edit msgId newBody pushedAt] }
      | none => none
  | .recall msgId =>
      match state.rows.lookup msgId with
      | some row =>
          if row.recalled = true then none
          else some { state with
            rows := state.rows.insert msgId { row with recalled := true }
            unsent := state.unsent ++ [.recall msgId] }
      | none => none
  | .toggle msgId reactions =>
      match state.rows.lookup msgId with
      | some row => some { state with
          rows := state.rows.insert msgId { row with reactions }
          stale := msgId :: state.stale }
      | none => none
  | .readReactions msgId other =>
      match state.rows.lookup msgId with
      | some row => some { state with
          stale := if other.isSome then msgId :: state.stale else state.stale.filter (· ≠ msgId)
          unsent := state.unsent ++ [.reactionUpdate msgId (other.getD row.reactions)] }
      | none => none
  | .push index reached =>
      match state.unsent[index]? with
      | some frame => some { state with
          unsent := state.unsent.eraseIdx index
          queue := if reached then state.queue ++ [frame] else state.queue }
      | none => none
  | .foreign frame =>
      if ∀ msgId ∈ names frame, msgId ∉ state.rows then
        some { state with queue := state.queue ++ [frame], own := names frame ++ state.own }
      else none
  | .send chat msgId timestamp body =>
      if msgId ∉ state.rows then
        some { state with client := state.client.send chat msgId timestamp body, own := msgId :: state.own }
      else none
  | .receive now =>
      match state.queue with
      | frame :: queue => some { state with queue, client := state.client.handle now frame }
      | [] => none

def machine : Machine State Event := ⟨step⟩

/-- The page gets every frame: it is connected, and the sender of a text that is
recalled is a friend, as `handleRecall` pushes to friends only.  Of two frames about one
message the one that was made first is pushed first. -/
def InOrder (state : State) : Event → Prop
  | .push index reached => reached = true ∧ ∀ frame, state.unsent[index]? = some frame →
      ∀ earlier ∈ state.unsent.take index, ∀ msgId ∈ names earlier, msgId ∉ names frame
  | _ => True

/-- What the page shows of a message once it has all frames that are under way. -/
def drained (state : State) (key : Key) (msgId : String) : Option Shown :=
  (state.queue ++ state.unsent).foldl (Frame.shownStep state.client.userId 0 key msgId)
    (state.client.view key msgId)

/-- A recalled message keeps its content in the table, and is not to show it.  The
two times of an edit are not the same. -/
structure Agrees (stale : List String) (msgId : String) (row : Row) (shown : Shown) : Prop where
  content : shown.content = if row.recalled then recalledText else row.content
  fileUrl : shown.fileUrl = none
  edited : shown.editedAt.isSome = row.editedAt.isSome
  recalled : shown.recalled = row.recalled
  reactions : msgId ∉ stale → shown.reactions.getD (.object []) = row.reactions

variable {state next : State} {key : Key} {msgId : String} {frame : Frame} {frames : List Frame} {row : Row}
variable {userId now : ℤ} {shown : Option Shown}

/-! ## Registers and frames -/

theorem shownStep_of_not_named (other : msgId ∉ names frame) :
    frame.shownStep userId now key msgId shown = shown := by
  have apart {id : String} (named : id ∈ names frame) : id ≠ msgId := fun same => other (same ▸ named)
  cases frame with
  | groupMsg id fromId toId content replyTo timestamp mention mentions =>
      have away : id ≠ msgId := apart (.head _)
      by_cases own : fromId = userId <;>
        simp [Frame.shownStep, Frame.brings, Frame.changes, own, away]
  | fileMsg id fromId toId groupId filename url fileSize timestamp =>
      have away : id ≠ msgId := apart (.head _)
      by_cases own : fromId = userId <;>
        simp [Frame.shownStep, Frame.brings, Frame.changes, own, away]
  | msg id fromId toId content replyTo timestamp =>
      have away : id ≠ msgId := apart (.head _)
      simp [Frame.shownStep, Frame.brings, Frame.changes, away]
  | reactionUpdate id reactions =>
      have away : id ≠ msgId := apart (.head _)
      simp [Frame.shownStep, Frame.brings, Frame.changes, away]
  | edit id newBody editedAt =>
      have away : id ≠ msgId := apart (.head _)
      simp [Frame.shownStep, Frame.brings, Frame.changes, away]
  | «recall» id =>
      have away : id ≠ msgId := apart (.head _)
      simp [Frame.shownStep, Frame.brings, Frame.changes, away]
  | ack clientMsgId real => rfl
  | delivered id deliveredAt deliveredCount => rfl
  | readAck fromId lastMsgId => rfl

/-- Only the frames that name a message count for it. -/
theorem foldl_shownStep_filter :
    frames.foldl (Frame.shownStep userId now key msgId) shown =
      (frames.filter fun frame => msgId ∈ names frame).foldl (Frame.shownStep userId now key msgId) shown := by
  induction frames generalizing shown with
  | nil => rfl
  | cons frame frames ih =>
      rw [List.foldl_cons, List.filter_cons]
      split
      · rw [List.foldl_cons, ih]
      · rename_i other
        rw [shownStep_of_not_named (by simpa using other), ih]

/-- An edit that bears its time does not look at the clock of the page. -/
def Dated (msgId : String) (frame : Frame) : Prop := ∀ newBody editedAt, frame = .edit msgId newBody editedAt → editedAt ≠ 0

theorem shownStep_of_dated (dated : Dated msgId frame) :
    frame.shownStep userId now key msgId shown = frame.shownStep userId 0 key msgId shown := by
  cases frame with
  | edit id newBody editedAt =>
      by_cases same : id = msgId
      · rw [same] at dated ⊢
        have given := dated newBody editedAt rfl
        simp [Frame.shownStep, Frame.brings, Frame.changes, given]
      · simp [Frame.shownStep, Frame.brings, Frame.changes, same]
  | msg id fromId toId content replyTo timestamp => rfl
  | groupMsg id fromId toId content replyTo timestamp mention mentions => rfl
  | fileMsg id fromId toId groupId filename url fileSize timestamp => rfl
  | ack clientMsgId real => rfl
  | delivered id deliveredAt deliveredCount => rfl
  | reactionUpdate id reactions => rfl
  | «recall» id => rfl
  | readAck fromId lastMsgId => rfl

/-! ## The invariant -/

structure Tracks (state : State) : Prop where
  snow : ∀ msgId ∈ state.rows, isSnow msgId = true
  others : ∀ msgId ∈ state.rows, msgId ∉ state.own
  known : ∀ frame ∈ state.queue ++ state.unsent, ∀ msgId ∈ names frame, msgId ∈ state.rows ∨ msgId ∈ state.own
  acks : ∀ tmpId realId, .ack tmpId realId ∈ state.queue ++ state.unsent → tmpId ∈ state.own ∧ realId ∈ state.own
  dated : ∀ frame ∈ state.queue ++ state.unsent, ∀ msgId ∈ state.rows, Dated msgId frame
  hidden : ∀ msgId, isSnow msgId = true → msgId ∉ state.rows → msgId ∉ state.own →
    ∀ key, state.client.view key msgId = none
  follows : ∀ msgId row, state.rows.lookup msgId = some row →
    ∃ shown, drained state row.key msgId = some shown ∧ Agrees state.stale msgId row shown

theorem Tracks.spares (tracks : Tracks state) (among : frame ∈ state.queue ++ state.unsent)
    (other : msgId ∉ state.own) : frame.Spares msgId := by
  cases frame with
  | ack tmpId realId =>
      obtain ⟨tmp, real⟩ := tracks.acks tmpId realId among
      exact ⟨fun same => other (same ▸ tmp), fun same => other (same ▸ real)⟩
  | _ => trivial

/-! ## The handlers -/

theorem mem_append_unsent {queue unsent made : List Frame} {other : Frame} :
    other ∈ queue ++ (unsent ++ made) ↔ other ∈ queue ++ unsent ∨ other ∈ made := by
  rw [← List.append_assoc, List.mem_append]

/-- A handler writes to one row, and makes the frames that say so. -/
theorem Tracks.write (tracks : Tracks state) {rows : Table String Row} {stale : List String} {made : List Frame}
    {changed : Row} (found : state.rows.lookup msgId = some row) (written : rows.lookup msgId = some changed)
    (sameKey : changed.key = row.key)
    (kept : ∀ other ≠ msgId, rows.lookup other = state.rows.lookup other ∧ (other ∈ state.stale → other ∈ stale))
    (named : ∀ frame ∈ made, names frame = [msgId] ∧ Dated msgId frame)
    (shows : ∀ shown, Agrees state.stale msgId row shown →
      ∃ after, made.foldl (Frame.shownStep state.client.userId 0 row.key msgId) (some shown) = some after ∧
        Agrees stale msgId changed after) :
    Tracks { state with rows, stale, unsent := state.unsent ++ made } := by
  have present : msgId ∈ state.rows := AList.lookup_isSome.mp (by rw [found]; rfl)
  have members (other : String) : other ∈ rows ↔ other ∈ state.rows := by
    by_cases same : other = msgId
    · rw [same]
      exact ⟨fun _ => present, fun _ => AList.lookup_isSome.mp (by rw [written]; rfl)⟩
    · rw [← AList.lookup_isSome, ← AList.lookup_isSome, (kept other same).1]
  refine ⟨fun other member => tracks.snow other ((members other).mp member),
    fun other member => tracks.others other ((members other).mp member), ?_, ?_, ?_, ?_, ?_⟩
  · intro other member id namedBy
    obtain before | new := mem_append_unsent.mp member
    · exact (tracks.known other before id namedBy).imp_left (members id).mpr
    · rw [(named other new).1, List.mem_singleton] at namedBy
      exact .inl ((members id).mpr (namedBy ▸ present))
  · intro tmpId realId member
    obtain before | new := mem_append_unsent.mp member
    · exact tracks.acks tmpId realId before
    · have short := congrArg List.length (named _ new).1
      simp [names] at short
  · intro other member id held
    obtain before | new := mem_append_unsent.mp member
    · exact tracks.dated other before id ((members id).mp held)
    · obtain ⟨onlyThis, dated⟩ := named other new
      by_cases same : id = msgId
      · rw [same]
        exact dated
      · intro newBody editedAt isEdit
        rw [isEdit] at onlyThis
        exact absurd (List.singleton_inj.mp onlyThis) same
  · intro other snow absent foreign
    exact tracks.hidden other snow (fun member => absent ((members other).mpr member)) foreign
  · intro other otherRow held
    by_cases same : other = msgId
    · rw [same] at held ⊢
      obtain rfl := Option.some.inj (written.symm.trans held)
      obtain ⟨shown, drains, agrees⟩ := tracks.follows msgId row found
      obtain ⟨after, taken, agreesAfter⟩ := shows shown agrees
      refine ⟨after, ?_, agreesAfter⟩
      rw [drained, ← List.append_assoc, List.foldl_append]
      rw [drained, ← sameKey] at drains
      rw [drains, sameKey]
      exact taken
    · obtain ⟨sameRow, staleAfter⟩ := kept other same
      obtain ⟨shown, drains, agrees⟩ := tracks.follows other otherRow (sameRow ▸ held)
      refine ⟨shown, ?_, { agrees with reactions := fun fresh => agrees.reactions fun before => fresh (staleAfter before) }⟩
      have silent : made.filter (fun frame => other ∈ names frame) = [] := by
        rw [List.filter_eq_nil_iff]
        intro frame member namedBy
        rw [(named frame member).1, decide_eq_true_eq, List.mem_singleton] at namedBy
        exact same namedBy
      rw [drained, foldl_shownStep_filter] at drains ⊢
      rw [← List.append_assoc, List.filter_append, silent, List.append_nil]
      exact drains

/-- A write of the row itself, with its frame. -/
theorem Tracks.insert (tracks : Tracks state) {changed : Row} (found : state.rows.lookup msgId = some row)
    (sameKey : changed.key = row.key) (named : names frame = [msgId]) (dated : Dated msgId frame)
    (shows : ∀ shown, Agrees state.stale msgId row shown →
      ∃ after, frame.shownStep state.client.userId 0 row.key msgId (some shown) = some after ∧
        Agrees state.stale msgId changed after) :
    Tracks { state with rows := state.rows.insert msgId changed, unsent := state.unsent ++ [frame] } := by
  refine tracks.write found (AList.lookup_insert state.rows) sameKey
    (fun other different => ⟨AList.lookup_insert_ne different, id⟩) (fun other member => ?_) shows
  rw [List.mem_singleton.mp member]
  exact ⟨named, dated⟩

theorem Tracks.store (tracks : Tracks state) {content : String}
    (brings : frame.brings state.client.userId = some (key, msgId, { content })) (named : names frame = [msgId])
    (snow : isSnow msgId = true) (fresh : msgId ∉ state.rows) (foreign : msgId ∉ state.own) :
    Tracks { state with
      rows := state.rows.insert msgId { key, content }
      unsent := state.unsent ++ [frame] } := by
  have unnamed (other : Frame) (member : other ∈ state.queue ++ state.unsent) : msgId ∉ names other := by
    intro namedBy
    exact (tracks.known other member msgId namedBy).elim fresh foreign
  refine ⟨?_, ?_, ?_, ?_, ?_, ?_, ?_⟩
  · intro other member
    obtain same | before := (AList.mem_insert _).mp member
    · exact same ▸ snow
    · exact tracks.snow other before
  · intro other member
    obtain same | before := (AList.mem_insert _).mp member
    · exact same ▸ foreign
    · exact tracks.others other before
  · intro other member id namedBy
    obtain before | new := mem_append_unsent.mp member
    · exact (tracks.known other before id namedBy).imp_left fun held => (AList.mem_insert _).mpr (.inr held)
    · rw [List.mem_singleton.mp new, named, List.mem_singleton] at namedBy
      exact .inl ((AList.mem_insert _).mpr (.inl namedBy))
  · intro tmpId realId member
    obtain before | new := mem_append_unsent.mp member
    · exact tracks.acks tmpId realId before
    · rw [← List.mem_singleton.mp new] at brings
      cases brings
  · intro other member id held
    obtain before | new := mem_append_unsent.mp member
    · obtain same | old := (AList.mem_insert _).mp held
      · intro newBody editedAt isEdit
        rw [isEdit] at before
        exact absurd (by rw [same]; exact .head _) (unnamed _ before)
      · exact tracks.dated other before id old
    · intro newBody editedAt isEdit
      rw [← List.mem_singleton.mp new, isEdit] at brings
      cases brings
  · intro other otherSnow absent otherForeign
    exact tracks.hidden other otherSnow (fun held => absent ((AList.mem_insert _).mpr (.inr held))) otherForeign
  · intro other otherRow held
    have after : ∀ otherKey, drained { state with
        rows := state.rows.insert msgId { key, content }, unsent := state.unsent ++ [frame] } otherKey other =
        frame.shownStep state.client.userId 0 otherKey other (drained state otherKey other) := by
      intro otherKey
      rw [drained, ← List.append_assoc, List.foldl_append]
      rfl
    rw [after]
    rw [Table.lookup_insert_ite] at held
    split at held
    · rename_i same
      obtain rfl := Option.some.inj held
      rw [same]
      -- no frame under way names the new message, and nothing is shown of it
      have silent : (state.queue ++ state.unsent).filter (fun frame => msgId ∈ names frame) = [] := by
        rw [List.filter_eq_nil_iff]
        intro other member
        simpa using unnamed other member
      have nothing : drained state key msgId = none := by
        rw [drained, foldl_shownStep_filter, silent, List.foldl_nil]
        exact tracks.hidden msgId snow fresh foreign key
      dsimp only
      rw [nothing]
      refine ⟨{ content }, ?_, rfl, rfl, rfl, rfl, fun _ => rfl⟩
      simp [Frame.shownStep, brings]
    · rename_i different
      obtain ⟨shown, drains, agrees⟩ := tracks.follows other otherRow held
      have apart : other ∉ names frame := by rw [named, List.mem_singleton]; exact different
      rw [shownStep_of_not_named apart]
      exact ⟨shown, drains, agrees⟩

theorem Tracks.edit (tracks : Tracks state) {newBody : String} {pushedAt : ℤ}
    (found : state.rows.lookup msgId = some row) (current : row.recalled = false) (given : pushedAt ≠ 0) :
    Tracks { state with
      rows := state.rows.insert msgId { row with content := newBody, editedAt := some now }
      unsent := state.unsent ++ [.edit msgId newBody pushedAt] } := by
  have dated : Dated msgId (.edit msgId newBody pushedAt) := fun _ _ same => by cases same; exact given
  refine tracks.insert found rfl rfl dated fun shown agrees => ?_
  refine ⟨{ shown with content := newBody, editedAt := some pushedAt }, ?_, ?_, agrees.fileUrl, rfl, agrees.recalled,
    agrees.reactions⟩
  · simp [Frame.shownStep, Frame.brings, Frame.changes, given]
  · simp [current]

theorem Tracks.recall (tracks : Tracks state) (found : state.rows.lookup msgId = some row) :
    Tracks { state with
      rows := state.rows.insert msgId { row with recalled := true }
      unsent := state.unsent ++ [.recall msgId] } := by
  have dated : Dated msgId (.recall msgId) := fun _ _ same => by cases same
  refine tracks.insert found rfl rfl dated fun shown agrees => ?_
  refine ⟨{ shown with recalled := true, content := recalledText, fileUrl := none }, ?_, rfl, rfl, agrees.edited, rfl,
    agrees.reactions⟩
  simp [Frame.shownStep, Frame.brings, Frame.changes]

theorem Tracks.toggle (tracks : Tracks state) {reactions : Json} (found : state.rows.lookup msgId = some row) :
    Tracks { state with
      rows := state.rows.insert msgId { row with reactions }
      stale := msgId :: state.stale } := by
  have tracksAll := @Tracks.write state msgId row tracks (state.rows.insert msgId { row with reactions })
    (msgId :: state.stale) [] { row with reactions } found (AList.lookup_insert state.rows) rfl
    (fun other different => ⟨AList.lookup_insert_ne different, List.mem_cons_of_mem _⟩)
    (fun _ member => absurd member List.not_mem_nil)
    fun shown agrees => ⟨shown, rfl, { agrees with reactions := fun fresh => absurd (.head _) fresh }⟩
  rwa [List.append_nil] at tracksAll

theorem Tracks.readReactions (tracks : Tracks state) (other : Option Json)
    (found : state.rows.lookup msgId = some row) :
    Tracks { state with
      stale := if other.isSome then msgId :: state.stale else state.stale.filter (· ≠ msgId)
      unsent := state.unsent ++ [.reactionUpdate msgId (other.getD row.reactions)] } := by
  refine tracks.write found found rfl (fun id different => ⟨rfl, fun before => ?_⟩) (fun frame member => ?_)
    fun shown agrees => ?_
  · split
    · exact .tail _ before
    · simpa [different] using before
  · rw [List.mem_singleton.mp member]
    exact ⟨rfl, fun _ _ same => by cases same⟩
  · refine ⟨{ shown with reactions := some (other.getD row.reactions) }, ?_, { agrees with reactions := ?_ }⟩
    · simp [Frame.shownStep, Frame.brings, Frame.changes]
    · intro fresh
      cases other with
      | none => rfl
      | some seen => exact absurd (.head _) fresh

/-! ## The connection -/

/-- A state whose frames under way are the same for every message of others. -/
theorem Tracks.of_frames (tracks : Tracks state) {queue unsent : List Frame}
    (among : ∀ other ∈ queue ++ unsent, other ∈ state.queue ++ state.unsent)
    (same : ∀ msgId ∈ state.rows, (queue ++ unsent).filter (fun frame => msgId ∈ names frame) =
      (state.queue ++ state.unsent).filter fun frame => msgId ∈ names frame) :
    Tracks { state with queue, unsent } := by
  refine ⟨tracks.snow, tracks.others, fun other member => tracks.known other (among other member),
    fun tmpId realId member => tracks.acks tmpId realId (among _ member),
    fun other member => tracks.dated other (among other member), tracks.hidden, ?_⟩
  intro msgId row found
  have present : msgId ∈ state.rows := AList.lookup_isSome.mp (by rw [found]; rfl)
  obtain ⟨shown, drains, agrees⟩ := tracks.follows msgId row found
  refine ⟨shown, ?_, agrees⟩
  rw [drained, foldl_shownStep_filter] at drains ⊢
  rw [same msgId present]
  exact drains

theorem Tracks.push (tracks : Tracks state) {index : ℕ} (taken : state.unsent[index]? = some frame)
    (first : ∀ earlier ∈ state.unsent.take index, ∀ msgId ∈ names earlier, msgId ∉ names frame) :
    Tracks { state with queue := state.queue ++ [frame], unsent := state.unsent.eraseIdx index } := by
  have within : index < state.unsent.length := (List.getElem?_eq_some_iff.mp taken).1
  have whole : state.unsent = state.unsent.take index ++ frame :: state.unsent.drop (index + 1) := by
    have split := (List.take_append_drop index state.unsent).symm
    rw [List.drop_eq_getElem_cons within, (List.getElem?_eq_some_iff.mp taken).2] at split
    exact split
  have rest : state.unsent.eraseIdx index = state.unsent.take index ++ state.unsent.drop (index + 1) :=
    List.eraseIdx_eq_take_drop_succ _ _
  refine tracks.of_frames (fun other member => ?_) fun msgId _ => ?_
  · rw [rest, List.append_assoc, List.singleton_append] at member
    rw [whole]
    simp only [List.mem_append, List.mem_cons] at member ⊢
    obtain queued | this | before | behind := member
    · exact .inl queued
    · exact .inr (.inr (.inl this))
    · exact .inr (.inl before)
    · exact .inr (.inr (.inr behind))
  · rw [rest]
    conv_rhs => rw [whole]
    simp only [List.filter_append, List.filter_cons, List.append_assoc, List.filter_nil]
    by_cases named : msgId ∈ names frame
    · -- nothing that was made before it names the message
      have none_before : (state.unsent.take index).filter (fun frame => msgId ∈ names frame) = [] := by
        rw [List.filter_eq_nil_iff]
        intro earlier member namedBy
        exact first earlier member msgId (of_decide_eq_true namedBy) named
      simp only [named, decide_true, if_true, none_before, List.nil_append]
      rfl
    · simp only [named, decide_false, Bool.false_eq_true, if_false, List.nil_append]

theorem Tracks.foreign (tracks : Tracks state) (away : ∀ msgId ∈ names frame, msgId ∉ state.rows) :
    Tracks { state with queue := state.queue ++ [frame], own := names frame ++ state.own } := by
  have among {other : Frame} (member : other ∈ (state.queue ++ [frame]) ++ state.unsent) :
      other ∈ state.queue ++ state.unsent ∨ other = frame := by
    simp only [List.mem_append, List.mem_singleton] at member ⊢
    obtain (queued | this) | unsent := member
    · exact .inl (.inl queued)
    · exact .inr this
    · exact .inl (.inr unsent)
  refine ⟨tracks.snow, ?_, ?_, ?_, ?_, ?_, ?_⟩
  · intro msgId held listed
    obtain named | before := List.mem_append.mp listed
    · exact away msgId named held
    · exact tracks.others msgId held before
  · intro other member msgId named
    obtain before | this := among member
    · exact (tracks.known other before msgId named).imp_right fun own => List.mem_append_right _ own
    · exact .inr (List.mem_append_left _ (this ▸ named))
  · intro tmpId realId member
    obtain before | this := among member
    · obtain ⟨tmp, real⟩ := tracks.acks tmpId realId before
      exact ⟨List.mem_append_right _ tmp, List.mem_append_right _ real⟩
    · rw [← this]
      exact ⟨List.mem_append_left _ (.head _), List.mem_append_left _ (.tail _ (.head _))⟩
  · intro other member msgId held
    obtain before | this := among member
    · exact tracks.dated other before msgId held
    · intro newBody editedAt isEdit
      rw [this] at isEdit
      exact absurd held (away msgId (by rw [isEdit]; exact .head _))
  · intro msgId snow absent notOwn
    exact tracks.hidden msgId snow absent fun own => notOwn (List.mem_append_right _ own)
  · intro msgId row found
    have present : msgId ∈ state.rows := AList.lookup_isSome.mp (by rw [found]; rfl)
    obtain ⟨shown, drains, agrees⟩ := tracks.follows msgId row found
    refine ⟨shown, ?_, agrees⟩
    have unnamed : msgId ∉ names frame := fun named => away msgId named present
    rw [drained, foldl_shownStep_filter] at drains ⊢
    simpa only [List.filter_append, List.filter_cons, List.filter_nil, unnamed, decide_false, Bool.false_eq_true,
      if_false, List.append_nil] using drains

theorem Tracks.send (tracks : Tracks state) {chat : Key} {timestamp : ℤ} {body : Body} (away : msgId ∉ state.rows) :
    Tracks { state with client := state.client.send chat msgId timestamp body, own := msgId :: state.own } := by
  have views (other : String) (snow : isSnow other = true) (different : msgId ≠ other) (key : Key) :
      (state.client.send chat msgId timestamp body).view key other = state.client.view key other := by
    rw [Client.send, view_insert snow, if_neg (fun both => different both.2)]
  refine ⟨tracks.snow, ?_, ?_, ?_, tracks.dated, ?_, ?_⟩
  · intro other held listed
    obtain same | before := List.mem_cons.mp listed
    · exact away (same ▸ held)
    · exact tracks.others other held before
  · intro frame member other named
    exact (tracks.known frame member other named).imp_right fun own => .tail _ own
  · intro tmpId realId member
    obtain ⟨tmp, real⟩ := tracks.acks tmpId realId member
    exact ⟨.tail _ tmp, .tail _ real⟩
  · intro other snow absent notOwn key
    have different : msgId ≠ other := fun same => notOwn (same ▸ .head _)
    rw [views other snow different]
    exact tracks.hidden other snow absent (fun own => notOwn (.tail _ own)) key
  · intro other row found
    have present : other ∈ state.rows := AList.lookup_isSome.mp (by rw [found]; rfl)
    have different : msgId ≠ other := fun same => away (same ▸ present)
    obtain ⟨shown, drains, agrees⟩ := tracks.follows other row found
    refine ⟨shown, ?_, agrees⟩
    rw [drained] at drains ⊢
    rw [views other (tracks.snow other present) different]
    exact drains

theorem Tracks.receive (tracks : Tracks state) {queue : List Frame} (now : ℤ) (pending : state.queue = frame :: queue) :
    Tracks { state with queue, client := state.client.handle now frame } := by
  have first : frame ∈ state.queue ++ state.unsent := by rw [pending]; exact .head _
  have among (other : Frame) (member : other ∈ queue ++ state.unsent) : other ∈ state.queue ++ state.unsent := by
    rw [pending]
    exact .tail _ member
  refine ⟨tracks.snow, tracks.others, fun other member => tracks.known other (among other member),
    fun tmpId realId member => tracks.acks tmpId realId (among _ member),
    fun other member => tracks.dated other (among other member), ?_, ?_⟩
  · intro msgId snow absent notOwn key
    have unnamed : msgId ∉ names frame := fun named => (tracks.known frame first msgId named).elim absent notOwn
    rw [view_handle snow (tracks.spares first notOwn), shownStep_of_not_named unnamed]
    exact tracks.hidden msgId snow absent notOwn key
  · intro msgId row found
    have present : msgId ∈ state.rows := AList.lookup_isSome.mp (by rw [found]; rfl)
    obtain ⟨shown, drains, agrees⟩ := tracks.follows msgId row found
    refine ⟨shown, ?_, agrees⟩
    rw [drained, pending, List.cons_append, List.foldl_cons] at drains
    rw [drained, userId_handle, view_handle (tracks.snow msgId present)
      (tracks.spares first (tracks.others msgId present)), shownStep_of_dated (tracks.dated frame first msgId present)]
    exact drains

/-! ## Runs -/

end MuduoIm.Web.Convergence
