import MuduoIm.Server.ClientAck

namespace MuduoIm.Server.ClientAck

open MuduoIm.Data MuduoIm.Transition MuduoIm.Server.FriendService

/-! # A private message is reported delivered once

`delivered_at` is set by the acknowledgement that finds it NULL, and only this
one goes on to report.
-/

variable {Call : Type} [DecidableEq Call] {frameOf : Call → Frame} {start state next : State Call}
variable {call other : Call} {phase : Phase} {event : Event Call} {msgId : String} {message : Message}

/-- The write sets `delivered_at` of the message. -/
def Write.marks (frameOf : Call → Frame) (msgId : String) : Write Call → Bool
  | .deliveredAt call _ => (frameOf call).msgId = msgId
  | .deliveredCount _ => false

/-- The write adds to `delivered_count` of the message. -/
def Write.counts (frameOf : Call → Frame) (msgId : String) : Write Call → Bool
  | .deliveredAt _ _ => false
  | .deliveredCount call => (frameOf call).msgId = msgId

def State.marks (frameOf : Call → Frame) (state : State Call) (msgId : String) : List (Write Call) :=
  state.writes.filter (Write.marks frameOf msgId)

def State.counts (frameOf : Call → Frame) (state : State Call) (msgId : String) : List (Write Call) :=
  state.writes.filter (Write.counts frameOf msgId)

def State.deliveredAt (state : State Call) (msgId : String) : Option Int :=
  match state.messages.lookup msgId with
  | some (.privateMessage row) => row.deliveredAt
  | _ => none

def State.deliveredCount (state : State Call) (msgId : String) : Int :=
  match state.messages.lookup msgId with
  | some (.groupMessage row) => row.deliveredCount
  | _ => 0

/-- How the writes account for a message since the start. -/
structure Written (frameOf : Call → Frame) (start state : State Call) (msgId : String) : Prop where
  absent : state.messages.lookup msgId = none →
    start.messages.lookup msgId = none ∧ state.marks frameOf msgId = [] ∧ state.counts frameOf msgId = []
  privately : ∀ row, state.messages.lookup msgId = some (.privateMessage row) → state.counts frameOf msgId = [] ∧
    ((state.marks frameOf msgId = [] ∧ row.deliveredAt = start.deliveredAt msgId) ∨
      ∃ call value, start.deliveredAt msgId = none ∧ state.marks frameOf msgId = [.deliveredAt call value] ∧
        row.deliveredAt = some value ∧ row.toUser = (frameOf call).ackerId)
  grouped : ∀ row, state.messages.lookup msgId = some (.groupMessage row) → state.marks frameOf msgId = [] ∧
    row.deliveredCount = start.deliveredCount msgId + (state.counts frameOf msgId).length

/-- The call may report to the user: to the sender of a private message once
it has marked it, or about a group message. -/
def MayReport (frameOf : Call → Frame) (state : State Call) (call : Call) (toUser deliveredAt : Int) : Prop :=
  (∃ row, state.message frameOf call = some (.privateMessage row) ∧ toUser = row.fromUser ∧
    .deliveredAt call deliveredAt ∈ state.writes) ∨
  ∃ row, state.message frameOf call = some (.groupMessage row)

/-- What a call knows by the point that it has reached. -/
def Justified (frameOf : Call → Frame) (state : State Call) (call : Call) : Phase → Prop
  | .updated deliveredAt => .deliveredAt call deliveredAt ∈ state.writes
  | .released fromUser deliveredAt _ => fromUser ≤ 0 ∨ MayReport frameOf state call fromUser deliveredAt
  | _ => True

structure Sound (frameOf : Call → Frame) (start state : State Call) : Prop where
  written : ∀ msgId, Written frameOf start state msgId
  justified : ∀ call, Justified frameOf state call (state.calls call)
  pushed : ∀ push ∈ state.pushes, state.calls push.call = .finished ∧ push.msgId = (frameOf push.call).msgId ∧
    push.toUser ≠ (frameOf push.call).ackerId ∧ MayReport frameOf state push.call push.toUser push.deliveredAt
  nodup : (state.pushes.map (·.call)).Nodup

/-! ## What a step does -/

theorem goto_self : (state.goto call phase).calls call = phase := Function.update_self _ _ _

theorem goto_of_ne (different : other ≠ call) : (state.goto call phase).calls other = state.calls other :=
  Function.update_of_ne different _ _

/-- The row that an INSERT adds. -/
def Message.New (message : Message) : Prop :=
  (∃ fromUser toUser, message = .privateMessage { fromUser, toUser }) ∨ ∃ fromUser, message = .groupMessage { fromUser }

/-- What a step can do: a new message, a call that goes on, one that writes a
row, or a push. -/
inductive Change (frameOf : Call → Frame) (state : State Call) : State Call → Prop where
  | inserted (msgId : String) (message : Message) (absent : state.messages.lookup msgId = none) (new : message.New) :
      Change frameOf state { state with messages := state.messages.insert msgId message }
  | went (call : Call) (phase : Phase) (running : state.calls call ≠ .finished)
      (known : Justified frameOf state call (state.calls call) → Justified frameOf state call phase) :
      Change frameOf state (state.goto call phase)
  | marked (call : Call) (row : PrivateRow) (deliveredAt : Int) (phase : Phase) (running : state.calls call ≠ .finished)
      (found : state.message frameOf call = some (.privateMessage row))
      (addressed : row.toUser = (frameOf call).ackerId)
      (unset : row.deliveredAt = none) (reached : phase = .updated deliveredAt ∨ phase = .passed deliveredAt) :
      Change frameOf state ((state.write frameOf call (.privateMessage { row with deliveredAt := some deliveredAt })
        (.deliveredAt call deliveredAt)).goto call phase)
  | counted (call : Call) (row : GroupRow) (deliveredAt : Int) (phase : Phase) (running : state.calls call ≠ .finished)
      (found : state.message frameOf call = some (.groupMessage row))
      (reached : phase = .counted deliveredAt ∨ phase = .released 0 deliveredAt 1) :
      Change frameOf state ((state.write frameOf call
        (.groupMessage { row with deliveredCount := row.deliveredCount + 1 }) (.deliveredCount call)).goto call phase)
  | pushed (call : Call) (fromUser deliveredAt deliveredCount : Int)
      (released : state.calls call = .released fromUser deliveredAt deliveredCount) (positive : 0 < fromUser)
      (another : fromUser ≠ (frameOf call).ackerId) :
      Change frameOf state { state.goto call .finished with
        pushes := state.pushes ++ [⟨call, fromUser, (frameOf call).msgId, deliveredAt, deliveredCount⟩] }

theorem change_of_step (stepped : step frameOf state event = some next) : Change frameOf state next := by
  have goes {call : Call} {before phase : Phase} (here : state.calls call = before) (running : before ≠ .finished)
      (known : Justified frameOf state call before → Justified frameOf state call phase) :
      Change frameOf state (state.goto call phase) :=
    .went call phase (here ▸ running) (here ▸ known)
  cases event with
  | insertPrivate msgId fromUser toUser =>
      simp only [step] at stepped
      split at stepped
      · cases stepped
      · rename_i absent
        cases stepped
        exact .inserted _ _ (Option.not_isSome_iff_eq_none.mp absent) (.inl ⟨fromUser, toUser, rfl⟩)
  | insertGroup msgId fromUser =>
      simp only [step] at stepped
      split at stepped
      · cases stepped
      · rename_i absent
        cases stepped
        exact .inserted _ _ (Option.not_isSome_iff_eq_none.mp absent) (.inr ⟨fromUser, rfl⟩)
  | handleClientAck call connected now =>
      simp only [step] at stepped
      split at stepped
      · rename_i idle
        split at stepped <;> cases stepped <;> exact goes idle nofun fun _ => trivial
      · cases stepped
  | updatePrivate call answer =>
      simp only [step] at stepped
      split at stepped
      · rename_i deliveredAt acquired
        split at stepped
        · rename_i row found
          split at stepped
          · rename_i affects
            cases stepped
            refine .marked call row deliveredAt _ (by rw [acquired]; nofun) found affects.2.1 affects.2.2 ?_
            split
            · exact .inl rfl
            · exact .inr rfl
          · cases stepped
            exact goes acquired nofun fun _ => trivial
        · cases stepped
          exact goes acquired nofun fun _ => trivial
      · cases stepped
  | selectPrivate call answered =>
      simp only [step] at stepped
      split at stepped
      · rename_i deliveredAt updated
        split at stepped
        · rename_i row found
          cases stepped
          refine goes updated nofun fun wrote => ?_
          cases answered with
          | true => exact .inr (.inl ⟨row, found, rfl, wrote⟩)
          | false => exact .inl (Int.le_refl 0)
        · cases stepped
          exact goes updated nofun fun _ => .inl (Int.le_refl 0)
      · cases stepped
  | updateGroup call answer =>
      simp only [step] at stepped
      split at stepped
      · rename_i deliveredAt passed
        split at stepped
        · rename_i row found
          split at stepped
          · cases stepped
            refine .counted call row deliveredAt _ (by rw [passed]; nofun) found ?_
            split
            · exact .inl rfl
            · exact .inr rfl
          · cases stepped
            exact goes passed nofun fun _ => .inl (Int.le_refl 0)
        · cases stepped
          exact goes passed nofun fun _ => .inl (Int.le_refl 0)
      · cases stepped
  | selectGroup call answered =>
      simp only [step] at stepped
      split at stepped
      · rename_i deliveredAt counted
        split at stepped
        · rename_i row found
          split at stepped
          · cases stepped
            exact goes counted nofun fun _ => .inr (.inr ⟨row, found⟩)
          · cases stepped
            exact goes counted nofun fun _ => .inl (Int.le_refl 0)
        · cases stepped
          exact goes counted nofun fun _ => .inl (Int.le_refl 0)
      · cases stepped
  | push call =>
      simp only [step] at stepped
      split at stepped
      · rename_i fromUser deliveredAt deliveredCount released
        split at stepped
        · cases stepped
          exact goes released nofun fun _ => trivial
        · rename_i reports
          cases stepped
          obtain ⟨positive, another⟩ := not_or.mp reports
          exact .pushed call fromUser deliveredAt deliveredCount released (Int.not_le.mp positive) another
      · cases stepped

/-! ## The writes to a message -/

section

omit [DecidableEq Call]

theorem message_write_self (message : Message) (write : Write Call) :
    (state.write frameOf call message write).message frameOf call = some message :=
  AList.lookup_insert _

theorem lookup_write_of_ne (message : Message) (write : Write Call) (different : msgId ≠ (frameOf call).msgId) :
    (state.write frameOf call message write).messages.lookup msgId = state.messages.lookup msgId :=
  AList.lookup_insert_ne different

theorem marks_write {write : Write Call} : (state.write frameOf call message write).marks frameOf msgId =
    state.marks frameOf msgId ++ [write].filter (Write.marks frameOf msgId) :=
  List.filter_append _ _

theorem counts_write {write : Write Call} : (state.write frameOf call message write).counts frameOf msgId =
    state.counts frameOf msgId ++ [write].filter (Write.counts frameOf msgId) :=
  List.filter_append _ _

theorem Written.of_same (written : Written frameOf start state msgId)
    (messages : next.messages.lookup msgId = state.messages.lookup msgId)
    (marks : next.marks frameOf msgId = state.marks frameOf msgId)
    (counts : next.counts frameOf msgId = state.counts frameOf msgId) : Written frameOf start next msgId := by
  constructor
  · rw [messages, marks, counts]
    exact written.absent
  · rw [messages, marks, counts]
    exact written.privately
  · rw [messages, marks, counts]
    exact written.grouped

theorem Written.inserted (written : Written frameOf start state msgId) (absent : state.messages.lookup msgId = none)
    (new : message.New) (messages : next.messages.lookup msgId = some message) (writes : next.writes = state.writes) :
    Written frameOf start next msgId := by
  obtain ⟨unborn, unmarked, uncounted⟩ := written.absent absent
  have marks : next.marks frameOf msgId = [] := by
    rw [State.marks, writes]
    exact unmarked
  have counts : next.counts frameOf msgId = [] := by
    rw [State.counts, writes]
    exact uncounted
  constructor
  · intro missing
    rw [messages] at missing
    cases missing
  · intro row here
    rw [messages] at here
    obtain ⟨fromUser, toUser, rfl⟩ | ⟨fromUser, rfl⟩ := new
    · cases here
      refine ⟨counts, .inl ⟨marks, ?_⟩⟩
      rw [State.deliveredAt, unborn]
    · cases here
  · intro row here
    rw [messages] at here
    obtain ⟨fromUser, toUser, rfl⟩ | ⟨fromUser, rfl⟩ := new
    · cases here
    · cases here
      refine ⟨marks, ?_⟩
      rw [counts, State.deliveredCount, unborn]
      rfl

theorem Written.marked {row : PrivateRow} {deliveredAt : Int} (written : ∀ msgId, Written frameOf start state msgId)
    (found : state.message frameOf call = some (.privateMessage row)) (addressed : row.toUser = (frameOf call).ackerId)
    (unset : row.deliveredAt = none) (msgId : String) :
    Written frameOf start (state.write frameOf call (.privateMessage { row with deliveredAt := some deliveredAt })
      (.deliveredAt call deliveredAt)) msgId := by
  by_cases same : msgId = (frameOf call).msgId
  · subst same
    obtain ⟨uncounted, ⟨unmarked, kept⟩ | ⟨_, value, _, _, set, _⟩⟩ :=
      (written (frameOf call).msgId).privately row found
    · have messages := @message_write_self _ frameOf state call
        (.privateMessage { row with deliveredAt := some deliveredAt }) (.deliveredAt call deliveredAt)
      constructor
      · intro missing
        cases messages.symm.trans missing
      · intro other here
        cases messages.symm.trans here
        rw [counts_write, uncounted, marks_write, unmarked]
        refine ⟨rfl, .inr ⟨call, deliveredAt, kept.symm.trans unset, ?_, rfl, addressed⟩⟩
        simp only [List.nil_append, List.filter_singleton, Write.marks, decide_true, cond_true]
      · intro other here
        cases messages.symm.trans here
    · rw [unset] at set
      cases set
  · refine (written msgId).of_same (lookup_write_of_ne _ _ same) ?_ ?_
    · rw [marks_write]
      simp only [List.filter_singleton, Write.marks, Ne.symm same, decide_false, cond_false, List.append_nil]
    · rw [counts_write]
      exact List.append_nil _

theorem Written.counted {row : GroupRow} (written : ∀ msgId, Written frameOf start state msgId)
    (found : state.message frameOf call = some (.groupMessage row)) (msgId : String) :
    Written frameOf start (state.write frameOf call
      (.groupMessage { row with deliveredCount := row.deliveredCount + 1 }) (.deliveredCount call)) msgId := by
  by_cases same : msgId = (frameOf call).msgId
  · subst same
    obtain ⟨unmarked, counted⟩ := (written (frameOf call).msgId).grouped row found
    have messages := @message_write_self _ frameOf state call
      (.groupMessage { row with deliveredCount := row.deliveredCount + 1 }) (.deliveredCount call)
    constructor
    · intro missing
      cases messages.symm.trans missing
    · intro other here
      cases messages.symm.trans here
    · intro other here
      cases messages.symm.trans here
      rw [counts_write, marks_write, unmarked]
      refine ⟨rfl, ?_⟩
      simp only [counted, List.filter_singleton, Write.counts, decide_true, cond_true, List.length_append,
        List.length_singleton]
      omega
  · refine (written msgId).of_same (lookup_write_of_ne _ _ same) ?_ ?_
    · rw [marks_write]
      exact List.append_nil _
    · rw [counts_write]
      simp only [List.filter_singleton, Write.counts, Ne.symm same, decide_false, cond_false, List.append_nil]

end

theorem Sound.written_change (sound : Sound frameOf start state) (change : Change frameOf state next) (msgId : String) :
    Written frameOf start next msgId := by
  cases change with
  | inserted inserted message absent new =>
      by_cases same : msgId = inserted
      · subst same
        exact (sound.written msgId).inserted absent new (AList.lookup_insert _) rfl
      · exact (sound.written msgId).of_same (AList.lookup_insert_ne same) rfl rfl
  | went call phase running known => exact (sound.written msgId).of_same rfl rfl rfl
  | marked call row deliveredAt phase running found addressed unset reached =>
      exact (Written.marked sound.written found addressed unset msgId).of_same rfl rfl rfl
  | counted call row deliveredAt phase running found reached =>
      exact (Written.counted sound.written found msgId).of_same rfl rfl rfl
  | pushed call fromUser deliveredAt deliveredCount released positive another =>
      exact (sound.written msgId).of_same rfl rfl rfl

/-! ## The calls -/

theorem Change.privateRow {row : PrivateRow} (change : Change frameOf state next)
    (found : state.messages.lookup msgId = some (.privateMessage row)) :
    ∃ later, next.messages.lookup msgId = some (.privateMessage later) ∧ later.fromUser = row.fromUser := by
  cases change with
  | inserted inserted message absent new =>
      have different : msgId ≠ inserted := by
        rintro rfl
        cases absent.symm.trans found
      exact ⟨row, (AList.lookup_insert_ne different).trans found, rfl⟩
  | went call phase running known => exact ⟨row, found, rfl⟩
  | marked call other deliveredAt phase running here addressed unset reached =>
      by_cases same : msgId = (frameOf call).msgId
      · subst same
        cases here.symm.trans found
        exact ⟨_, message_write_self _ (.deliveredAt call deliveredAt), rfl⟩
      · exact ⟨row, (lookup_write_of_ne _ (.deliveredAt call deliveredAt) same).trans found, rfl⟩
  | counted call other deliveredAt phase running here reached =>
      have different : msgId ≠ (frameOf call).msgId := by
        rintro rfl
        cases here.symm.trans found
      exact ⟨row, (lookup_write_of_ne _ (.deliveredCount call) different).trans found, rfl⟩
  | pushed call fromUser deliveredAt deliveredCount released positive another => exact ⟨row, found, rfl⟩

theorem Change.groupRow {row : GroupRow} (change : Change frameOf state next)
    (found : state.messages.lookup msgId = some (.groupMessage row)) :
    ∃ later, next.messages.lookup msgId = some (.groupMessage later) := by
  cases change with
  | inserted inserted message absent new =>
      have different : msgId ≠ inserted := by
        rintro rfl
        cases absent.symm.trans found
      exact ⟨row, (AList.lookup_insert_ne different).trans found⟩
  | went call phase running known => exact ⟨row, found⟩
  | marked call other deliveredAt phase running here addressed unset reached =>
      have different : msgId ≠ (frameOf call).msgId := by
        rintro rfl
        cases here.symm.trans found
      exact ⟨row, (lookup_write_of_ne _ (.deliveredAt call deliveredAt) different).trans found⟩
  | counted call other deliveredAt phase running here reached =>
      by_cases same : msgId = (frameOf call).msgId
      · subst same
        exact ⟨_, message_write_self _ (.deliveredCount call)⟩
      · exact ⟨row, (lookup_write_of_ne _ (.deliveredCount call) same).trans found⟩
  | pushed call fromUser deliveredAt deliveredCount released positive another => exact ⟨row, found⟩

theorem Change.writes {write : Write Call} (change : Change frameOf state next) (member : write ∈ state.writes) :
    write ∈ next.writes := by
  cases change with
  | marked => exact List.mem_append_left _ member
  | counted => exact List.mem_append_left _ member
  | _ => exact member

theorem Change.calls (change : Change frameOf state next) (done : state.calls call = .finished) :
    next.calls call = .finished := by
  have kept {mover : Call} {phase : Phase} {base : State Call} (same : base.calls = state.calls)
      (running : state.calls mover ≠ .finished) : (base.goto mover phase).calls call = .finished := by
    have different : call ≠ mover := by
      rintro rfl
      exact running done
    rw [goto_of_ne different, same]
    exact done
  cases change with
  | inserted => exact done
  | went mover phase running known => exact kept rfl running
  | marked mover row deliveredAt phase running found addressed unset reached => exact kept rfl running
  | counted mover row deliveredAt phase running found reached => exact kept rfl running
  | pushed mover fromUser deliveredAt deliveredCount released positive another =>
      exact @kept mover .finished state rfl (by rw [released]; nofun)

theorem MayReport.change {toUser deliveredAt : Int} (may : MayReport frameOf state call toUser deliveredAt)
    (change : Change frameOf state next) : MayReport frameOf next call toUser deliveredAt := by
  obtain ⟨row, found, sender, wrote⟩ | ⟨row, found⟩ := may
  · obtain ⟨later, still, same⟩ := change.privateRow found
    exact .inl ⟨later, still, sender.trans same.symm, change.writes wrote⟩
  · obtain ⟨later, still⟩ := change.groupRow found
    exact .inr ⟨later, still⟩

theorem Justified.change (justified : Justified frameOf state call phase) (change : Change frameOf state next) :
    Justified frameOf next call phase := by
  cases phase with
  | updated deliveredAt => exact change.writes justified
  | released fromUser deliveredAt deliveredCount => exact justified.imp_right fun may => may.change change
  | _ => trivial

theorem Sound.justified_change (sound : Sound frameOf start state) (change : Change frameOf state next) (call : Call) :
    Justified frameOf next call (next.calls call) := by
  have moved {mover : Call} {phase : Phase} (reached : Justified frameOf next mover phase) :
      Justified frameOf next call (Function.update state.calls mover phase call) :=
    (Function.forall_update_iff state.calls (Justified frameOf next)).mpr
      ⟨reached, fun other _ => (sound.justified other).change change⟩ call
  have changed := change
  cases changed with
  | inserted => exact (sound.justified call).change change
  | went mover phase running known => exact moved ((known (sound.justified mover)).change change)
  | marked mover row deliveredAt phase running found addressed unset reached =>
      apply moved
      rcases reached with rfl | rfl
      · exact List.mem_append_right _ (List.mem_singleton_self _)
      · trivial
  | counted mover row deliveredAt phase running found reached =>
      apply moved
      rcases reached with rfl | rfl
      · trivial
      · exact .inl (Int.le_refl 0)
  | pushed mover fromUser deliveredAt deliveredCount released positive another => exact moved trivial

theorem Sound.change (sound : Sound frameOf start state) (change : Change frameOf state next) :
    Sound frameOf start next := by
  have earlier : ∀ push ∈ state.pushes, next.calls push.call = .finished ∧ push.msgId = (frameOf push.call).msgId ∧
      push.toUser ≠ (frameOf push.call).ackerId ∧
        MayReport frameOf next push.call push.toUser push.deliveredAt := by
    intro push member
    obtain ⟨done, about, another, may⟩ := sound.pushed push member
    exact ⟨change.calls done, about, another, may.change change⟩
  have written := sound.written_change change
  have justified := sound.justified_change change
  have changed := change
  cases changed with
  | pushed call fromUser deliveredAt deliveredCount released positive another =>
      refine ⟨written, justified, fun push member => ?_, ?_⟩
      · rcases List.mem_append.mp member with member | member
        · exact earlier push member
        · cases List.mem_singleton.mp member
          have known := sound.justified call
          rw [released] at known
          refine ⟨goto_self, rfl, another, ?_⟩
          exact (known.resolve_left (Int.not_le.mpr positive)).change change
      · rw [List.map_append]
        refine List.nodup_append.mpr ⟨sound.nodup, List.nodup_singleton call, fun other member last inLast => ?_⟩
        obtain ⟨push, listed, rfl⟩ := List.mem_map.mp member
        cases List.mem_singleton.mp inLast
        rintro same
        have done := (sound.pushed push listed).1
        rw [same, released] at done
        cases done
  | _ => exact ⟨written, justified, earlier, sound.nodup⟩

/-! ## Whole runs -/

/-- A private message is reported at most once, by its recipient and to its
sender; its `delivered_at` is written at most once, when it is NULL; and the
counts of the group messages are those of their own acknowledgements. -/
structure ReportedOnce (frameOf : Call → Frame) (start state : State Call) : Prop where
  once : ∀ msgId row, state.messages.lookup msgId = some (.privateMessage row) →
    (state.pushes.filter fun push => push.msgId = msgId).length ≤ 1
  toSender : ∀ msgId row, state.messages.lookup msgId = some (.privateMessage row) →
    ∀ push ∈ state.pushes, push.msgId = msgId → (frameOf push.call).msgId = msgId ∧
      (frameOf push.call).ackerId = row.toUser ∧ push.toUser = row.fromUser ∧ push.toUser ≠ row.toUser
  written : ∀ msgId row, state.messages.lookup msgId = some (.privateMessage row) →
    (state.marks frameOf msgId = [] ∧ row.deliveredAt = start.deliveredAt msgId) ∨
      ∃ call value, start.deliveredAt msgId = none ∧ state.marks frameOf msgId = [.deliveredAt call value] ∧
        row.deliveredAt = some value ∧ row.toUser = (frameOf call).ackerId
  uncounted : ∀ msgId row, state.messages.lookup msgId = some (.privateMessage row) → state.counts frameOf msgId = []
  counted : ∀ msgId row, state.messages.lookup msgId = some (.groupMessage row) →
    row.deliveredCount = start.deliveredCount msgId + (state.counts frameOf msgId).length

omit [DecidableEq Call] in
/-- The call that reports a private message is the one that has marked it. -/
theorem Sound.marker {row : PrivateRow} {push : Delivered Call} (sound : Sound frameOf start state)
    (found : state.messages.lookup msgId = some (.privateMessage row)) (member : push ∈ state.pushes)
    (about : push.msgId = msgId) :
    push.toUser = row.fromUser ∧ ∃ value, state.marks frameOf msgId = [.deliveredAt push.call value] ∧
      row.toUser = (frameOf push.call).ackerId := by
  obtain ⟨_, named, _, may⟩ := sound.pushed push member
  have message : state.message frameOf push.call = some (.privateMessage row) := by
    rw [State.message, ← named, about]
    exact found
  obtain ⟨other, here, sender, wrote⟩ | ⟨other, here⟩ := may
  · cases message.symm.trans here
    have marked : .deliveredAt push.call push.deliveredAt ∈ state.marks frameOf msgId := by
      refine List.mem_filter.mpr ⟨wrote, ?_⟩
      exact decide_eq_true (named.symm.trans about)
    obtain ⟨_, ⟨unmarked, _⟩ | ⟨call, value, _, marks, _, addressed⟩⟩ := (sound.written msgId).privately row found
    · rw [unmarked] at marked
      cases marked
    · rw [marks] at marked
      cases List.mem_singleton.mp marked
      exact ⟨sender, _, marks, addressed⟩
  · cases message.symm.trans here

theorem length_le_one_of_key {α β : Type} {key : α → β} {items : List α} (nodup : (items.map key).Nodup)
    (same : ∀ first ∈ items, ∀ second ∈ items, key first = key second) : items.length ≤ 1 := by
  match items with
  | [] => exact Nat.zero_le 1
  | [_] => exact Nat.le_refl 1
  | first :: second :: rest =>
      have apart := (List.nodup_cons.mp nodup).1
      have both := same first List.mem_cons_self second (List.mem_cons_of_mem _ List.mem_cons_self)
      rw [both] at apart
      exact absurd List.mem_cons_self apart

omit [DecidableEq Call] in
theorem Sound.reportedOnce (sound : Sound frameOf start state) : ReportedOnce frameOf start state := by
  constructor
  · intro msgId row found
    refine length_le_one_of_key (sound.nodup.sublist (List.filter_sublist.map _)) ?_
    intro first inFirst second inSecond
    obtain ⟨firstMember, firstAbout⟩ := List.mem_filter.mp inFirst
    obtain ⟨secondMember, secondAbout⟩ := List.mem_filter.mp inSecond
    obtain ⟨_, _, firstMark, _⟩ := sound.marker found firstMember (of_decide_eq_true firstAbout)
    obtain ⟨_, _, secondMark, _⟩ := sound.marker found secondMember (of_decide_eq_true secondAbout)
    have both := firstMark.symm.trans secondMark
    simp only [List.cons.injEq, Write.deliveredAt.injEq, and_true] at both
    exact both.1
  · intro msgId row found push member about
    obtain ⟨_, named, another, _⟩ := sound.pushed push member
    obtain ⟨sender, _, _, addressed⟩ := sound.marker found member about
    refine ⟨named.symm.trans about, addressed.symm, sender, ?_⟩
    rw [addressed]
    exact another
  · exact fun msgId row found => ((sound.written msgId).privately row found).2
  · exact fun msgId row found => ((sound.written msgId).privately row found).1
  · exact fun msgId row found => ((sound.written msgId).grouped row found).2

/-- Whatever the frames and however their statements are interleaved. -/
theorem private_reported_once (start : State Call) (idle : ∀ call, start.calls call = .idle)
    (unpushed : start.pushes = []) (unwritten : start.writes = []) (events : List (Event Call)) :
    (machine frameOf).Always (ReportedOnce frameOf start) start events := by
  have marks (msgId : String) : start.marks frameOf msgId = [] := by rw [State.marks, unwritten, List.filter_nil]
  have counts (msgId : String) : start.counts frameOf msgId = [] := by rw [State.counts, unwritten, List.filter_nil]
  have initial : Sound frameOf start start := by
    refine ⟨fun msgId => ⟨fun absent => ⟨absent, marks msgId, counts msgId⟩, fun row found => ?_, fun row found => ?_⟩,
      fun call => ?_, ?_, ?_⟩
    · refine ⟨counts msgId, .inl ⟨marks msgId, ?_⟩⟩
      simp only [State.deliveredAt, found]
    · refine ⟨marks msgId, ?_⟩
      simp only [State.deliveredCount, found, counts, List.length_nil]
      omega
    · rw [idle]
      trivial
    · rw [unpushed]
      exact fun push member => absurd member List.not_mem_nil
    · rw [unpushed]
      exact List.nodup_nil
  have always : (machine frameOf).Always (Sound frameOf start) start events :=
    Machine.always_of_step _ initial fun _ _ _ sound stepped => sound.change (change_of_step stepped)
  exact always.mono fun _ sound => sound.reportedOnce

/-! ## Two devices of the recipient -/

private def greeting : State Nat where
  messages := (∅ : Table String Message).insert "m1" (.privateMessage { fromUser := 1, toUser := 2 })

private def bothAcknowledge : Nat → Frame := fun _ => { ackerId := 2, msgId := "m1" }

/-- The second UPDATE comes before the first acknowledgement is reported. -/
private def interleaved : List (Event Nat) :=
  [.handleClientAck 0 true 1000, .handleClientAck 1 true 1001, .updatePrivate 0 .committed, .updatePrivate 1 .committed,
    .updateGroup 1 .committed, .selectPrivate 0 true, .push 0, .push 1]

theorem two_devices_reported_once :
    (machine bothAcknowledge).Always (ReportedOnce bothAcknowledge greeting) greeting interleaved ∧
      ((machine bothAcknowledge).run greeting interleaved).map State.pushes = some [⟨0, 1, "m1", 1000, 1⟩] :=
  ⟨private_reported_once greeting (fun _ => rfl) rfl rfl interleaved, by decide⟩

end MuduoIm.Server.ClientAck
