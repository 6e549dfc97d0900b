import MuduoIm.PushRouter.Route
import MuduoIm.Server.Persistence

namespace MuduoIm.Server.Persistence

open MuduoIm.Data MuduoIm.Data.Text MuduoIm.Transition MuduoIm.PushRouter
open MuduoIm.Server.MessageHandlers (Handler Task Arrival checkArguments)
open MuduoIm.Tools (Kind)

/-! # All ways lead to the same row

Each writer reads the message from a text of its own, or has it at hand.  The
first that succeeds makes the row, and the key of `msg_id` keeps the others away
from what edits and recalls have made of it.  The first edit saves the content
that it has read, which ends at a NUL.
-/

/-- The body that a message was sent with, which the first edit saves. -/
def Row.initialContent (row : Row) : String := row.originalBody.getD row.content

/-- What the frame says, from its sender and at its time. -/
structure Records (frame : Json) (user now : Int) (row : Row) : Prop where
  sender : row.fromUser = user
  target : ∃ text, frame.valueString "to" "" = some text ∧ stoll text = some row.target
  content : frame.valueString "content" "" = some row.initialContent
  timestamp : row.timestamp = now

def stored (item : QueueItem) (tables : Tables) : List Row :=
  (tables (kindOf item)).filter fun row => row.msgId = item.msgId

/-- A row of the message is that of the frame.  After a first success there is
one, and no further attempt changes anything. -/
structure Converged (codec : JsonCodec) (item : QueueItem) (frame : Json) (user now : Int) (state : State) :
    Prop where
  rows : ∀ row ∈ stored item state.tables, Records frame user now row
  row : state.written = true → ∃ row, stored item state.tables = [row] ∧ Records frame user now row
  late : state.written = true → ∀ writer answers, (write codec writer answers item state.tables).2 = state.tables

/-- The statements of an edit are executed on the row that it has found. -/
structure Passes (answers : FriendService.Answers) (editorId now : Int) (row : Row) : Prop where
  connected : answers.connected = true
  active : answers.active = true
  selected : answers.selected = true
  own : row.fromUser = editorId
  shown : row.recalled = false
  recent : now - Transactions.editWindowMs ≤ row.timestamp
  updated : answers.executed 0 = true
  inserted : answers.executed 1 = true
  committed : answers.commit ≠ .refused

/-- A message whose content has a U+0000 is not edited. -/
def KeepsInitial (item : QueueItem) (state : State) : Event → Prop
  | .edit msgId editorId _ kind now answers => '\x00' ∈ (rowOf item).content.toList → kind = kindOf item →
      msgId = item.msgId → ∀ row ∈ stored item state.tables, ¬ Passes answers editorId now row
  | _ => True

/-! ## What the readers read -/

/-- The columns hold the fields of the item. -/
structure Representable (item : QueueItem) : Prop where
  fromUser : Word (rowOf item).fromUser
  target : Word (rowOf item).target
  timestamp : Word (rowOf item).timestamp
  mentions : (rowOf item).mentions ≠ some ""

variable {codec : JsonCodec} {item : QueueItem} {tables after : Tables} {row : Row} {kind : Kind}

theorem readText_of_lossless {json : Json} (typeKey : String) (isObject : ∃ own, json = .object own)
    (lossless : codec.Lossless json) : readText codec typeKey (codec.dump json) = readRow typeKey json := by
  obtain ⟨members, parsed, same⟩ := lossless
  obtain ⟨strings, integers⟩ := Json.values_of_same_members isObject same
  simp only [readText, parsed, readRow, readPrivate, readGroup, strings, integers]

variable {members : List (String × Json)}

theorem readPrivate_eq {message : PrivateMessage} (representable : Representable (.privateMessage message))
    (msgId : members.lookup "msgId" = some (.string message.msgId))
    (sender : members.lookup "from" = some (.integer message.fromUser))
    (receiver : members.lookup "to" = some (.integer message.toUser))
    (content : members.lookup "content" = some (.string message.content))
    (timestamp : members.lookup "timestamp" = some (.integer message.timestamp)) :
    readPrivate (.object members) = some (rowOf (.privateMessage message)) := by
  have readSender : (Json.object members).valueInt "from" 0 = _ :=
    Json.valueInt_integer sender representable.fromUser.1 representable.fromUser.2
  have readReceiver : (Json.object members).valueInt "to" 0 = _ :=
    Json.valueInt_integer receiver representable.target.1 representable.target.2
  have readTime : (Json.object members).valueInt "timestamp" 0 = _ :=
    Json.valueInt_integer timestamp representable.timestamp.1 representable.timestamp.2
  simp only [readPrivate, readSender, readReceiver, readTime, Json.valueString, msgId, content]
  rfl

theorem readGroup_eq {message : GroupMessage} (representable : Representable (.groupMessage message))
    (msgId : members.lookup "msgId" = some (.string message.msgId))
    (group : members.lookup "groupId" = some (.integer message.groupId))
    (sender : members.lookup "from" = some (.integer message.fromUser))
    (content : members.lookup "content" = some (.string message.content))
    (timestamp : members.lookup "timestamp" = some (.integer message.timestamp))
    (mentions : members.lookup "mentions" = message.mentions.map .string) :
    readGroup (.object members) = some (rowOf (.groupMessage message)) := by
  have readGroupId : (Json.object members).valueInt "groupId" 0 = _ :=
    Json.valueInt_integer group representable.target.1 representable.target.2
  have readSender : (Json.object members).valueInt "from" 0 = _ :=
    Json.valueInt_integer sender representable.fromUser.1 representable.fromUser.2
  have readTime : (Json.object members).valueInt "timestamp" 0 = _ :=
    Json.valueInt_integer timestamp representable.timestamp.1 representable.timestamp.2
  have readMentions : ∃ text, (Json.object members).valueString "mentions" "" = some text ∧
      mentionsOrNull text = message.mentions := by
    cases given : message.mentions with
    | none =>
        rw [given] at mentions
        exact ⟨"", by simp only [Json.valueString, mentions, Option.map_none], rfl⟩
    | some text =>
        rw [given] at mentions
        refine ⟨text, by simp only [Json.valueString, mentions, Option.map_some], if_neg ?_⟩
        rintro rfl
        exact representable.mentions given
  obtain ⟨text, readMentions, column⟩ := readMentions
  simp only [readGroup, readGroupId, readSender, readTime, readMentions]
  simp only [Json.valueString, msgId, content, Option.bind_eq_bind, Option.bind_some, column]
  rfl

theorem readRow_private {typeKey : String} (type : members.lookup typeKey = some (.string "private"))
    (read : readPrivate (.object members) = some row) :
    readRow typeKey (.object members) = some (.privateChat, row) := by
  simp [readRow, Json.valueString, type, read]

theorem readRow_group {typeKey : String} (type : members.lookup typeKey = some (.string "group"))
    (read : readGroup (.object members) = some row) :
    readRow typeKey (.object members) = some (.group, row) := by
  simp [readRow, Json.valueString, type, read]

/-- Both encodings of a message are read as its row. -/
theorem readRow_eq (item : QueueItem) (representable : Representable item) :
    readRow "_type" (queueItem item) = some (kindOf item, rowOf item) ∧
      readRow "type" (record item) = some (kindOf item, rowOf item) := by
  cases item with
  | privateMessage message =>
      exact ⟨readRow_private rfl (readPrivate_eq representable rfl rfl rfl rfl rfl),
        readRow_private rfl (readPrivate_eq representable rfl rfl rfl rfl rfl)⟩
  | groupMessage message =>
      have mentions (rest : List (String × Json)) (absent : rest.lookup "mentions" = none) :
          (rest ++ message.mentions.toList.map fun mentions => ("mentions", Json.string mentions)).lookup "mentions" =
            message.mentions.map .string := by
        rw [List.lookup_append, absent]
        cases message.mentions <;> simp
      exact ⟨readRow_group rfl (readGroup_eq representable rfl rfl rfl rfl rfl (mentions _ rfl)),
        readRow_group rfl (readGroup_eq representable rfl rfl rfl rfl rfl (mentions _ rfl))⟩

/-! ## What a writer writes -/

/-- Nothing, and then it reports success only beside a row with the id; or the
row of the message, as the first. -/
def Writes (item : QueueItem) (tables : Tables) (result : Bool × Tables) : Prop :=
  (result.2 = tables ∧ (result.1 = true → insert (kindOf item) (rowOf item) tables = none)) ∨
    insert (kindOf item) (rowOf item) tables = some result.2

theorem save_writes (executed : Bool) (item : QueueItem) (tables : Tables) :
    Writes item tables (save executed (kindOf item) (rowOf item) tables) := by
  unfold save
  cases executed with
  | false => exact .inl ⟨rfl, nofun⟩
  | true =>
      cases inserted : insert (kindOf item) (rowOf item) tables with
      | none => exact .inl ⟨rfl, nofun⟩
      | some after => exact .inr inserted

theorem outboxTransaction_writes (answers : WriteAnswers) (message : PrivateMessage) (tables : Tables) :
    Writes (.privateMessage message) tables (outboxTransaction answers message tables) := by
  unfold outboxTransaction save
  cases inserted : if answers.executed then insert .privateChat (rowOf (.privateMessage message)) tables else none with
  | none => exact .inl ⟨rfl, nofun⟩
  | some after =>
      have written : insert (kindOf (.privateMessage message)) (rowOf (.privateMessage message)) tables = some after := by
        split at inserted
        · exact inserted
        · cases inserted
      dsimp only
      split
      · cases answers.commit with
        | committed => exact .inr written
        | lost => exact .inr written
        | refused => exact .inl ⟨rfl, nofun⟩
      · exact .inl ⟨rfl, nofun⟩

theorem write_writes (representable : Representable item) (queued : codec.Lossless (queueItem item))
    (published : codec.Lossless (record item)) (writer : Writer) (answers : WriteAnswers) (tables : Tables) :
    Writes item tables (write codec writer answers item tables) := by
  obtain ⟨readQueued, readPublished⟩ := readRow_eq item representable
  have isObject : (∃ own, queueItem item = .object own) ∧ ∃ own, record item = .object own := by
    cases item <;> exact ⟨⟨_, rfl⟩, _, rfl⟩
  have saved : Writes item tables (saveText codec answers.executed (codec.dump (queueItem item)) tables) := by
    simp only [saveText, readText_of_lossless _ isObject.1 queued, readQueued]
    exact save_writes _ _ _
  cases writer with
  | outbox =>
      cases item with
      | privateMessage message => exact outboxTransaction_writes answers message tables
      | groupMessage message => exact .inl ⟨rfl, nofun⟩
  | flushMessageQueue => cases item <;> exact saved
  | directSaveMessage => cases item <;> exact saved
  | withoutRedis => cases item <;> exact save_writes _ _ _
  | persister =>
      have consumed : Writes item tables (persist codec answers.executed (codec.dump (record item)) tables) := by
        simp only [persist, readText_of_lossless _ isObject.2 published, readPublished]
        cases answers.executed with
        | false => exact .inl ⟨rfl, nofun⟩
        | true =>
            unfold insertOrKeep
            cases inserted : insert (kindOf item) (rowOf item) tables with
            | none => exact .inl ⟨rfl, fun _ => inserted⟩
            | some after => exact .inr inserted
      cases item <;> exact consumed

/-! ## The row -/

theorem rowOf_msgId : (rowOf item).msgId = item.msgId := by cases item <;> rfl

theorem insert_eq_none_iff : insert (kindOf item) (rowOf item) tables = none ↔ stored item tables ≠ [] := by
  rw [insert, ite_eq_right_iff, stored, ne_eq, List.filter_eq_nil_iff]
  simp [rowOf_msgId]

theorem stored_insert (inserted : insert (kindOf item) (rowOf item) tables = some after) :
    stored item after = stored item tables ++ [rowOf item] := by
  obtain ⟨_, same⟩ := Option.ite_none_right_eq_some.mp inserted
  cases same
  simp [stored, rowOf_msgId]

/-- A row that has been inserted for the item and edited or recalled since.  What
an edit has saved of it has no U+0000. -/
structure Faithful (item : QueueItem) (row : Row) : Prop where
  fromUser : row.fromUser = (rowOf item).fromUser
  target : row.target = (rowOf item).target
  timestamp : row.timestamp = (rowOf item).timestamp
  mentions : row.mentions = (rowOf item).mentions
  body : (row.originalBody = none ∧ row.content = (rowOf item).content) ∨
    ∃ original, row.originalBody = some original ∧ '\x00' ∉ original.toList ∧
      ('\x00' ∉ (rowOf item).content.toList → original = (rowOf item).content)

theorem Faithful.initialContent_iff (faithful : Faithful item row) :
    row.initialContent = (rowOf item).content ↔
      ('\x00' ∈ (rowOf item).content.toList → row.originalBody = none) := by
  rcases faithful.body with ⟨unedited, same⟩ | ⟨original, edited, whole, kept⟩
  · rw [Row.initialContent, unedited, same]
    exact iff_of_true rfl fun _ => rfl
  · rw [Row.initialContent, edited, Option.getD_some]
    constructor
    · intro same cut
      rw [same] at whole
      exact absurd cut whole
    · intro uncut
      exact kept fun cut => nomatch uncut cut

theorem faithful_rowOf : Faithful item (rowOf item) :=
  ⟨rfl, rfl, rfl, rfl, .inl ⟨by cases item <;> rfl, rfl⟩⟩

theorem stored_modify {selected : Row → Bool} {change : Row → Row}
    (keeps : ∀ row, (change row).msgId = row.msgId) :
    stored item (modify kind selected change tables) =
      (stored item tables).map fun row => if kindOf item = kind ∧ selected row = true then change row else row := by
  by_cases same : kindOf item = kind
  · subst same
    have kept (row : Row) : (if selected row = true then change row else row).msgId = row.msgId := by
      split
      · exact keeps row
      · rfl
    simp only [stored, modify, if_true, List.filter_map, Function.comp_def, kept, true_and]
  · simp only [stored, modify, same, false_and, if_false, List.map_id']

/-- The message is not stored, or by one faithful row. -/
structure Settled (item : QueueItem) (state : State) : Prop where
  row : stored item state.tables = [] ∨ ∃ row, stored item state.tables = [row] ∧ Faithful item row
  written : state.written = true → stored item state.tables ≠ []

theorem Settled.of_modify {state : State} {selected : Row → Bool} {change : Row → Row} (settled : Settled item state)
    (keeps : ∀ row, (change row).msgId = row.msgId)
    (faithful : ∀ row, stored item state.tables = [row] → Faithful item row → kindOf item = kind →
      selected row = true → Faithful item (change row)) :
    Settled item { state with tables := modify kind selected change state.tables } := by
  have mapped : stored item (Persistence.modify kind selected change state.tables) = _ := stored_modify keeps
  refine ⟨?_, fun written none => settled.written written ?_⟩
  · rcases settled.row with none | ⟨row, only, good⟩
    · exact .inl (by rw [mapped, none, List.map_nil])
    · refine .inr ⟨_, by rw [mapped, only, List.map_singleton], ?_⟩
      split
      · rename_i chosen
        exact faithful row only good chosen.1 chosen.2
      · exact good
  · rw [mapped] at none
    exact List.map_eq_nil_iff.mp none

variable {state : State} {msgId newBody : String} {editorId now : Int} {answers : FriendService.Answers}

/-- An edit is its UPDATE if all its statements are executed, or else nothing. -/
theorem editMessage_tables :
    ((editMessage msgId editorId newBody kind now answers tables).2 = tables ∧
        ∀ row, (tables kind).find? (fun row => row.msgId = msgId) = some row → ¬ Passes answers editorId now row) ∨
      ∃ row, (tables kind).find? (fun row => row.msgId = msgId) = some row ∧ Passes answers editorId now row ∧
        (editMessage msgId editorId newBody kind now answers tables).2 =
          updateContent row msgId editorId newBody kind now tables := by
  unfold editMessage
  split
  · rename_i refused
    exact .inl ⟨rfl, fun _ _ passes => by simp [passes.connected] at refused⟩
  split
  · rename_i refused
    exact .inl ⟨rfl, fun _ _ passes => by simp [passes.active] at refused⟩
  rename_i connected active
  cases selected : answers.selected with
  | false => exact .inl ⟨rfl, fun _ _ passes => by simp [passes.selected] at selected⟩
  | true =>
      rw [if_pos rfl]
      cases (tables kind).find? (fun row => row.msgId = msgId) with
      | none => exact .inl ⟨rfl, nofun⟩
      | some found =>
          simp only [Option.some.injEq, forall_eq', exists_eq_left']
          split
          · rename_i foreign
            exact .inl ⟨rfl, fun passes => foreign passes.own⟩
          split
          · rename_i recalled
            exact .inl ⟨rfl, fun passes => by simp [passes.shown] at recalled⟩
          split
          · rename_i late
            exact .inl ⟨rfl, fun passes => absurd passes.recent (Int.not_le.mpr late)⟩
          rename_i own shown recent
          simp only [Bool.not_eq_true', Bool.not_eq_false, ne_eq, not_not] at connected active own
          rw [Bool.not_eq_true] at shown
          split
          · rename_i ineffective
            cases updated : answers.executed 0 with
            | false => exact .inl ⟨rfl, fun passes => by simp [passes.updated] at updated⟩
            | true =>
                have same : updateContent found msgId editorId newBody kind now tables kind = tables kind := by
                  simpa [updated] using ineffective
                have unchanged : updateContent found msgId editorId newBody kind now tables = tables := by
                  funext other
                  by_cases ofKind : other = kind
                  · rw [ofKind, same]
                  · exact if_neg ofKind
                cases passed : decide (answers.executed 1 = true ∧ answers.commit ≠ .refused) with
                | false =>
                    have failed := of_decide_eq_false passed
                    exact .inl ⟨rfl, fun passes => failed ⟨passes.inserted, passes.committed⟩⟩
                | true =>
                    have both := of_decide_eq_true passed
                    exact .inr ⟨⟨connected, active, selected, own, shown, Int.not_lt.mp recent, updated, both.1,
                      both.2⟩, unchanged.symm⟩
          split
          · rename_i uninserted
            exact .inl ⟨rfl, fun passes => by simp [passes.inserted] at uninserted⟩
          rename_i effective inserted
          simp only [Bool.or_eq_true, Bool.not_eq_true', not_or, Bool.not_eq_false] at effective inserted
          have passes (executed : answers.commit ≠ .refused) : Passes answers editorId now found :=
            ⟨connected, active, selected, own, shown, Int.not_lt.mp recent, effective.1, inserted, executed⟩
          cases answered : answers.commit with
          | committed => exact .inr ⟨passes (by simp [answered]), rfl⟩
          | lost => exact .inr ⟨passes (by simp [answered]), rfl⟩
          | refused => exact .inl ⟨rfl, fun passed => passed.committed answered⟩

/-- The row of a stored message is the one that an edit of it finds. -/
theorem find_of_stored (only : stored item tables = [row]) :
    (tables (kindOf item)).find? (fun row => row.msgId = item.msgId) = some row := by
  rw [← List.head?_filter]
  exact congrArg List.head? only

theorem Settled.of_edit (settled : Settled item state) (nonempty : (rowOf item).content ≠ "") :
    Settled item { state with tables := (editMessage msgId editorId newBody kind now answers state.tables).2 } := by
  rcases @editMessage_tables state.tables kind msgId newBody editorId now answers with
    ⟨same, _⟩ | ⟨found, selection, _, same⟩
  · rw [same]
    exact settled
  · rw [same]
    refine settled.of_modify (fun _ => rfl) fun row only faithful sameKind chosen => ?_
    have asked : msgId = item.msgId := by
      have own : row ∈ stored item state.tables := only ▸ List.mem_singleton_self row
      have named : row.msgId = item.msgId := of_decide_eq_true (List.mem_filter.mp own).2
      exact (of_decide_eq_true chosen).1.symm.trans named
    have here : found = row := by
      rw [← sameKind, asked, find_of_stored only, Option.some.injEq] at selection
      exact selection.symm
    subst here
    refine ⟨faithful.fromUser, faithful.target, faithful.timestamp, faithful.mentions, .inr ?_⟩
    rcases faithful.body with ⟨unedited, content⟩ | ⟨original, edited, whole, kept⟩
    · have first : cString (found.originalBody.getD "") = "" := by
        rw [unedited]
        rfl
      refine ⟨cString found.content, if_pos first, notMem_cString _, fun uncut => ?_⟩
      rw [content]
      exact (cString_eq_iff _).mpr uncut
    · have read : cString (found.originalBody.getD "") = original := by
        rw [edited]
        exact (cString_eq_iff original).mpr whole
      by_cases empty : original = ""
      · refine ⟨cString found.content, if_pos (read.trans empty), notMem_cString _, fun uncut => ?_⟩
        exact absurd ((kept uncut).symm.trans empty) nonempty
      · refine ⟨original, ?_, whole, kept⟩
        exact (if_neg (fun same => empty (read.symm.trans same))).trans edited

theorem Settled.of_recall {state : State} {msgId : String} {fromUserId now : Int} {connected : Bool}
    {executed : Kind → Bool} (settled : Settled item state) :
    Settled item { state with
      tables := (recallMessage msgId fromUserId now connected executed state.tables).2 } := by
  have marked {state : State} (settled : Settled item state) (kind : Kind) (twoMinAgo : Int) (answer : Bool) :
      Settled item { state with tables := (markRecalled kind msgId fromUserId twoMinAgo answer state.tables).2 } := by
    unfold markRecalled
    dsimp only
    split
    · refine settled.of_modify (fun _ => rfl) fun row _ faithful _ _ => ?_
      exact ⟨faithful.fromUser, faithful.target, faithful.timestamp, faithful.mentions, faithful.body⟩
    · exact settled
  unfold recallMessage
  split
  · exact settled
  · have first := marked settled .privateChat (now - 120000) (executed .privateChat)
    dsimp only
    split
    · rename_i tables result
      rw [result] at first
      exact first
    · rename_i tables result
      rw [result] at first
      exact marked first .group (now - 120000) (executed .group)

theorem Settled.of_write {state : State} {writer : Writer} {answers : WriteAnswers} (settled : Settled item state)
    (writes : Writes item state.tables (Persistence.write codec writer answers item state.tables)) :
    Settled item (step codec item state (.write writer answers)) := by
  simp only [step]
  generalize Persistence.write codec writer answers item state.tables = result at *
  rcases writes with ⟨same, beside⟩ | inserted
  · rw [same]
    refine ⟨settled.row, fun written => ?_⟩
    rcases Bool.or_eq_true _ _ ▸ written with earlier | ok
    · exact settled.written earlier
    · exact insert_eq_none_iff.mp (beside ok)
  · have extended := stored_insert inserted
    have none : stored item state.tables = [] := by
      by_contra some
      rw [insert_eq_none_iff.mpr some] at inserted
      cases inserted
    rw [none, List.nil_append] at extended
    exact ⟨.inr ⟨_, extended, faithful_rowOf⟩, fun _ => by rw [extended]; exact List.cons_ne_nil _ _⟩

/-! ## The saved content -/

/-- A message whose content has a U+0000 has not been edited. -/
def Whole (item : QueueItem) (tables : Tables) : Prop :=
  '\x00' ∈ (rowOf item).content.toList → ∀ row ∈ stored item tables, row.originalBody = none

theorem whole_of_writes {result : Bool × Tables} (writes : Writes item tables result) (whole : Whole item tables) :
    Whole item result.2 := by
  rcases writes with ⟨same, _⟩ | inserted
  · rw [same]
    exact whole
  · intro cut row member
    rw [stored_insert inserted] at member
    rcases List.mem_append.mp member with earlier | last
    · exact whole cut row earlier
    · rw [List.mem_singleton.mp last]
      cases item <;> rfl

theorem Whole.of_modify {selected : Row → Bool} {change : Row → Row} (whole : Whole item tables)
    (keeps : ∀ row, (change row).msgId = row.msgId) (body : ∀ row, (change row).originalBody = row.originalBody) :
    Whole item (modify kind selected change tables) := by
  intro cut row member
  rw [stored_modify keeps] at member
  obtain ⟨before, earlier, same⟩ := List.mem_map.mp member
  rw [← same]
  split
  · exact (body before).trans (whole cut before earlier)
  · exact whole cut before earlier

theorem whole_recallMessage {fromUserId : Int} {connected : Bool} {executed : Kind → Bool}
    (whole : Whole item tables) : Whole item (recallMessage msgId fromUserId now connected executed tables).2 := by
  have marked {tables : Tables} (whole : Whole item tables) (kind : Kind) (twoMinAgo : Int) (answer : Bool) :
      Whole item (markRecalled kind msgId fromUserId twoMinAgo answer tables).2 := by
    unfold markRecalled
    dsimp only
    split
    · exact whole.of_modify (fun _ => rfl) fun _ => rfl
    · exact whole
  unfold recallMessage
  split
  · exact whole
  · have first := marked whole .privateChat (now - 120000) (executed .privateChat)
    dsimp only
    split
    · rename_i tables result
      rw [result] at first
      exact first
    · rename_i tables result
      rw [result] at first
      exact marked first .group (now - 120000) (executed .group)

/-- An edit that goes through saves the part before the U+0000. -/
theorem whole_editMessage_iff (settled : Settled item state) (whole : Whole item state.tables) :
    Whole item (editMessage msgId editorId newBody kind now answers state.tables).2 ↔
      KeepsInitial item state (.edit msgId editorId newBody kind now answers) := by
  rcases @editMessage_tables state.tables kind msgId newBody editorId now answers with
    ⟨same, fails⟩ | ⟨found, selection, passes, same⟩
  · rw [same]
    refine iff_of_true whole fun _ ofKind named row member => ?_
    rcases settled.row with none | ⟨only, listed, _⟩
    · rw [none] at member
      cases member
    · rw [listed, List.mem_singleton] at member
      subst member ofKind named
      exact fails row (find_of_stored listed)
  · have mapped : stored item (updateContent found msgId editorId newBody kind now state.tables) = _ :=
      stored_modify fun _ => rfl
    rw [same, Whole, KeepsInitial]
    refine forall_congr' fun cut => ?_
    rw [mapped]
    constructor
    · intro unedited ofKind named row member
      subst ofKind named
      have listed : stored item state.tables = [row] := by
        rcases settled.row with none | ⟨only, listed, _⟩
        · rw [none] at member
          cases member
        · rw [listed, List.mem_singleton] at member
          rw [listed, member]
      rw [find_of_stored listed, Option.some.injEq] at selection
      subst selection
      have first : cString (row.originalBody.getD "") = "" := by
        rw [whole cut row member]
        rfl
      have now := unedited _ (List.mem_map_of_mem member)
      have named : row.msgId = item.msgId := of_decide_eq_true (List.mem_filter.mp member).2
      rw [if_pos ⟨rfl, decide_eq_true ⟨named, passes.own, passes.shown⟩⟩] at now
      simp only [if_pos first] at now
      cases now
    · intro kept row member
      obtain ⟨before, earlier, same⟩ := List.mem_map.mp member
      have own : before.msgId = item.msgId := of_decide_eq_true (List.mem_filter.mp earlier).2
      rw [← same]
      split
      · rename_i chosen
        have asked : msgId = item.msgId := (of_decide_eq_true chosen.2).1.symm.trans own
        subst asked
        rw [← chosen.1] at selection
        have named := List.find?_some selection
        have listed : found ∈ stored item state.tables :=
          List.mem_filter.mpr ⟨List.mem_of_find?_eq_some selection, named⟩
        exact absurd passes (kept chosen.1.symm rfl found listed)
      · exact whole cut before earlier

theorem whole_step_iff {event : Event} (settled : Settled item state) (whole : Whole item state.tables)
    (writes : ∀ writer answers, Writes item state.tables (write codec writer answers item state.tables)) :
    Whole item (step codec item state event).tables ↔ KeepsInitial item state event := by
  cases event with
  | write writer answers => exact iff_of_true (whole_of_writes (writes writer answers) whole) trivial
  | edit msgId editorId newBody kind now answers => exact whole_editMessage_iff settled whole
  | «recall» msgId fromUserId now connected executed => exact iff_of_true (whole_recallMessage whole) trivial

/-! ## All runs -/

variable {handler : Handler} {moderation : Bool} {recentMsgIds : List String} {frame : Json} {user : Int}
variable {arrival : Arrival} {task : Task}

/-- An accepted frame has its content, and its receiver, in the row. -/
theorem item_of_handed (memberIds : List Int)
    (handed : (handler.handle moderation recentMsgIds frame user arrival).task = some task) :
    let row := rowOf (task.item memberIds)
    row.fromUser = user ∧ row.timestamp = arrival.now ∧ row.content ≠ "" ∧ row.mentions ≠ some "" ∧
      frame.valueString "content" "" = some row.content ∧
      ∃ text, frame.valueString "to" "" = some text ∧ stoll text = some row.target := by
  cases handler with
  | privateMessage =>
      obtain ⟨arguments, checked, rfl⟩ := MessageHandlers.handleFrame_task handed
      obtain ⟨text, addressed, read, _, content, nonempty⟩ := MessageHandlers.checkArguments_ok checked
      exact ⟨rfl, rfl, nonempty, nofun, content, text, addressed, read⟩
  | groupMessage =>
      obtain ⟨arguments, checked, rfl⟩ := MessageHandlers.handleFrame_task handed
      obtain ⟨text, addressed, read, _, content, nonempty⟩ := MessageHandlers.checkArguments_ok checked
      refine ⟨rfl, rfl, nonempty, ?_, content, text, addressed, read⟩
      simp only [Task.item, rowOf, MessageHandlers.mentionsColumn]
      split
      · nofun
      · simp [String.ext_iff]

/-- A faithful row says what the frame says unless an edit has saved a part. -/
theorem Faithful.records_iff {memberIds : List Int} (faithful : Faithful (task.item memberIds) row)
    (handed : (handler.handle moderation recentMsgIds frame user arrival).task = some task) :
    Records frame user arrival.now row ↔
      ('\x00' ∈ (rowOf (task.item memberIds)).content.toList → row.originalBody = none) := by
  obtain ⟨sameSender, sameTime, _, _, content, text, given, read⟩ := item_of_handed memberIds handed
  rw [← faithful.initialContent_iff]
  constructor
  · intro records
    exact Option.some.inj (records.content.symm.trans content)
  · intro kept
    refine ⟨faithful.fromUser.trans sameSender, ⟨text, given, ?_⟩, ?_, faithful.timestamp.trans sameTime⟩
    · rw [read, faithful.target]
    · rw [content, kept]

theorem Settled.converged_iff {memberIds : List Int} (settled : Settled (task.item memberIds) state)
    (handed : (handler.handle moderation recentMsgIds frame user arrival).task = some task)
    (writes : ∀ writer answers, Writes (task.item memberIds) state.tables
      (write codec writer answers (task.item memberIds) state.tables)) :
    Converged codec (task.item memberIds) frame user arrival.now state ↔ Whole (task.item memberIds) state.tables := by
  rcases settled.row with none | ⟨only, listed, faithful⟩
  · have unwritten (written : state.written = true) : False := settled.written written none
    refine iff_of_true ⟨fun row member => ?_, fun written => (unwritten written).elim,
      fun written => (unwritten written).elim⟩ fun _ row member => ?_
    all_goals
      rw [none] at member
      cases member
  · have records := faithful.records_iff handed
    have stays : only ∈ stored (task.item memberIds) state.tables := by
      rw [listed]
      exact List.mem_singleton_self only
    constructor
    · intro converged cut row member
      rw [listed, List.mem_singleton] at member
      rw [member]
      exact records.mp (converged.rows only stays) cut
    · intro whole
      have own := records.mpr fun cut => whole cut only stays
      refine ⟨fun row member => ?_, fun _ => ⟨only, listed, own⟩, fun written writer answers => ?_⟩
      · rw [listed, List.mem_singleton] at member
        rw [member]
        exact own
      · rcases writes writer answers with ⟨same, _⟩ | inserted
        · exact same
        · rw [insert_eq_none_iff.mpr (settled.written written)] at inserted
          cases inserted

/-- All writers make the row of the frame, the first of them for good, and the
row keeps the content of the frame exactly if no content with a U+0000 is edited. -/
theorem persistence_converges_iff (codec : JsonCodec) (handler : Handler) (moderation : Bool)
    (recentMsgIds : List String) (frame : Json) (user : Int) (arrival : Arrival) (task : Task) (memberIds : List Int)
    (handed : (handler.handle moderation recentMsgIds frame user arrival).task = some task)
    (sender : Word user) (clock : Word arrival.now)
    (queued : codec.Lossless (queueItem (task.item memberIds)))
    (published : codec.Lossless (record (task.item memberIds))) (start : Tables)
    (fresh : stored (task.item memberIds) start = []) (events : List Event) :
    (machine codec (task.item memberIds)).Always
        (Converged codec (task.item memberIds) frame user arrival.now) { tables := start } events ↔
      (machine codec (task.item memberIds)).Meets (KeepsInitial (task.item memberIds)) { tables := start } events := by
  obtain ⟨sameSender, sameTime, nonempty, mentions, _, text, _, read⟩ := item_of_handed memberIds handed
  have representable : Representable (task.item memberIds) :=
    ⟨sameSender ▸ sender, stoll_range read, sameTime ▸ clock, mentions⟩
  have writes := write_writes representable queued published
  have converged_iff {state : State} (settled : Settled (task.item memberIds) state) :
      Converged codec (task.item memberIds) frame user arrival.now state ↔ Whole (task.item memberIds) state.tables :=
    settled.converged_iff handed fun writer answers => writes writer answers _
  have kept {state : State} {event : Event} (settled : Settled (task.item memberIds) state) :
      Settled (task.item memberIds) (step codec (task.item memberIds) state event) := by
    cases event with
    | write writer answers => exact settled.of_write (writes writer answers state.tables)
    | edit msgId editorId newBody kind now answers => exact settled.of_edit nonempty
    | «recall» msgId fromUserId now connected executed => exact settled.of_recall
  have initial : Settled (task.item memberIds) { tables := start } := ⟨.inl fresh, nofun⟩
  refine Machine.always_iff_meets (Settled (task.item memberIds)) ?_ initial ?_ ?_
  · refine (converged_iff initial).mpr fun _ row member => ?_
    rw [fresh] at member
    cases member
  · intro state event next settled stepped
    cases stepped
    exact kept settled
  · intro state event next settled converged stepped
    cases stepped
    exact (converged_iff (kept settled)).trans
      (whole_step_iff settled ((converged_iff settled).mp converged) fun writer answers => writes writer answers _)

private def greeting : Json :=
  .object [("type", .string "msg"), ("to", .string "8"), ("content", .string "hello")]

private def greetingTask : Task := .privateMessage "" ⟨"1", 7, 8, "hello", 1000⟩

private def queueText : String :=
  "\x7b\"_type\":\"private\",\"content\":\"hello\",\"from\":7,\"msgId\":\"1\",\"timestamp\":1000,\"to\":8\x7d"

private def recordText : String :=
  "\x7b\"content\":\"hello\",\"convId\":\"7:8\",\"from\":7,\"msgId\":\"1\"," ++
    "\"timestamp\":1000,\"to\":8,\"type\":\"private\"\x7d"

/-- A codec that knows the two texts of the greeting. -/
private def greetingCodec : JsonCodec where
  parse text :=
    if text = queueText then .ok (queueItem (greetingTask.item []))
    else if text = recordText then .ok (record (greetingTask.item []))
    else .error "parse error"
  dump json := if (json.member "_type").isSome then queueText else recordText

/-- The COMMIT of the outbox transaction is executed and its answer lost, so the
message is queued as well; it is edited before the flush and recalled before
the consumer gets to it. -/
theorem persistence_converges_greeting :
    (machine greetingCodec (greetingTask.item [])).Always
      (Converged greetingCodec (greetingTask.item []) greeting 7 1000) { tables := fun _ => [] }
      [.write .outbox ⟨true, true, .lost⟩,
        .edit "1" 7 "welcome" .privateChat 2000 ⟨true, true, true, fun _ => true, .committed⟩,
        .write .flushMessageQueue {}, .recall "1" 7 3000 true (fun _ => true), .write .persister {}] := by
  refine (persistence_converges_iff greetingCodec .privateMessage false [] greeting 7 ⟨"1", .pass, 1000, true⟩
    greetingTask [] rfl (by unfold Word; decide) (by unfold Word; decide) ⟨_, rfl, fun _ => rfl⟩
    ⟨_, rfl, fun _ => rfl⟩ _ rfl _).mpr ?_
  have whole : '\x00' ∉ (rowOf (greetingTask.item [])).content.toList := by decide
  refine Machine.meets_of_forall fun event _ state => ?_
  cases event with
  | write writer answers => trivial
  | edit msgId editorId newBody kind now answers => exact fun cut => absurd cut whole
  | «recall» msgId fromUserId now connected executed => trivial

/-- A message whose content goes on after a NUL. -/
private def twoParts : Json :=
  .object [("type", .string "msg"), ("to", .string "8"), ("content", .string "hello\x00there")]

private def twoPartsTask : Task := .privateMessage "" ⟨"1", 7, 8, "hello\x00there", 1000⟩

/-- The edit saves the first part as the original body. -/
theorem persistence_loses_part :
    (Handler.privateMessage.handle false [] twoParts 7 ⟨"1", .pass, 1000, true⟩).task = some twoPartsTask ∧
      ¬ (machine greetingCodec (twoPartsTask.item [])).Always
        (Converged greetingCodec (twoPartsTask.item []) twoParts 7 1000) { tables := fun _ => [] }
        [.write .outbox {}, .edit "1" 7 "welcome" .privateChat 2000 ⟨true, true, true, fun _ => true, .committed⟩] := by
  refine ⟨rfl, fun always => ?_⟩
  obtain ⟨row, only, records⟩ := (always.atEnd rfl).row rfl
  have content := records.content
  cases only
  exact absurd content (by decide)

end MuduoIm.Server.Persistence
