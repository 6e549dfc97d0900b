import Mathlib.Data.List.Nodup
import MuduoIm.Data.LogReader
import MuduoIm.Data.Text
import MuduoIm.Server.Persistence

namespace MuduoIm.Persister

open MuduoIm.Data MuduoIm.Data.LogReader MuduoIm.Data.Text MuduoIm.Transition
open MuduoIm.Server.Persistence (Row Tables readPrivate readGroup readRow readText)
open MuduoIm.Tools (Kind)

/-! # The consumer of `im.messages` that writes to MySQL

The offset of a record is committed when the callback returns true.  A record
that could not be written is taken again, and so is one that was written just
before a crash; the unique key makes that harmless.
-/

/-- Whether a connection is there, the statement prepared and executed. -/
structure Answers where
  connected : Bool := true
  prepared : Bool := true
  executed : Bool := true

/-- What MySQL does with values: the weights that the collation of `msg_id`
compares, what a TEXT column stores, and what `CASE WHEN ? = '' THEN NULL ELSE
CAST(? AS JSON) END` makes of a text that is not empty. -/
structure Columns where
  weightString : String → List Nat
  text : String → Option String
  castJson : String → Option (Option String)

/-- The row that is stored; `none` when a value is refused. -/
def Columns.stores (columns : Columns) (row : Row) : Option Row := do
  let msgId ← varchar 36 row.msgId
  let content ← columns.text row.content
  let mentions ← match row.mentions with
    | none => some none
    | some mentions => columns.castJson mentions
  return { row with msgId, content, mentions }

def Columns.sameId (columns : Columns) (left right : Row) : Prop :=
  columns.weightString left.msgId = columns.weightString right.msgId

instance (columns : Columns) (left right : Row) : Decidable (columns.sameId left right) :=
  inferInstanceAs (Decidable (_ = _))

/-- `ON DUPLICATE KEY UPDATE id=id`. -/
def insertOrKeep (columns : Columns) (kind : Kind) (row : Row) (tables : Tables) : Tables :=
  if ∀ other ∈ tables kind, ¬ columns.sameId other row then
    fun other => if other = kind then tables kind ++ [row] else tables other
  else tables

/-- What a callback has written, if anything, and what it returns; `none` is an
exception. -/
abbrev Callback := Option (Option (Kind × Row) × Bool)

/-- A bound and executed INSERT. -/
def inserted (columns : Columns) (executed : Bool) (kind : Kind) (row : Option Row) : Callback :=
  row.map fun row =>
    match if executed then columns.stores row else none with
    | some kept => (some (kind, kept), true)
    | none => (none, false)

variable (columns : Columns)

def persistPrivate (answers : Answers) (json : Json) : Callback :=
  if !answers.connected then some (none, false)
  else if !answers.prepared then some (none, false)
  else inserted columns answers.executed .privateChat (readPrivate json)

/-- `mentions` is read before the statement is prepared. -/
def persistGroup (answers : Answers) (json : Json) : Callback :=
  if !answers.connected then some (none, false)
  else
    match json.valueString "mentions" "" with
    | none => none
    | some _ =>
        if !answers.prepared then some (none, false)
        else inserted columns answers.executed .group (readGroup json)

/-- The log line of a record that is skipped, or not written, reads its id. -/
def logged (json : Json) (returned : Bool) : Callback := (json.valueString "msgId" "").map fun _ => (none, returned)

def unlessFailed (json : Json) : Callback → Callback
  | none => none
  | some (written, true) => some (written, true)
  | some (_, false) => logged json false

def callback (codec : JsonCodec) (answers : Answers) (value : String) : Callback :=
  match codec.parse value with
  | .error _ => some (none, true)
  | .ok json =>
      match json.valueString "type" "" with
      | none => none
      | some type =>
          if type = "private" then unlessFailed json (persistPrivate columns answers json)
          else if type = "group" then unlessFailed json (persistGroup columns answers json)
          else logged json true

/-- `writes` is history: the rows of all INSERTs that were executed, in their
order and as the columns take them, and `others` those of the other writers. -/
structure State where
  log : List String := []
  reader : Reader (Option (Kind × Row)) := {}
  tables : Tables := fun _ => []
  writes : List (Kind × Row) := []
  others : List (Kind × Row) := []

/-- `insert` is an INSERT of another writer. -/
inductive Event where
  | publish (value : String)
  | start
  | consume (answers : Answers) (crashes : Bool)
  | crash
  | insert (kind : Kind) (row : Row)

def State.write (state : State) : Option (Kind × Row) → State
  | none => state
  | some (kind, row) => { state with
      tables := insertOrKeep columns kind row state.tables
      writes := state.writes ++ [(kind, row)] }

def step (codec : JsonCodec) (state : State) : Event → Option State
  | .publish value => some { state with log := state.log ++ [value] }
  | .start => state.reader.start.map fun reader => { state with reader }
  | .consume answers crashes =>
      (state.reader.take state.log (callback columns codec answers) crashes).map fun (reader, result) =>
        { state with reader }.write columns (result.getD none)
  | .crash => some { state with reader := state.reader.crash }
  | .insert kind row => some { state.write columns (some (kind, row)) with others := (kind, row) :: state.others }

def machine (codec : JsonCodec) : Machine State Event := ⟨step columns codec⟩

/-! ## The callback -/

variable {columns} {codec : JsonCodec} {answers : Answers} {json : Json} {value : String} {kind : Kind} {row : Row}
variable {written : Option (Kind × Row)} {persisted isDone crashes : Bool}

/-- What the columns make of the row of a record, if it has one. -/
def Kept (columns : Columns) (asked written : Option (Kind × Row)) : Prop :=
  match asked with
  | none => written = none
  | some (kind, row) => ∃ kept, columns.stores row = some kept ∧ written = some (kind, kept)

/-- A callback on a record with this row writes the row, as the columns take it,
when it is done, and nothing else. -/
def Faithful (columns : Columns) (asked : Option (Kind × Row)) (answer : Callback) : Prop :=
  ∀ written isDone, answer = some (written, isDone) →
    (written = none ∨ Kept columns asked written) ∧ (isDone = true → Kept columns asked written)

theorem inserted_faithful {executed : Bool} {read : Option Row} :
    Faithful columns (read.map (Prod.mk kind)) (inserted columns executed kind read) := by
  intro written isDone returned
  cases read with
  | none => cases returned
  | some row =>
      simp only [inserted, Option.map_some, Option.some.injEq] at returned
      split at returned
      · rename_i kept stored
        obtain ⟨_, stores⟩ := Option.ite_none_right_eq_some.mp stored
        cases returned
        exact ⟨.inr ⟨kept, stores, rfl⟩, fun _ => ⟨kept, stores, rfl⟩⟩
      · cases returned
        exact ⟨.inl rfl, nofun⟩

theorem failed_faithful {asked : Option (Kind × Row)} : Faithful columns asked (some (none, false)) := by
  intro written isDone returned
  cases returned
  exact ⟨.inl rfl, nofun⟩

theorem persistPrivate_faithful :
    Faithful columns ((readPrivate json).map (Prod.mk .privateChat)) (persistPrivate columns answers json) := by
  unfold persistPrivate
  split
  · exact failed_faithful
  · split
    · exact failed_faithful
    · exact inserted_faithful

theorem persistGroup_faithful :
    Faithful columns ((readGroup json).map (Prod.mk .group)) (persistGroup columns answers json) := by
  unfold persistGroup
  split
  · exact failed_faithful
  · split
    · intro written isDone returned
      cases returned
    · split
      · exact failed_faithful
      · exact inserted_faithful

theorem logged_eq_some (returned : logged json isDone = some (written, persisted)) :
    written = none ∧ persisted = isDone := by
  obtain ⟨_, _, same⟩ := Option.map_eq_some_iff.mp returned
  cases same
  exact ⟨rfl, rfl⟩

theorem unlessFailed_faithful {asked : Option (Kind × Row)} {answer : Callback}
    (faithful : Faithful columns asked answer) : Faithful columns asked (unlessFailed json answer) := by
  intro written isDone returned
  unfold unlessFailed at returned
  split at returned
  · cases returned
  · cases returned
    exact faithful _ _ rfl
  · obtain ⟨rfl, rfl⟩ := logged_eq_some returned
    exact ⟨.inl rfl, nofun⟩

theorem readRow_of_type {type : String} (read : json.valueString "type" "" = some type) :
    readRow "type" json =
      if type = "private" then (readPrivate json).map (Prod.mk .privateChat)
      else if type = "group" then (readGroup json).map (Prod.mk .group)
      else none := by
  simp only [readRow, read, Option.bind_eq_bind, Option.bind_some, Option.pure_def]
  split
  · cases readPrivate json <;> rfl
  · split
    · cases readGroup json <;> rfl
    · rfl

theorem callback_faithful : Faithful columns (readText codec "type" value) (callback columns codec answers value) := by
  intro written isDone
  unfold callback
  rw [readText]
  cases codec.parse value with
  | error what =>
      intro returned
      cases returned
      exact ⟨.inl rfl, fun _ => rfl⟩
  | ok json =>
      intro returned
      dsimp only at returned ⊢
      split at returned
      · cases returned
      · rename_i type read
        rw [readRow_of_type read]
        split at returned
        · rename_i isPrivate
          rw [if_pos isPrivate]
          exact unlessFailed_faithful persistPrivate_faithful written isDone returned
        · rename_i notPrivate
          rw [if_neg notPrivate]
          split at returned
          · rename_i isGroup
            rw [if_pos isGroup]
            exact unlessFailed_faithful persistGroup_faithful written isDone returned
          · rename_i notGroup
            rw [if_neg notGroup]
            obtain ⟨rfl, rfl⟩ := logged_eq_some returned
            exact ⟨.inl rfl, fun _ => rfl⟩

theorem inserted_done {executed : Bool} {read : Option Row}
    (returned : inserted columns executed kind read = some (written, true)) :
    inserted columns true kind read = some (written, true) := by
  cases executed with
  | true => exact returned
  | false =>
      obtain ⟨_, _, same⟩ := Option.map_eq_some_iff.mp returned
      cases same

theorem persistPrivate_done (returned : persistPrivate columns answers json = some (written, true)) :
    persistPrivate columns {} json = some (written, true) := by
  unfold persistPrivate at returned
  split at returned
  · cases returned
  · split at returned
    · cases returned
    · exact inserted_done returned

theorem persistGroup_done (returned : persistGroup columns answers json = some (written, true)) :
    persistGroup columns {} json = some (written, true) := by
  unfold persistGroup at returned
  split at returned
  · cases returned
  · split at returned
    · cases returned
    · rename_i mentions read
      split at returned
      · cases returned
      · simp only [persistGroup, read]
        exact inserted_done returned

theorem unlessFailed_done {answer : Callback} (returned : unlessFailed json answer = some (written, true)) :
    answer = some (written, true) := by
  unfold unlessFailed at returned
  split at returned
  · cases returned
  · exact returned
  · cases (logged_eq_some returned).2

/-- A record with which the callback was once done is one with which it is done
when nothing fails. -/
theorem callback_done (returned : callback columns codec answers value = some (written, true)) :
    callback columns codec {} value = some (written, true) := by
  unfold callback at returned ⊢
  split at returned
  · exact returned
  · split at returned
    · cases returned
    · split at returned
      · rename_i isPrivate
        rw [if_pos isPrivate, persistPrivate_done (unlessFailed_done returned)]
        rfl
      · rename_i notPrivate
        rw [if_neg notPrivate]
        split at returned
        · rename_i isGroup
          rw [if_pos isGroup, persistGroup_done (unlessFailed_done returned)]
          rfl
        · rename_i notGroup
          rw [if_neg notGroup]
          exact returned

/-! ## The tables -/

/-- The rows that were inserted or kept out, and have this id. -/
def attempts (columns : Columns) (state : State) (kind : Kind) (row : Row) : List (Kind × Row) :=
  state.writes.filter fun write => write.1 = kind ∧ columns.sameId write.2 row

/-- A table has the first row of each id that was given to an INSERT. -/
def FirstRows (columns : Columns) (state : State) : Prop :=
  ∀ kind row, (state.tables kind).filter (fun held => columns.sameId held row) =
    ((attempts columns state kind row).head?.map Prod.snd).toList

variable {state next : State}

theorem attempts_write_of_ne {other : Kind} {wanted : Row} (apart : ¬ (kind = other ∧ columns.sameId row wanted)) :
    attempts columns (state.write columns (some (kind, row))) other wanted = attempts columns state other wanted := by
  simp only [attempts, State.write, List.filter_append, List.filter_cons, List.filter_nil]
  rw [decide_eq_false apart]
  exact List.append_nil _

theorem FirstRows.write (first : FirstRows columns state) :
    FirstRows columns (state.write columns (some (kind, row))) := by
  intro other wanted
  by_cases same : kind = other ∧ columns.sameId row wanted
  · obtain ⟨rfl, same⟩ := same
    have wantedFirst := first kind wanted
    have grown : attempts columns (state.write columns (some (kind, row))) kind wanted =
        attempts columns state kind wanted ++ [(kind, row)] := by
      simp [attempts, State.write, List.filter_append, same]
    rw [grown]
    cases before : attempts columns state kind wanted with
    | nil =>
        rw [before] at wantedFirst
        have absent : ∀ held ∈ state.tables kind, ¬ columns.sameId held row := by
          intro held member equal
          have listed : held ∈ (state.tables kind).filter (fun held => columns.sameId held wanted) :=
            List.mem_filter.mpr ⟨member, decide_eq_true (equal.trans same)⟩
          rw [wantedFirst] at listed
          cases listed
        simp only [State.write, insertOrKeep, if_pos absent, if_true, List.filter_append, wantedFirst]
        simp [same]
    | cons earliest later =>
        rw [before] at wantedFirst
        have listed : earliest.2 ∈ (state.tables kind).filter (fun held => columns.sameId held wanted) := by
          rw [wantedFirst]
          exact .head _
        obtain ⟨member, equal⟩ := List.mem_filter.mp listed
        have present : ¬ ∀ held ∈ state.tables kind, ¬ columns.sameId held row :=
          fun absent => absent earliest.2 member ((of_decide_eq_true equal).trans same.symm)
        simp only [State.write, insertOrKeep, if_neg present]
        exact wantedFirst
  · rw [attempts_write_of_ne same, ← first other wanted]
    simp only [State.write, insertOrKeep]
    split
    · dsimp only
      split
      · rename_i here
        have away : ¬ columns.sameId row wanted := fun equal => same ⟨here.symm, equal⟩
        rw [List.filter_append, here]
        simp [away]
      · rfl
    · rfl

/-! ## Runs -/

/-- A record of the log asks for this row, which the columns have taken. -/
def Asked (columns : Columns) (codec : JsonCodec) (log : List String) (write : Kind × Row) : Prop :=
  ∃ value ∈ log, ∃ row, readText codec "type" value = some (write.1, row) ∧ columns.stores row = some write.2

/-- The rows come from the other writers and from the records; what was handled
was handled as its record asks. -/
structure Sound (columns : Columns) (codec : JsonCodec) (state : State) : Prop where
  firstRows : FirstRows columns state
  writes : ∀ write ∈ state.writes, write ∈ state.others ∨ Asked columns codec state.log write
  rows : ∀ kind, ∀ row ∈ state.tables kind, (kind, row) ∈ state.writes
  handled : ∀ offset write, (offset, some write) ∈ state.reader.handled → write ∈ state.writes
  covers : Covers (fun offset written => ∃ value, state.log[offset]? = some value ∧
    callback columns codec {} value = some (written, true) ∧ Kept columns (readText codec "type" value) written)
    state.reader

theorem mem_insertOrKeep {tables : Tables} {held : Row} {other : Kind}
    (member : held ∈ insertOrKeep columns kind row tables other) : held ∈ tables other ∨ (other = kind ∧ held = row) := by
  unfold insertOrKeep at member
  split at member
  · dsimp only at member
    split at member
    · rename_i here
      rw [here]
      exact (List.mem_append.mp member).imp_right fun last => ⟨rfl, List.mem_singleton.mp last⟩
    · exact .inl member
  · exact .inl member

/-- A write of a row that somebody accounts for. -/
theorem Sound.write (sound : Sound columns codec state) {others : List (Kind × Row)} (written : Option (Kind × Row))
    (kept : ∀ write ∈ state.others, write ∈ others)
    (source : ∀ write, written = some write → write ∈ others ∨ Asked columns codec state.log write) :
    Sound columns codec { state.write columns written with others } := by
  have before (write : Kind × Row) (member : write ∈ state.writes) : write ∈ others ∨
      Asked columns codec state.log write :=
    (sound.writes write member).imp_left (kept write)
  cases written with
  | none => exact ⟨sound.firstRows, before, sound.rows, sound.handled, sound.covers⟩
  | some write =>
      obtain ⟨kind, row⟩ := write
      refine ⟨sound.firstRows.write, fun write member => ?_, fun other held member => ?_, fun offset write member => ?_,
        sound.covers⟩
      · obtain earlier | last := List.mem_append.mp member
        · exact before write earlier
        · exact source write (by rw [List.mem_singleton.mp last])
      · obtain earlier | ⟨rfl, rfl⟩ := mem_insertOrKeep member
        · exact List.mem_append_left _ (sound.rows other held earlier)
        · exact List.mem_append_right _ (.head _)
      · exact List.mem_append_left _ (sound.handled offset write member)

theorem Sound.publish (sound : Sound columns codec state) (value : String) :
    Sound columns codec { state with log := state.log ++ [value] } := by
  have kept {offset : ℕ} {held : String} (found : state.log[offset]? = some held) :
      (state.log ++ [value])[offset]? = some held := by
    rw [List.getElem?_append_left (List.getElem?_eq_some_iff.mp found).1]
    exact found
  refine ⟨sound.firstRows, fun write member => ?_, sound.rows, sound.handled, sound.covers.mono fun offset written done => ?_⟩
  · refine (sound.writes write member).imp_right fun from_ => ?_
    obtain ⟨held, member, rest⟩ := from_
    exact ⟨held, List.mem_append_left _ member, rest⟩
  · obtain ⟨held, found, rest⟩ := done
    exact ⟨held, kept found, rest⟩

theorem Sound.consume (sound : Sound columns codec state) {reader : Reader (Option (Kind × Row))}
    {result : Option (Option (Kind × Row))}
    (taken : state.reader.take state.log (callback columns codec answers) crashes = some (reader, result)) :
    Sound columns codec ({ state with reader }.write columns (result.getD none)) := by
  have covers := sound.covers.take (fun position value written found returned =>
    ⟨value, found, callback_done returned, (callback_faithful written true returned).2 rfl⟩) taken
  obtain ⟨position, value, _, found, ⟨_, rfl, rfl⟩ | ⟨written, isDone, returned, rfl, history, _⟩⟩ := take_cases taken
  · exact ⟨sound.firstRows, sound.writes, sound.rows, sound.handled, covers⟩
  · have source (write : Kind × Row) (same : written = some write) :
        ∃ row, readText codec "type" value = some (write.1, row) ∧ columns.stores row = some write.2 := by
      obtain nothing | expected := (callback_faithful written isDone returned).1
      · rw [nothing] at same
        cases same
      · cases asked : readText codec "type" value with
        | none =>
            rw [asked] at expected
            cases expected.symm.trans same
        | some want =>
            rw [asked] at expected
            obtain ⟨kept, stores, equal⟩ := expected
            cases same.symm.trans equal
            exact ⟨want.2, rfl, stores⟩
    have moved : Sound columns codec { state.write columns written with others := state.others } :=
      sound.write written (fun _ member => member) fun write same => .inr ⟨value, List.mem_of_getElem? found, source write same⟩
    cases written with
    | none =>
        refine ⟨moved.firstRows, moved.writes, moved.rows, fun offset write member => ?_, covers⟩
        have listed : (offset, some write) ∈ state.reader.handled ++ [(position, none)] := history ▸ member
        obtain before | last := List.mem_append.mp listed
        · exact sound.handled offset write before
        · cases List.mem_singleton.mp last
    | some write =>
        obtain ⟨kind, row⟩ := write
        refine ⟨moved.firstRows, moved.writes, moved.rows, fun offset write member => ?_, covers⟩
        have listed : (offset, some write) ∈ state.reader.handled ++ [(position, some (kind, row))] := history ▸ member
        obtain before | last := List.mem_append.mp listed
        · exact List.mem_append_left _ (sound.handled offset write before)
        · cases List.mem_singleton.mp last
          exact List.mem_append_right _ (.head _)

theorem Sound.preserved {event : Event} (sound : Sound columns codec state)
    (stepped : step columns codec state event = some next) : Sound columns codec next := by
  cases event with
  | publish value =>
      cases stepped
      exact sound.publish value
  | start =>
      obtain ⟨reader, started, rfl⟩ := Option.map_eq_some_iff.mp stepped
      refine ⟨sound.firstRows, sound.writes, sound.rows, fun offset write member => ?_, sound.covers.start started⟩
      rw [start_eq_some started] at member
      exact sound.handled offset write member
  | consume answers crashes =>
      obtain ⟨⟨reader, result⟩, taken, rfl⟩ := Option.map_eq_some_iff.mp stepped
      exact sound.consume taken
  | crash =>
      cases stepped
      exact ⟨sound.firstRows, sound.writes, sound.rows, sound.handled, sound.covers.crash⟩
  | insert kind row =>
      cases stepped
      exact sound.write (some (kind, row)) (fun _ member => .tail _ member)
        fun write same => .inl (by rw [← Option.some.inj same]; exact .head _)

/-- What the committed offset and the tables promise. -/
structure Persisted (columns : Columns) (codec : JsonCodec) (state : State) : Prop where
  /-- A record behind the offset has its row, its own one unless another write of
  its message was different. -/
  stored : ∀ offset < state.reader.committedOffset, ∀ value kind row, state.log[offset]? = some value →
    readText codec "type" value = some (kind, row) → ∃ kept, columns.stores row = some kept ∧
      ∃ held ∈ state.tables kind, columns.sameId held kept ∧
        ((∀ write ∈ state.writes, write.1 = kind → columns.sameId write.2 kept → write.2 = kept) → held = kept)
  once : ∀ kind, ((state.tables kind).map fun row => columns.weightString row.msgId).Nodup
  sources : ∀ kind, ∀ row ∈ state.tables kind, (kind, row) ∈ state.others ∨ Asked columns codec state.log (kind, row)
  /-- A record on which the callback throws, or that the columns refuse, is never
  passed. -/
  passed : ∀ offset < state.reader.committedOffset, ∀ value, state.log[offset]? = some value →
    ∃ written, callback columns codec {} value = some (written, true)

theorem FirstRows.nodup (first : FirstRows columns state) (kind : Kind) :
    ((state.tables kind).map fun row => columns.weightString row.msgId).Nodup := by
  rw [List.nodup_iff_count_le_one]
  intro weights
  by_cases listed : weights ∈ (state.tables kind).map fun row => columns.weightString row.msgId
  · obtain ⟨row, _, rfl⟩ := List.mem_map.mp listed
    have counted : ((state.tables kind).map fun row => columns.weightString row.msgId).count
        (columns.weightString row.msgId) = ((state.tables kind).filter (fun held => columns.sameId held row)).length := by
      rw [List.count_eq_countP, List.countP_map, List.countP_eq_length_filter]
      exact congrArg List.length (List.filter_congr fun held _ => beq_eq_decide _ _)
    rw [counted, first kind row]
    cases (attempts columns state kind row).head? <;> simp
  · rw [List.count_eq_zero_of_not_mem listed]
    exact Nat.zero_le 1

theorem Sound.promises (sound : Sound columns codec state) : Persisted columns codec state where
  stored offset below value kind row found read := by
    obtain ⟨written, member, held, same, _, expected⟩ := sound.covers.handled offset below
    rw [found] at same
    rw [← Option.some.inj same, read] at expected
    obtain ⟨kept, stores, rfl⟩ := expected
    refine ⟨kept, stores, ?_⟩
    have listed : (kind, kept) ∈ attempts columns state kind kept :=
      List.mem_filter.mpr ⟨sound.handled offset (kind, kept) member, decide_eq_true ⟨rfl, rfl⟩⟩
    have rows := sound.firstRows kind kept
    cases before : attempts columns state kind kept with
    | nil =>
        rw [before] at listed
        cases listed
    | cons earliest later =>
        rw [before] at rows
        have inTable : earliest.2 ∈ (state.tables kind).filter (fun other => columns.sameId other kept) := by
          rw [rows]
          exact .head _
        have attempted : earliest ∈ attempts columns state kind kept := by
          rw [before]
          exact .head _
        obtain ⟨write, ofKind⟩ := List.mem_filter.mp attempted
        obtain ⟨sameKind, sameId⟩ := of_decide_eq_true ofKind
        exact ⟨earliest.2, (List.mem_filter.mp inTable).1, sameId,
          fun consistent => consistent earliest write sameKind sameId⟩
  once := sound.firstRows.nodup
  sources kind row member := sound.writes _ (sound.rows kind row member)
  passed offset below value found := by
    obtain ⟨written, _, held, same, returned, _⟩ := sound.covers.handled offset below
    rw [found] at same
    rw [Option.some.inj same]
    exact ⟨written, returned⟩

/-! ## What remains can be consumed -/

/-- When nothing fails, the callback is done with a record on which it does not
throw and whose row the columns take. -/
def Consumable (columns : Columns) (codec : JsonCodec) (value : String) : Prop :=
  (callback columns codec {} value).isSome ∧
    ∀ kind row, readText codec "type" value = some (kind, row) → (columns.stores row).isSome

theorem inserted_healthy {read : Option Row} (takes : ∀ row, read = some row → (columns.stores row).isSome)
    (returned : inserted columns true kind read = some (written, isDone)) : isDone = true := by
  cases read with
  | none => cases returned
  | some row =>
      obtain ⟨kept, stores⟩ := Option.isSome_iff_exists.mp (takes row rfl)
      simp only [inserted, Option.map_some, if_true, stores] at returned
      cases returned
      rfl

theorem callback_healthy (consumable : Consumable columns codec value)
    (returned : callback columns codec {} value = some (written, isDone)) : isDone = true := by
  have takes := consumable.2
  rw [readText] at takes
  unfold callback at returned
  split at returned
  · cases returned
    rfl
  · rename_i json parsed
    rw [parsed] at takes
    dsimp only at takes
    split at returned
    · cases returned
    · rename_i type read
      rw [readRow_of_type read] at takes
      have passes (answer : Callback) (healthy : ∀ written isDone, answer = some (written, isDone) → isDone = true)
          (answered : unlessFailed json answer = some (written, isDone)) : isDone = true := by
        unfold unlessFailed at answered
        split at answered
        · cases answered
        · cases answered
          rfl
        · cases healthy _ _ rfl
      split at returned
      · rename_i isPrivate
        rw [if_pos isPrivate] at takes
        refine passes _ (fun written isDone answered => inserted_healthy (fun row found => ?_) answered) returned
        exact takes .privateChat row (by rw [found]; rfl)
      · rename_i notPrivate
        rw [if_neg notPrivate] at takes
        split at returned
        · rename_i isGroup
          rw [if_pos isGroup] at takes
          refine passes _ (fun written isDone answered => ?_) returned
          simp only [persistGroup, Bool.not_true, Bool.false_eq_true, if_false] at answered
          split at answered
          · cases answered
          · exact inserted_healthy (fun row found => takes .group row (by rw [found]; rfl)) answered
        · exact (logged_eq_some returned).2

/-- A consumer that runs, with no faults and no exceptions, reaches the end. -/
theorem finishes {rest : ℕ} (consumable : ∀ value ∈ state.log, Consumable columns codec value)
    (running : state.reader.position = some state.reader.committedOffset)
    (remaining : state.reader.committedOffset + rest = state.log.length) :
    ∃ events after, (machine columns codec).run state events = some after ∧ after.log = state.log ∧
      after.reader.committedOffset = state.log.length := by
  induction rest generalizing state with
  | zero => exact ⟨[], state, rfl, rfl, remaining⟩
  | succ rest ih =>
      have within : state.reader.committedOffset < state.log.length := by omega
      have found := List.getElem?_eq_getElem within
      have next := consumable _ (List.mem_of_getElem? found)
      obtain ⟨⟨written, isDone⟩, returned⟩ := Option.isSome_iff_exists.mp next.1
      obtain rfl := callback_healthy next returned
      let reader : Reader (Option (Kind × Row)) :=
        { committedOffset := state.reader.committedOffset + 1
          position := some (state.reader.committedOffset + 1)
          handled := state.reader.handled ++ [(state.reader.committedOffset, written)] }
      have taken : state.reader.take state.log (callback columns codec {}) false = some (reader, some written) := by
        simp only [Reader.take, running, found, returned, Bool.false_eq_true, if_false, if_true]
        rfl
      have stepped : step columns codec state (.consume {} false) =
          some ({ state with reader }.write columns written) := by
        simp only [step, taken]
        rfl
      have log : ({ state with reader }.write columns written).log = state.log := by cases written <;> rfl
      have moved : ({ state with reader }.write columns written).reader = reader := by cases written <;> rfl
      obtain ⟨events, after, ran, sameLog, reached⟩ := @ih ({ state with reader }.write columns written)
        (by rw [log]; exact consumable) (by rw [moved])
        (by rw [moved, log, ← remaining]; exact Nat.succ_add_eq_add_succ _ _)
      exact ⟨.consume {} false :: events, after, Machine.run_cons_eq_some.mpr ⟨_, stepped, ran⟩, sameLog.trans log,
        reached.trans (congrArg List.length log)⟩

theorem Sound.finishes (sound : Sound columns codec state)
    (consumable : ∀ value ∈ state.log, Consumable columns codec value) :
    ∃ events after, (machine columns codec).run state events = some after ∧ after.log = state.log ∧
      after.reader.committedOffset = state.log.length := by
  have within : state.reader.committedOffset ≤ state.log.length := by
    by_contra beyond
    obtain ⟨_, _, _, found, _⟩ := sound.covers.handled state.log.length (by omega)
    rw [List.getElem?_eq_none (Nat.le_refl _)] at found
    cases found
  let restarted : State := { state with
    reader := { state.reader with position := some state.reader.committedOffset } }
  have stopped : (machine columns codec).run state [.crash, .start] = some restarted := rfl
  obtain ⟨events, after, ran, same, reached⟩ := @Persister.finishes columns codec restarted
    (state.log.length - state.reader.committedOffset) consumable rfl (Nat.add_sub_cancel' within)
  exact ⟨_, after, Machine.run_trans stopped ran, same, reached⟩

theorem sound_start : Sound columns codec {} where
  firstRows _ _ := rfl
  writes _ member := absurd member List.not_mem_nil
  rows _ _ member := absurd member List.not_mem_nil
  handled _ _ member := absurd member List.not_mem_nil
  covers := covers_new

/-- In every run of records, callbacks with any faults, crashes, restarts and
writes of others; and when the callback throws on none of the records and the
columns take all their rows, all that are left can be consumed. -/
theorem records_persisted (columns : Columns) (codec : JsonCodec) (events : List Event) :
    (machine columns codec).Always (fun state => Persisted columns codec state ∧
      ((∀ value ∈ state.log, Consumable columns codec value) →
        ∃ later after, (machine columns codec).run state later = some after ∧ after.log = state.log ∧
          after.reader.committedOffset = state.log.length)) {} events :=
  (Machine.always_of_step (Sound columns codec) sound_start fun _ _ _ sound stepped => sound.preserved stepped).mono
    fun _ sound => ⟨sound.promises, sound.finishes⟩

end MuduoIm.Persister
