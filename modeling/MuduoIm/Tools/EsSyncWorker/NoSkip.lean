import MuduoIm.Tools.EsSyncWorker

namespace MuduoIm.Tools.EsSyncWorker

open MuduoIm.Transition

/-! # When the cursor skips a row

A row is skipped when the cursor passes it before Elasticsearch has taken its
document.
-/

/-! ## One fetch -/

section

variable {batch cursor : Nat} {rows : List Row} {row : Row}

theorem mem_fetchRows (member : row ∈ fetchRows batch rows cursor) :
    row ∈ rows ∧ cursor < row.id ∧ row.recalled = false := by
  have chosen := (List.mem_insertionSort _).mp (List.mem_of_mem_take member)
  rw [List.mem_filter, Bool.and_eq_true, decide_eq_true_eq, Bool.not_eq_true'] at chosen
  exact chosen

theorem le_newCursor : cursor ≤ newCursor rows cursor ∧ ∀ row ∈ rows, row.id ≤ newCursor rows cursor := by
  unfold newCursor
  induction rows generalizing cursor with
  | nil => exact ⟨Nat.le_refl _, nofun⟩
  | cons first rest ih =>
      obtain ⟨below, all⟩ := @ih (max cursor first.id)
      rw [List.foldl_cons]
      refine ⟨by omega, fun row member => ?_⟩
      rcases List.mem_cons.mp member with rfl | later
      · omega
      · exact all row later

theorem newCursor_eq (rows : List Row) (cursor : Nat) :
    newCursor rows cursor = cursor ∨ ∃ row ∈ rows, newCursor rows cursor = row.id := by
  unfold newCursor
  induction rows generalizing cursor with
  | nil => exact .inl rfl
  | cons first rest ih =>
      rw [List.foldl_cons]
      rcases ih (max cursor first.id) with same | ⟨row, member, same⟩
      · rw [same]
        rcases Nat.le_total cursor first.id with below | above
        · exact .inr ⟨first, List.mem_cons_self, Nat.max_eq_right below⟩
        · exact .inl (Nat.max_eq_left above)
      · exact .inr ⟨row, List.mem_cons_of_mem _ member, same⟩

/-- A batch has no gaps. -/
theorem mem_fetchRows_of_le (unique : ∀ row ∈ rows, ∀ other ∈ rows, other.id = row.id → other = row)
    (member : row ∈ rows) (after : cursor < row.id) (shown : row.recalled = false)
    (passed : row.id ≤ newCursor (fetchRows batch rows cursor) cursor) : row ∈ fetchRows batch rows cursor := by
  have total : Std.Total (fun first second : Row => first.id ≤ second.id) :=
    ⟨fun first second => Nat.le_total first.id second.id⟩
  have trans : IsTrans Row (fun first second => first.id ≤ second.id) :=
    ⟨fun _ _ _ lower upper => Nat.le_trans lower upper⟩
  rcases newCursor_eq (fetchRows batch rows cursor) cursor with same | ⟨last, listed, same⟩
  · omega
  · have chosen : row ∈ (rows.filter fun row => decide (cursor < row.id) && !row.recalled).insertionSort
        fun first second => first.id ≤ second.id := by
      rw [List.mem_insertionSort, List.mem_filter, decide_eq_true after, shown]
      exact ⟨member, rfl⟩
    have ascending := List.pairwise_insertionSort (fun first second : Row => first.id ≤ second.id)
      (rows.filter fun row => decide (cursor < row.id) && !row.recalled)
    unfold fetchRows at listed ⊢
    rw [← List.take_append_drop batch (List.insertionSort _ _)] at chosen ascending
    rcases List.mem_append.mp chosen with taken | left
    · exact taken
    · have above := (List.pairwise_append.mp ascending).2.2 last listed row left
      rw [unique last (mem_fetchRows listed).1 row member (by omega)]
      exact listed

end

theorem mem_fetchNew {batch : Nat} {tables : Tables} {cursor : Kind → Nat} {doc : Document} :
    doc ∈ (fetchNew batch tables cursor).1 ↔
      ∃ kind, ∃ row ∈ fetchRows batch (tables kind) (cursor kind), document kind row = doc := by
  rw [fetchNew, List.mem_append, List.mem_map, List.mem_map]
  constructor
  · rintro (first | second)
    · exact ⟨.privateChat, first⟩
    · exact ⟨.group, second⟩
  · rintro ⟨kind, found⟩
    cases kind with
    | privateChat => exact .inl found
    | group => exact .inr found

/-! ## The runs -/

/-- Whenever the cursor has reached a row that nobody has changed, its document
has been accepted. -/
def SkipsNothing (state : State) : Prop :=
  ∀ kind, ∀ row ∈ state.tables kind, (kind, row.id) ∉ state.touched →
    row.id ≤ state.worker.cursor kind → document kind row ∈ state.worker.accepted

/-- A row is committed above the cursor; the cursors are only written when
Elasticsearch has taken the batch, and no row that they pass has been committed
after the fetch. -/
def Safe (state : State) : Event → Prop
  | .commit kind row => state.worker.cursor kind < row.id
  | .sync .hset =>
      match state.worker.phase with
      | .indexed docs new => ∀ kind, ∀ row ∈ state.tables kind, (kind, row.id) ∉ state.touched →
          (document kind row ∈ docs → document kind row ∈ state.worker.accepted) ∧
          ((kind, row.id) ∈ state.late → row.id ≤ new kind → document kind row ∈ docs)
      | _ => True
  | _ => True

def Listed (tables : Tables) (docs : List Document) : Prop :=
  ∀ doc ∈ docs, ∃ row ∈ tables doc.msgKind, row.msgId = doc.msgId

/-- What the worker holds about a row in the middle of an iteration. -/
def Holds (state : State) (kind : Kind) (row : Row) : Prop :=
  let doc := document kind row
  match state.worker.phase with
  | .idle => True
  | .read cursor => (row.id ≤ cursor kind → doc ∈ state.worker.accepted ∨ (kind, row.id) ∈ state.late) ∧
      ((kind, row.id) ∈ state.late → doc ∉ state.worker.accepted)
  | .fetched docs new | .indexed docs new =>
      (row.id ≤ new kind → doc ∈ state.worker.accepted ∨ (kind, row.id) ∈ state.late ∨ doc ∈ docs) ∧
      ((kind, row.id) ∈ state.late → doc ∈ state.worker.accepted → doc ∈ docs) ∧
      (doc ∈ docs → row.id ≤ new kind)

def inFlight : Phase → List Document
  | .fetched docs _ => docs
  | .indexed docs _ => docs
  | _ => []

structure Known (state : State) : Prop where
  ids : Unique Row.id state.tables
  msgIds : Unique Row.msgId state.tables
  shown : ∀ kind, ∀ row ∈ state.tables kind, (kind, row.id) ∉ state.touched → row.recalled = false
  touched : ∀ key ∈ state.touched, ∃ row ∈ state.tables key.1, row.id = key.2
  accepted : Listed state.tables state.worker.accepted
  docs : Listed state.tables (inFlight state.worker.phase)
  holds : ∀ kind, ∀ row ∈ state.tables kind, (kind, row.id) ∉ state.touched → Holds state kind row

variable {state later : State} {kind : Kind} {row : Row} {batch : Nat} {event : Event}

theorem Listed.insert {tables : Tables} {docs : List Document} (listed : Listed tables docs) :
    Listed (tables.insert kind row) docs := by
  intro doc member
  obtain ⟨row, held, same⟩ := listed doc member
  exact ⟨row, mem_insert.mpr (.inl held), same⟩

theorem Listed.update {tables : Tables} {docs : List Document} {id : Nat} {content : String} {recalled : Bool}
    (listed : Listed tables docs) : Listed (tables.update kind id content recalled) docs := by
  intro doc member
  obtain ⟨row, held, same⟩ := listed doc member
  simp only [mem_update]
  split
  · exact ⟨_, ⟨row, held, rfl⟩, by rw [rewrite_msgId, same]⟩
  · exact ⟨row, held, same⟩

/-- A new message is not in the index yet. -/
theorem Listed.notMem {tables : Tables} {docs : List Document} (listed : Listed tables docs)
    (fresh : ∀ other ∈ tables kind, other.msgId ≠ row.msgId) : document kind row ∉ docs := by
  intro member
  obtain ⟨other, held, same⟩ := listed _ member
  exact fresh other held same

/-- A row that is there after an update and has not been touched. -/
theorem untouched_of_update {id : Nat} {content : String} {recalled : Bool} {other : Kind}
    (member : row ∈ state.tables.update kind id content recalled other)
    (untouched : (other, row.id) ∉ (kind, id) :: state.touched) :
    row ∈ state.tables other ∧ (other, row.id) ∉ state.touched :=
  ⟨mem_of_mem_update member fun same => untouched (same ▸ List.mem_cons_self),
    fun touched => untouched (List.mem_cons_of_mem _ touched)⟩

theorem Known.commit (known : Known state) (shown : row.recalled = false)
    (fresh : ∀ other ∈ state.tables kind, other.id ≠ row.id ∧ other.msgId ≠ row.msgId) :
    Known { state with tables := state.tables.insert kind row, late := (kind, row.id) :: state.late } where
  ids := known.ids.insert fun other member => (fresh other member).1
  msgIds := known.msgIds.insert fun other member => (fresh other member).2
  shown := by
    intro held other member untouched
    rcases mem_insert.mp member with earlier | ⟨_, rfl⟩
    · exact known.shown held other earlier untouched
    · exact shown
  touched := by
    intro key member
    obtain ⟨other, held, same⟩ := known.touched key member
    exact ⟨other, mem_insert.mpr (.inl held), same⟩
  accepted := known.accepted.insert
  docs := known.docs.insert
  holds := by
    intro held other member untouched
    rcases mem_insert.mp member with earlier | ⟨rfl, rfl⟩
    · have apart : (held, other.id) ≠ (kind, row.id) := by
        intro same
        obtain ⟨rfl, sameId⟩ := Prod.mk.inj same
        exact (fresh other earlier).1 sameId
      have holds := known.holds held other earlier untouched
      simpa only [Holds, List.mem_cons, apart, false_or] using holds
    · have unaccepted := known.accepted.notMem fun other member => (fresh other member).2
      have unsent := known.docs.notMem fun other member => (fresh other member).2
      unfold Holds
      cases at_phase : state.worker.phase with
      | idle => trivial
      | read cursor => exact ⟨fun _ => .inr List.mem_cons_self, fun _ => unaccepted⟩
      | fetched docs new =>
          rw [at_phase] at unsent
          exact ⟨fun _ => .inr (.inl List.mem_cons_self), fun _ taken => absurd taken unaccepted,
            fun sent => absurd sent unsent⟩
      | indexed docs new =>
          rw [at_phase] at unsent
          exact ⟨fun _ => .inr (.inl List.mem_cons_self), fun _ taken => absurd taken unaccepted,
            fun sent => absurd sent unsent⟩

theorem Known.update {id : Nat} {content : String} {recalled : Bool} (known : Known state)
    (present : ∃ row ∈ state.tables kind, row.id = id) :
    Known { state with
      tables := state.tables.update kind id content recalled
      touched := (kind, id) :: state.touched } where
  ids := known.ids.update fun _ => rewrite_id
  msgIds := known.msgIds.update fun _ => rewrite_msgId
  shown := by
    intro held other member untouched
    obtain ⟨earlier, untouched⟩ := untouched_of_update member untouched
    exact known.shown held other earlier untouched
  touched := by
    intro key member
    have kept {key : Kind × Nat} (held : ∃ row ∈ state.tables key.1, row.id = key.2) :
        ∃ row ∈ state.tables.update kind id content recalled key.1, row.id = key.2 := by
      obtain ⟨row, held, same⟩ := held
      simp only [mem_update]
      split
      · exact ⟨_, ⟨row, held, rfl⟩, by rw [rewrite_id, same]⟩
      · exact ⟨row, held, same⟩
    rcases List.mem_cons.mp member with rfl | earlier
    · exact kept present
    · exact kept (known.touched key earlier)
  accepted := known.accepted.update
  docs := known.docs.update
  holds := by
    intro held other member untouched
    obtain ⟨earlier, untouched⟩ := untouched_of_update member untouched
    exact known.holds held other earlier untouched

/-- The rows are what they were, and so is what the index has. -/
theorem Known.withWorker {worker : Worker} {late : List (Kind × Nat)} (known : Known state)
    (accepted : Listed state.tables worker.accepted) (docs : Listed state.tables (inFlight worker.phase))
    (holds : ∀ kind, ∀ row ∈ state.tables kind, (kind, row.id) ∉ state.touched →
      Holds { state with worker, late } kind row) : Known { state with worker, late } where
  ids := known.ids
  msgIds := known.msgIds
  shown := known.shown
  touched := known.touched
  accepted := accepted
  docs := docs
  holds := holds

theorem Listed.append {tables : Tables} {docs more : List Document} {accepts : Document → Bool}
    (listed : Listed tables docs) (sent : Listed tables more) : Listed tables (docs ++ more.filter accepts) := by
  intro doc member
  rcases List.mem_append.mp member with earlier | added
  · exact listed doc earlier
  · exact sent doc (List.mem_of_mem_filter added)

theorem Known.fetch {cursor : Kind → Nat} (known : Known state) (at_phase : state.worker.phase = .read cursor) :
    Known { state with worker := { state.worker with
      phase := if (fetchNew batch state.tables cursor).1 = [] then .idle
        else .fetched (fetchNew batch state.tables cursor).1 (fetchNew batch state.tables cursor).2 } } := by
  have sent : Listed state.tables (fetchNew batch state.tables cursor).1 := by
    intro doc member
    obtain ⟨kind, row, fetched, rfl⟩ := mem_fetchNew.mp member
    exact ⟨row, (mem_fetchRows fetched).1, rfl⟩
  by_cases empty : (fetchNew batch state.tables cursor).1 = []
  · rw [if_pos empty]
    exact known.withWorker known.accepted nofun fun _ _ _ _ => trivial
  · rw [if_neg empty]
    refine known.withWorker known.accepted sent ?_
    intro kind row member untouched
    have holds := known.holds kind row member untouched
    simp only [Holds, at_phase] at holds
    -- the rows up to the old cursor were known, the others are in the batch
    refine ⟨fun passed => ?_, fun late taken => absurd taken (holds.2 late), fun listed => ?_⟩
    · by_cases before : row.id ≤ cursor kind
      · exact (holds.1 before).imp_right .inl
      · refine .inr (.inr (mem_fetchNew.mpr ⟨kind, row, ?_, rfl⟩))
        exact mem_fetchRows_of_le (known.ids kind) member (by omega)
          (known.shown kind row member untouched) passed
    · obtain ⟨other, found, fetched, same⟩ := mem_fetchNew.mp listed
      obtain rfl : other = kind := congrArg Document.msgKind same
      obtain rfl := known.msgIds other row member found (mem_fetchRows fetched).1 (congrArg Document.msgId same)
      exact le_newCursor.2 found fetched

theorem Known.bulk {docs : List Document} {new : Kind → Nat} {accepts : Document → Bool} (known : Known state)
    (at_phase : state.worker.phase = .fetched docs new) :
    Known { state with worker := { state.worker with
      accepted := state.worker.accepted ++ docs.filter accepts
      phase := .indexed docs new } } := by
  have sent := known.docs
  rw [at_phase] at sent
  refine known.withWorker (known.accepted.append sent) sent ?_
  intro kind row member untouched
  have holds := known.holds kind row member untouched
  simp only [Holds, at_phase] at holds
  unfold Holds
  dsimp only
  refine ⟨fun passed => (holds.1 passed).imp_left (List.mem_append_left _), fun late taken => ?_, holds.2.2⟩
  rcases List.mem_append.mp taken with earlier | added
  · exact holds.2.1 late earlier
  · exact List.mem_of_mem_filter added

theorem Known.sync {operation : Operation} {worker : Worker} (known : Known state) (skips : SkipsNothing state)
    (stepped : state.worker.step batch state.tables operation = some worker) :
    Known { state with worker, late := if operation.begins then [] else state.late } := by
  cases operation with
  | readCursor =>
      simp only [Worker.step] at stepped
      split at stepped <;> cases stepped
      refine known.withWorker known.accepted nofun ?_
      intro kind row member untouched
      exact ⟨fun reached => .inl (skips kind row member untouched reached), nofun⟩
  | fetch =>
      simp only [Worker.step] at stepped
      split at stepped <;> cases stepped
      rename_i at_phase
      exact known.fetch at_phase
  | bulk accepts =>
      simp only [Worker.step] at stepped
      split at stepped <;> cases stepped
      rename_i at_phase
      exact known.bulk at_phase
  | bulkFails accepts =>
      simp only [Worker.step] at stepped
      split at stepped <;> cases stepped
      rename_i at_phase
      have sent := known.docs
      rw [at_phase] at sent
      exact known.withWorker (known.accepted.append sent) nofun fun _ _ _ _ => trivial
  | hset =>
      simp only [Worker.step] at stepped
      split at stepped <;> cases stepped
      exact known.withWorker known.accepted nofun fun _ _ _ _ => trivial
  | crash =>
      cases stepped
      exact known.withWorker known.accepted nofun fun _ _ _ _ => trivial
  | restore cursor =>
      simp only [Worker.step] at stepped
      split at stepped <;> cases stepped
      exact known.withWorker known.accepted known.docs known.holds

theorem Known.step (known : Known state) (skips : SkipsNothing state)
    (stepped : (machine batch).step state event = some later) : Known later := by
  cases event with
  | commit kind row =>
      simp only [machine, EsSyncWorker.step] at stepped
      split at stepped <;> cases stepped
      rename_i new
      exact known.commit new.2.1 new.2.2
  | update kind id content recalled =>
      simp only [machine, EsSyncWorker.step] at stepped
      split at stepped <;> cases stepped
      rename_i present
      exact known.update present
  | sync operation =>
      obtain ⟨worker, taken, rfl⟩ := Option.map_eq_some_iff.mp stepped
      exact known.sync skips taken

/-! ## One step -/

theorem skipsNothing_commit_iff (known : Known state) (skips : SkipsNothing state) (positive : 0 < row.id)
    (fresh : ∀ other ∈ state.tables kind, other.id ≠ row.id ∧ other.msgId ≠ row.msgId) :
    SkipsNothing { state with tables := state.tables.insert kind row, late := (kind, row.id) :: state.late } ↔
      state.worker.cursor kind < row.id := by
  constructor
  · intro after
    by_contra reached
    have untouched : (kind, row.id) ∉ state.touched := by
      intro touched
      obtain ⟨other, held, same⟩ := known.touched _ touched
      exact (fresh other held).1 same
    exact known.accepted.notMem (fun other held => (fresh other held).2)
      (after kind row (mem_insert.mpr (.inr ⟨rfl, rfl⟩)) untouched (Nat.not_lt.mp reached))
  · intro above held other member untouched reached
    rcases mem_insert.mp member with earlier | ⟨rfl, rfl⟩
    · exact skips held other earlier untouched reached
    · have : other.id ≤ state.worker.cursor held := reached
      omega

theorem skipsNothing_hset_iff {docs : List Document} {new : Kind → Nat} (known : Known state)
    (at_phase : state.worker.phase = .indexed docs new) :
    SkipsNothing { state with worker := { state.worker with cursor := new, phase := .idle } } ↔
      Safe state (.sync .hset) := by
  simp only [Safe, at_phase]
  constructor
  · intro after kind row member untouched
    have holds := known.holds kind row member untouched
    simp only [Holds, at_phase] at holds
    exact ⟨fun sent => after kind row member untouched (holds.2.2 sent),
      fun late passed => holds.2.1 late (after kind row member untouched passed)⟩
  · intro safe kind row member untouched passed
    have holds := known.holds kind row member untouched
    simp only [Holds, at_phase] at holds
    obtain ⟨taken, caught⟩ := safe kind row member untouched
    rcases holds.1 passed with accepted | late | sent
    · exact accepted
    · exact taken (caught late passed)
    · exact taken sent

theorem skipsNothing_step_iff (known : Known state) (skips : SkipsNothing state)
    (stepped : (machine batch).step state event = some later) : SkipsNothing later ↔ Safe state event := by
  cases event with
  | commit kind row =>
      simp only [machine, EsSyncWorker.step] at stepped
      split at stepped <;> cases stepped
      rename_i new
      exact skipsNothing_commit_iff known skips new.1 new.2.2
  | update kind id content recalled =>
      simp only [machine, EsSyncWorker.step] at stepped
      split at stepped <;> cases stepped
      refine iff_of_true ?_ trivial
      intro held row member untouched
      obtain ⟨earlier, untouched⟩ := untouched_of_update member untouched
      exact skips held row earlier untouched
  | sync operation =>
      obtain ⟨worker, taken, rfl⟩ := Option.map_eq_some_iff.mp stepped
      cases operation with
      | hset =>
          simp only [Worker.step] at taken
          split at taken <;> cases taken
          rename_i at_phase
          exact skipsNothing_hset_iff known at_phase
      | readCursor =>
          simp only [Worker.step] at taken
          split at taken <;> cases taken
          exact iff_of_true skips trivial
      | fetch =>
          simp only [Worker.step] at taken
          split at taken <;> cases taken
          exact iff_of_true skips trivial
      | bulk accepts =>
          simp only [Worker.step] at taken
          split at taken <;> cases taken
          exact iff_of_true (fun kind row member untouched reached =>
            List.mem_append_left _ (skips kind row member untouched reached)) trivial
      | bulkFails accepts =>
          simp only [Worker.step] at taken
          split at taken <;> cases taken
          exact iff_of_true (fun kind row member untouched reached =>
            List.mem_append_left _ (skips kind row member untouched reached)) trivial
      | crash =>
          cases taken
          exact iff_of_true skips trivial
      | restore cursor =>
          simp only [Worker.step] at taken
          split at taken <;> cases taken
          rename_i lower
          refine iff_of_true (fun kind row member untouched reached => skips kind row member untouched ?_) trivial
          cases kind with
          | privateChat => exact Nat.le_trans reached lower.1
          | group => exact Nat.le_trans reached lower.2

theorem known_init : Known {} where
  ids := fun _ _ absurdly => by cases absurdly
  msgIds := fun _ _ absurdly => by cases absurdly
  shown := fun _ _ absurdly => by cases absurdly
  touched := fun _ absurdly => by cases absurdly
  accepted := nofun
  docs := nofun
  holds := fun _ _ absurdly => by cases absurdly

/-- The cursors never skip a row if and only if no row is committed below them
or passed by them in mid-iteration, and every document of a batch has been
accepted when they are written. -/
theorem skips_nothing_iff (batch : Nat) (events : List Event) :
    (machine batch).Always SkipsNothing {} events ↔ (machine batch).Meets Safe {} events :=
  Machine.always_iff_meets_of_kept Known (fun _ _ absurdly => by cases absurdly) known_init
    (fun _ _ _ known skips _ stepped => known.step skips stepped)
    fun _ _ _ known skips stepped => skipsNothing_step_iff known skips stepped

/-- Row 1 becomes visible after row 2, and Elasticsearch refuses row 3. -/
theorem late_and_refused_rows_skipped : ∃ after, (machine 100).run {} [
      .commit .privateChat ⟨2, "m2", 7, 8, "second", 1000, false⟩,
      .commit .privateChat ⟨3, "m3", 7, 8, "third", 1001, false⟩,
      .sync .readCursor, .sync .fetch, .commit .privateChat ⟨1, "m1", 8, 7, "first", 999, false⟩,
      .sync (.bulk fun doc => doc.msgId = "m2"), .sync .hset] = some after ∧
    after.worker.cursor .privateChat = 3 ∧
    document .privateChat ⟨1, "m1", 8, 7, "first", 999, false⟩ ∉ after.worker.accepted ∧
    document .privateChat ⟨3, "m3", 7, 8, "third", 1001, false⟩ ∉ after.worker.accepted ∧ ¬ SkipsNothing after := by
  refine ⟨_, rfl, rfl, by decide, by decide, fun skips => ?_⟩
  have accepted := skips .privateChat ⟨1, "m1", 8, 7, "first", 999, false⟩ (by decide) (by decide) (by decide)
  revert accepted
  decide

end MuduoIm.Tools.EsSyncWorker
