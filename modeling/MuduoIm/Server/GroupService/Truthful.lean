import MuduoIm.Server.GroupService

namespace MuduoIm.Server.GroupService

open MuduoIm.Data.Text MuduoIm.Transition MuduoIm.Server.SagaCoordinator

/-! # When the reply to a creation is true

The reply is settled when the call ends.  What it says about the tables must
hold then, and for a failure also after every recovery of the saga.
-/

/-- `after` has no groups and no memberships that `before` has not. -/
def NothingCreated (before after : Tables) : Prop :=
  (∀ group ∈ after.groups, group ∈ before.groups) ∧ ∀ row ∈ after.groupMembers, row ∈ before.groupMembers

structure Truthful (ownerId : Int) (name : String) (sagaId : Int) (before : Tables) (created : Created) :
    Prop where
  success : created.reply.success = true → ∃ groupId, created.reply.groupId = some groupId ∧
    { id := groupId, name, ownerId } ∈ created.tables.groups ∧ (groupId, ownerId) ∈ created.tables.groupMembers
  failure : created.reply.success = false → NothingCreated before created.tables ∧
    ∀ row, created.row = some row → ∀ events, (recovery groupDefs sagaId).Always
      (fun state => NothingCreated before state.2) ({ row, call := .returned }, created.tables) events

/-! ## The condition -/

/-- Whether the keys of `groups` accept the row. -/
def Acceptable (ownerId : Int) (name : String) (tables : Tables) : Prop :=
  ownerId ≠ 0 ∧ tables.HasUser ownerId ∧ (varchar Tables.groupNameLimit name).isSome

instance (ownerId : Int) (name : String) (tables : Tables) : Decidable (Acceptable ownerId name tables) := by
  unfold Acceptable
  infer_instance

/-- The database commits the transaction of a forward step, if its keys let it. -/
def commits : ForwardOutcome Statement → Bool
  | .attempt answer updated committed => answer.ok && (updated && committed)
  | .answerLost answer => answer.ok
  | _ => false

/-- The answer to the COMMIT arrives. -/
def noticed : ForwardOutcome Statement → Bool
  | .answerLost _ => false
  | _ => true

/-- The DELETE of a compensation takes effect.  When BEGIN has failed it
commits by itself. -/
def undoes : CompensateOutcome Statement → Bool
  | .attempt answer began committed => answer.executed && (!began || (answer.answered && committed))
  | .noConnection => false

/-- No failure that the reply hides: the row of the saga is not there unknown to
`start`, and the load finds it; a failed step 1 is marked in the row, and one
that commits is known to have done so; a step 2 that fails, or is taken for one
that does, is compensated; of a completed saga the group id is found, and the
group has the whole name. -/
structure Reported (name : String) (answers : CreateAnswers) : Prop where
  started : answers.started ≠ .answerLost
  loaded : answers.execute.loaded = true
  marked : commits (answers.execute.forwards 0) = false → answers.execute.failed = true
  known : commits (answers.execute.forwards 0) = true → noticed (answers.execute.forwards 0) = true
  compensated : commits (answers.execute.forwards 0) = true →
    (commits (answers.execute.forwards 1) && noticed (answers.execute.forwards 1)) = false →
      undoes (answers.execute.compensations 0) = true
  read : commits (answers.execute.forwards 0) = true →
    (commits (answers.execute.forwards 1) && noticed (answers.execute.forwards 1)) = true →
      answers.found = true ∧ name.length ≤ Tables.groupNameLimit

variable {ownerId sagaId : Int} {name : String} {before tables : Tables} {answer : Statement}
variable {context : Context GroupPayload} {row : Row GroupPayload} {answers : CreateAnswers}

/-! ## The steps of the saga -/

theorem insertGroupsRow_step : (insertGroupsRow answer context tables).context.currentStep = context.currentStep := by
  unfold insertGroupsRow
  split
  · rfl
  · split <;> rfl

theorem insertOwnerMembership_context :
    (insertOwnerMembership answer context tables).context.currentStep = context.currentStep ∧
      (insertOwnerMembership answer context tables).context.payload = context.payload := by
  unfold insertOwnerMembership
  split
  · exact ⟨rfl, rfl⟩
  · split <;> exact ⟨rfl, rfl⟩

theorem createGroupSaga_keepsStep : KeepsStep createGroupSaga := by
  intro step member answer context tables
  rcases List.mem_cons.mp member with rfl | member
  · exact insertGroupsRow_step
  · cases List.mem_singleton.mp member
    exact insertOwnerMembership_context.1

/-- The tables after step 1. -/
def withGroup (ownerId : Int) (name : String) (tables : Tables) : Tables :=
  { tables with
    groups := { id := tables.nextGroupId, name := cut Tables.groupNameLimit name, ownerId } :: tables.groups
    nextGroupId := tables.nextGroupId + 1 }

/-- The tables after both steps. -/
def withOwner (ownerId : Int) (name : String) (tables : Tables) : Tables :=
  { withGroup ownerId name tables with
    groupMembers := (tables.nextGroupId, ownerId) :: tables.groupMembers }

theorem insertGroup_eq (acceptable : Acceptable ownerId name tables) :
    tables.insertGroup name ownerId = some (withGroup ownerId name tables) := by
  rw [Tables.insertGroup, if_pos acceptable.2.1, varchar_eq_cut acceptable.2.2, Option.map_some, withGroup]

theorem insertGroup_refused (given : ownerId ≠ 0) (refused : ¬Acceptable ownerId name tables) :
    tables.insertGroup name ownerId = none := by
  unfold Tables.insertGroup
  split
  · rename_i known
    cases fits : varchar Tables.groupNameLimit name with
    | none => rfl
    | some stored => exact absurd ⟨given, known, by rw [fits, Option.isSome_some]⟩ refused
  · rfl

theorem insertMember_eq (consistent : tables.GroupsConsistent) (acceptable : Acceptable ownerId name tables) :
    (withGroup ownerId name tables).insertMember tables.nextGroupId ownerId =
      some (withOwner ownerId name tables) :=
  if_pos ⟨consistent.fresh.2 ownerId, ⟨_, List.mem_cons_self, rfl⟩, acceptable.2.1⟩

theorem insertGroupsRow_ok (asked : context.payload = { ownerId, name }) (named : name ≠ "")
    (acceptable : Acceptable ownerId name tables) (executed : answer.ok = true) :
    insertGroupsRow answer context tables =
      { ok := true, tables := withGroup ownerId name tables
        context := { context with payload := { ownerId, name, groupId := tables.nextGroupId } } } := by
  unfold insertGroupsRow
  rw [asked, if_neg (not_or.mpr ⟨named, acceptable.1⟩), if_pos executed, insertGroup_eq acceptable]

theorem insertGroupsRow_refused (asked : context.payload = { ownerId, name })
    (refused : ¬Acceptable ownerId name tables ∨ answer.ok = false) :
    (insertGroupsRow answer context tables).ok = false ∧
      (insertGroupsRow answer context tables).context.payload = context.payload := by
  unfold insertGroupsRow
  rw [asked]
  split
  · exact ⟨rfl, asked⟩
  · rename_i given
    have absent : (if answer.ok then tables.insertGroup name ownerId else none) = none := by
      rcases refused with refused | refused
      · rw [insertGroup_refused (not_or.mp given).2 refused, ite_self]
      · rw [refused]
        rfl
    rw [absent]
    exact ⟨rfl, asked⟩

/-- The transaction of step 1. -/
theorem forward_group (context : Context GroupPayload) (row : Row GroupPayload) (tables : Tables)
    (asked : context.payload = { ownerId, name }) (named : name ≠ "") (outcome : ForwardOutcome Statement) :
    let attempt := forward insertGroupsStep 0 context row tables outcome
    if Acceptable ownerId name tables ∧ commits outcome = true then
      attempt.ok = noticed outcome ∧ attempt.tables = withGroup ownerId name tables ∧
        attempt.context.payload = { ownerId, name, groupId := tables.nextGroupId } ∧
        attempt.context.currentStep = 0 ∧
        attempt.row = { row with currentStep := 1, payload := { ownerId, name, groupId := tables.nextGroupId } }
    else attempt.ok = false ∧ attempt.committed = false := by
  obtain ⟨sagaId, sagaType, payload, currentStep, lastError⟩ := context
  cases asked
  let entered : Context GroupPayload :=
    { sagaId, sagaType, payload := { ownerId, name }, currentStep := 0, lastError }
  have succeeds (answer : Statement) (acceptable : Acceptable ownerId name tables) (executed : answer.ok = true) :
      insertGroupsRow answer entered tables = _ := insertGroupsRow_ok rfl named acceptable executed
  have fails (answer : Statement) (refused : ¬(Acceptable ownerId name tables ∧ answer.ok = true)) :
      (insertGroupsRow answer entered tables).ok = false := by
    refine (insertGroupsRow_refused rfl ?_).1
    rcases not_and_or.mp refused with refused | dropped
    · exact .inl refused
    · exact .inr (Bool.eq_false_iff.mpr dropped)
  simp only [entered] at succeeds fails
  cases outcome with
  | noConnection => simp [commits, forward]
  | beginFailed => simp [commits, forward]
  | attempt answer updated committed =>
      by_cases taken : Acceptable ownerId name tables ∧ answer.ok = true
      · have result := succeeds answer taken.1 taken.2
        cases updated <;> cases committed <;>
          simp [forward, insertGroupsStep, result, commits, noticed, taken.1, taken.2]
      · have skipped : ¬(Acceptable ownerId name tables ∧
            commits (.attempt answer updated committed) = true) := fun both =>
          taken ⟨both.1, (Bool.and_eq_true _ _ ▸ both.2 : _ ∧ _).1⟩
        rw [if_neg skipped]
        simp [forward, insertGroupsStep, fails answer taken]
  | answerLost answer =>
      by_cases taken : Acceptable ownerId name tables ∧ answer.ok = true
      · have result := succeeds answer taken.1 taken.2
        simp [forward, insertGroupsStep, result, commits, noticed, taken.1, taken.2]
      · have skipped : ¬(Acceptable ownerId name tables ∧ commits (.answerLost answer) = true) := taken
        rw [if_neg skipped]
        simp [forward, insertGroupsStep, fails answer taken]

/-- The transaction of step 2. -/
theorem forward_owner (context : Context GroupPayload) (row : Row GroupPayload)
    (consistent : tables.GroupsConsistent) (acceptable : Acceptable ownerId name tables)
    (stored : context.payload = { ownerId, name, groupId := tables.nextGroupId })
    (outcome : ForwardOutcome Statement) :
    let attempt := forward insertOwnerStep 1 context row (withGroup ownerId name tables) outcome
    if commits outcome = true then
      attempt.ok = noticed outcome ∧ attempt.tables = withOwner ownerId name tables ∧
        attempt.context.payload = { ownerId, name, groupId := tables.nextGroupId } ∧
        attempt.context.currentStep = 1 ∧
        attempt.row = { row with currentStep := 2, payload := { ownerId, name, groupId := tables.nextGroupId } }
    else attempt.ok = false ∧ attempt.committed = false := by
  obtain ⟨sagaId, sagaType, payload, currentStep, lastError⟩ := context
  cases stored
  have given : ¬(tables.nextGroupId = 0 ∨ ownerId = 0) :=
    not_or.mpr ⟨Int.ne_of_gt consistent.counter, acceptable.1⟩
  cases outcome with
  | noConnection => simp [commits, forward]
  | beginFailed => simp [commits, forward]
  | attempt answer updated committed =>
      cases executed : answer.ok <;> cases updated <;> cases committed <;>
        simp [forward, insertOwnerStep, insertOwnerMembership, if_neg given,
          insertMember_eq consistent acceptable, commits, noticed, executed, refuse]
  | answerLost answer =>
      cases executed : answer.ok <;>
        simp [forward, insertOwnerStep, insertOwnerMembership, if_neg given,
          insertMember_eq consistent acceptable, commits, noticed, executed, refuse]

/-- The compensation of step 1. -/
theorem compensate_group {groupId : Int} (stored : context.payload.groupId = groupId) (written : groupId ≠ 0)
    (outcome : CompensateOutcome Statement) :
    (compensate insertGroupsStep context tables outcome).tables =
      if undoes outcome then tables.deleteGroup groupId else tables := by
  cases outcome with
  | noConnection => rfl
  | attempt answer began committed =>
      subst stored
      cases executed : answer.executed <;> cases answered : answer.answered <;> cases began <;> cases committed <;>
        simp [compensate, insertGroupsStep, deleteGroupsRow, undoes, Statement.ok, written, executed, answered]

theorem createGroupSaga_keepsConsistent : KeepsTables Tables.GroupsConsistent createGroupSaga where
  forward := by
    intro step member answer context tables consistent
    have refused {lastError : String} : (refuse context lastError tables).tables.GroupsConsistent := consistent
    rcases List.mem_cons.mp member with rfl | member
    · simp only [insertGroupsStep, insertGroupsRow]
      split
      · exact refused
      · split
        · exact refused
        · rename_i inserted given
          split at given
          · exact Tables.insertGroup_consistent consistent given
          · cases given
    · cases List.mem_singleton.mp member
      simp only [insertOwnerStep, insertOwnerMembership]
      split
      · exact refused
      · split
        · exact refused
        · rename_i inserted given
          split at given
          · exact Tables.insertMember_consistent consistent given
          · cases given
  compensate := by
    intro step member undo given answer context tables consistent
    rcases List.mem_cons.mp member with rfl | member
    · cases given
      simp only [deleteGroupsRow]
      split
      · exact consistent
      · dsimp only
        split
        · exact Tables.deleteGroup_consistent consistent
        · exact consistent
    · cases List.mem_singleton.mp member
      cases given
      simp only [deleteOwnerMembership]
      split
      · exact consistent
      · dsimp only
        split
        · exact Tables.deleteMember_consistent consistent
        · exact consistent

/-- Creations of groups, with any crashes between, keep what the keys guarantee. -/
theorem always_groupsConsistent {state : State Tables GroupPayload} {events : List (Event Statement GroupPayload)}
    (consistent : state.tables.GroupsConsistent) :
    (machine groupDefs).Always (fun state => state.tables.GroupsConsistent) state events := by
  refine always_keepsTables (fun sagaType definition registered => ?_) consistent
  unfold groupDefs at registered
  split at registered <;> cases registered
  exact createGroupSaga_keepsConsistent

/-! ## A call of `execute` -/

theorem createGroupSaga_registered : groupDefs createGroupSaga.name = some createGroupSaga := if_pos rfl

/-- The row that step 1 commits. -/
def groupRow (ownerId : Int) (name : String) (tables : Tables) : Row GroupPayload :=
  { startedRow ownerId name with currentStep := 1, payload := { ownerId, name, groupId := tables.nextGroupId } }

variable {execution : ExecuteAnswers Statement}

/-- The call of a request is a run of the steps of its saga. -/
theorem execute_group_run (ownerId : Int) (name : String) (sagaId : Int) (execution : ExecuteAnswers Statement)
    (before : Tables) :
    let executed := execute groupDefs sagaId execution (startedRow ownerId name) before
    ∃ events after, (recovery groupDefs sagaId).run ({ row := startedRow ownerId name }, before) events =
        some (after, executed.tables) ∧ after.row = executed.row ∧ after.call = .returned :=
  execute_run createGroupSaga_registered createGroupSaga_keepsStep execution rfl (.inl rfl) (Nat.zero_le _)

theorem execute_missed (missed : execution.loaded = false) :
    execute groupDefs sagaId execution (startedRow ownerId name) before =
      { ok := false, row := startedRow ownerId name, tables := before } := by
  simp only [execute, missed, Bool.false_eq_true, if_false]

theorem execute_group_failed (sagaId : Int) (named : name ≠ "") (loaded : execution.loaded = true)
    (failed : ¬(Acceptable ownerId name before ∧ commits (execution.forwards 0) = true)) :
    let executed := execute groupDefs sagaId execution (startedRow ownerId name) before
    executed.ok = false ∧ executed.tables = before ∧ ∃ error lastError, executed.row =
      markFailed (markCompensating (startedRow ownerId name) error execution.compensating) lastError
        execution.failed := by
  have attempt := forward_group ((startedRow ownerId name).load sagaId) (startedRow ownerId name) before rfl named
    (execution.forwards 0)
  simp only [if_neg failed] at attempt
  obtain ⟨refused, uncommitted⟩ := attempt
  obtain ⟨sameRow, sameTables, atZero, _⟩ := forward_failed_row (fun _ _ _ => insertGroupsRow_step) uncommitted
  have called : execute groupDefs sagaId execution (startedRow ownerId name) before =
      conclude createGroupSaga execution (forward insertGroupsStep 0 ((startedRow ownerId name).load sagaId)
        (startedRow ownerId name) before (execution.forwards 0)) := by
    rw [execute_loaded createGroupSaga_registered loaded]
    exact congrArg _ (forwardLoop_failed refused)
  rw [called, conclude_failed refused, atZero, sameRow, sameTables]
  exact ⟨rfl, rfl, _, _, rfl⟩

/-- Step 1 has committed, but the call does not know it and compensates nothing. -/
theorem execute_group_unnoticed (sagaId : Int) (named : name ≠ "") (acceptable : Acceptable ownerId name before)
    (loaded : execution.loaded = true) (committed : commits (execution.forwards 0) = true)
    (unnoticed : noticed (execution.forwards 0) = false) :
    let executed := execute groupDefs sagaId execution (startedRow ownerId name) before
    executed.ok = false ∧ executed.tables = withGroup ownerId name before := by
  have attempt := forward_group ((startedRow ownerId name).load sagaId) (startedRow ownerId name) before rfl named
    (execution.forwards 0)
  simp only [if_pos (And.intro acceptable committed)] at attempt
  obtain ⟨ok, sameTables, _, atZero, _⟩ := attempt
  have refused := ok.trans unnoticed
  have called : execute groupDefs sagaId execution (startedRow ownerId name) before =
      conclude createGroupSaga execution (forward insertGroupsStep 0 ((startedRow ownerId name).load sagaId)
        (startedRow ownerId name) before (execution.forwards 0)) := by
    rw [execute_loaded createGroupSaga_registered loaded]
    exact congrArg _ (forwardLoop_failed refused)
  rw [called, conclude_failed refused, atZero, sameTables]
  exact ⟨rfl, rfl⟩

theorem execute_group_committed (sagaId : Int) (named : name ≠ "") (acceptable : Acceptable ownerId name before)
    (loaded : execution.loaded = true) (committed : commits (execution.forwards 0) = true)
    (known : noticed (execution.forwards 0) = true) :
    ∃ context : Context GroupPayload, context.payload = { ownerId, name, groupId := before.nextGroupId } ∧
      execute groupDefs sagaId execution (startedRow ownerId name) before =
        conclude createGroupSaga execution (forwardLoop execution.forwards [insertOwnerStep] 1 context
          (groupRow ownerId name before) (withGroup ownerId name before)) := by
  have attempt := forward_group ((startedRow ownerId name).load sagaId) (startedRow ownerId name) before rfl named
    (execution.forwards 0)
  simp only [if_pos (And.intro acceptable committed)] at attempt
  obtain ⟨ok, sameTables, stored, _, sameRow⟩ := attempt
  refine ⟨_, stored, ?_⟩
  rw [execute_loaded createGroupSaga_registered loaded]
  refine congrArg _ ((forwardLoop_ok (ok.trans known)).trans ?_)
  dsimp only
  rw [sameTables, sameRow]
  rfl

/-- What the transaction of step 2 leaves, whether the call knows of it or not. -/
def ownerTables (ownerId : Int) (name : String) (tables : Tables) (outcome : ForwardOutcome Statement) : Tables :=
  if commits outcome then withOwner ownerId name tables else withGroup ownerId name tables

def ownerRow (ownerId : Int) (name : String) (tables : Tables) (outcome : ForwardOutcome Statement) :
    Row GroupPayload :=
  { groupRow ownerId name tables with currentStep := if commits outcome then 2 else 1 }

/-- The call takes step 2 for failed, whether it has committed or not. -/
theorem forward_owner_failed {outcome : ForwardOutcome Statement} (consistent : before.GroupsConsistent)
    (acceptable : Acceptable ownerId name before)
    (stored : context.payload = { ownerId, name, groupId := before.nextGroupId })
    (failed : (commits outcome && noticed outcome) = false) :
    let attempt := forward insertOwnerStep 1 context (groupRow ownerId name before) (withGroup ownerId name before)
      outcome
    attempt.ok = false ∧ attempt.tables = ownerTables ownerId name before outcome ∧
      attempt.row = ownerRow ownerId name before outcome ∧ attempt.context.currentStep = 1 ∧
      attempt.context.payload = { ownerId, name, groupId := before.nextGroupId } := by
  have attempt := forward_owner context (groupRow ownerId name before) consistent acceptable stored outcome
  unfold ownerTables ownerRow
  cases committed : commits outcome with
  | true =>
      simp only [committed, if_true] at attempt ⊢
      obtain ⟨ok, sameTables, sameContext, atOne, sameRow⟩ := attempt
      rw [committed, Bool.true_and] at failed
      exact ⟨ok.trans failed, sameTables, sameRow, atOne, sameContext⟩
  | false =>
      simp only [committed, Bool.false_eq_true, if_false] at attempt ⊢
      obtain ⟨refused, uncommitted⟩ := attempt
      obtain ⟨sameRow, sameTables, atOne, keptPayload⟩ :=
        forward_failed_row (fun _ _ _ => insertOwnerMembership_context.1) uncommitted
      exact ⟨refused, sameTables, sameRow, atOne,
        (keptPayload fun _ _ _ => insertOwnerMembership_context.2).trans stored⟩

theorem execute_owner_failed (sagaId : Int) (consistent : before.GroupsConsistent) (named : name ≠ "")
    (acceptable : Acceptable ownerId name before) (loaded : execution.loaded = true)
    (committed : commits (execution.forwards 0) = true) (known : noticed (execution.forwards 0) = true)
    (failed : (commits (execution.forwards 1) && noticed (execution.forwards 1)) = false) :
    let executed := execute groupDefs sagaId execution (startedRow ownerId name) before
    let left := ownerTables ownerId name before (execution.forwards 1)
    executed.ok = false ∧
      executed.tables = (if undoes (execution.compensations 0) then left.deleteGroup before.nextGroupId else left) ∧
      ∃ error lastError, executed.row =
        markFailed (markCompensating (ownerRow ownerId name before (execution.forwards 1)) error
          execution.compensating) lastError execution.failed := by
  obtain ⟨context, stored, called⟩ := execute_group_committed sagaId named acceptable loaded committed known
  obtain ⟨refused, sameTables, sameRow, atOne, kept⟩ := forward_owner_failed consistent acceptable stored failed
  rw [called, forwardLoop_failed refused, conclude_failed refused, atOne, sameRow, sameTables]
  refine ⟨rfl, ?_, _, _, rfl⟩
  exact compensate_group (congrArg GroupPayload.groupId kept) (Int.ne_of_gt consistent.counter) _

theorem execute_both_committed (sagaId : Int) (consistent : before.GroupsConsistent) (named : name ≠ "")
    (acceptable : Acceptable ownerId name before) (loaded : execution.loaded = true)
    (group : commits (execution.forwards 0) = true) (known : noticed (execution.forwards 0) = true)
    (owner : (commits (execution.forwards 1) && noticed (execution.forwards 1)) = true) :
    let executed := execute groupDefs sagaId execution (startedRow ownerId name) before
    executed.ok = true ∧ executed.tables = withOwner ownerId name before ∧
      executed.row.payload.groupId = before.nextGroupId := by
  obtain ⟨context, stored, called⟩ := execute_group_committed sagaId named acceptable loaded group known
  have attempt := forward_owner context (groupRow ownerId name before) consistent acceptable stored
    (execution.forwards 1)
  obtain ⟨committed, answered⟩ := Bool.and_eq_true_iff.mp owner
  simp only [committed, if_true] at attempt
  obtain ⟨ok, sameTables, _, _, sameRow⟩ := attempt
  rw [called, forwardLoop_ok (ok.trans answered), conclude_ok (by rfl)]
  refine ⟨rfl, sameTables, ?_⟩
  show (markDone (forward insertOwnerStep 1 context _ _ _).row execution.done).payload.groupId = _
  rw [sameRow]
  cases execution.done <;> rfl

/-! ## What recovery can still do -/

theorem NothingCreated.rfl : NothingCreated before before := ⟨fun _ => id, fun _ => id⟩

/-- A row that the keys refuse is never inserted. -/
theorem stuck_refused (refused : ¬Acceptable ownerId name tables) :
    Stuck createGroupSaga 0 { ownerId, name } tables where
  fails := fun step found answer context asked => by
    cases found
    have result : (insertGroupsRow answer context tables).ok = false ∧ _ :=
      insertGroupsRow_refused asked (.inl refused)
    exact ⟨result.1, result.2.trans asked, insertGroupsRow_step⟩
  undoes := fun j _ _ below => absurd below (Nat.not_lt_zero j)

/-- A membership in a deleted group is never inserted, and nothing of the group
is left to delete. -/
theorem stuck_deleted {groupId : Int} {i : Nat} (behind : i = 1 ∨ i = 2) (written : groupId ≠ 0)
    (deleted : ¬tables.HasGroup groupId) (nothing : tables.deleteGroup groupId = tables)
    (left : tables.deleteMember groupId ownerId = tables) :
    Stuck createGroupSaga i { ownerId, name, groupId } tables where
  fails := fun step found answer context stored => by
    rcases behind with rfl | rfl
    · cases found
      refine ⟨?_, insertOwnerMembership_context.2.trans stored, insertOwnerMembership_context.1⟩
      have absent : tables.insertMember groupId ownerId = none := if_neg fun keys => deleted keys.2.1
      show (insertOwnerMembership answer context tables).ok = false
      unfold insertOwnerMembership
      rw [stored]
      split
      · rfl
      · rw [absent, ite_self]
        rfl
    · cases found
  undoes := fun j step undo below found given answer context stored => by
    rcases (by omega : j = 0 ∨ j = 1) with rfl | rfl
    · cases found
      cases given
      simp only [deleteGroupsRow, stored, if_neg written, nothing, ite_self, and_self]
    · cases found
      cases given
      unfold deleteOwnerMembership
      rw [stored]
      split
      · exact ⟨rfl, stored⟩
      · simp only [left, ite_self, stored, and_self]

/-- The new group is in no table from before. -/
theorem not_nothingCreated {after : Tables} (consistent : before.GroupsConsistent)
    (inserted : { id := before.nextGroupId, name := cut Tables.groupNameLimit name, ownerId } ∈ after.groups) :
    ¬NothingCreated before after :=
  fun nothing => absurd (consistent.issued _ (nothing.1 _ inserted)) (Int.lt_irrefl _)

/-- A saga that has to begin from step 1 creates the group after all. -/
theorem recovery_creates (consistent : before.GroupsConsistent) (named : name ≠ "")
    (acceptable : Acceptable ownerId name before) (sameType : row.sagaType = createGroupSaga.name)
    (incomplete : row.state.Incomplete) (atZero : row.currentStep = 0) (asked : row.payload = { ownerId, name }) :
    ¬∀ events, (recovery groupDefs sagaId).Always (fun state => NothingCreated before state.2)
      ({ row, call := .returned }, before) events := by
  intro always
  obtain ⟨sagaType, state, currentStep, payload, errorMsg⟩ := row
  cases sameType
  cases atZero
  cases asked
  let saga : Saga GroupPayload :=
    { row := { sagaType := createGroupSaga.name, state, payload := { ownerId, name }, errorMsg } }
  have inserted := forward_group (saga.row.load sagaId) saga.row before rfl named
    (.attempt {} true true)
  rw [if_pos ⟨acceptable, rfl⟩] at inserted
  have completed : (recovery groupDefs sagaId).run ({ saga with call := .returned }, before)
      [.restart, .saga (.execute true), .saga (.forward (.attempt {} true true))] = some (_, _) :=
    Machine.run_cons_eq_some.mpr ⟨_, rfl, recovery_cons
      (sagaStep_execute sagaId saga before createGroupSaga_registered rfl incomplete)
      (recovery_cons (sagaStep_forward sagaId before createGroupSaga_registered rfl rfl _) rfl)⟩
  have created : NothingCreated before (withGroup ownerId name before) :=
    (congrArg (NothingCreated before) inserted.2.1).mp ((always _).atEnd completed)
  exact not_nothingCreated consistent List.mem_cons_self created

/-! ## The reply -/

variable {created : Created}

theorem truthful_of_unchanged (failed : created.reply.success = false) (nothing : NothingCreated before created.tables)
    (kept : ∀ row, created.row = some row → ∀ events, (recovery groupDefs sagaId).Always (Unchanged created.tables)
      ({ row, call := .returned }, created.tables) events) : Truthful ownerId name sagaId before created where
  success := fun succeeded => by
    rw [failed] at succeeded
    cases succeeded
  failure := fun _ => ⟨nothing, fun row left events => (kept row left events).mono fun state unchanged => by
    rw [show state.2 = created.tables from unchanged]
    exact nothing⟩

/-- A failed call of `execute` reaches the reply as it is. -/
theorem createGroup_failed (named : name ≠ "") (started : answers.started = .inserted)
    (failed : (execute groupDefs answers.sagaId answers.execute (startedRow ownerId name) before).ok = false) :
    let executed := execute groupDefs answers.sagaId answers.execute (startedRow ownerId name) before
    (createGroup ownerId name answers before).reply.success = false ∧
      (createGroup ownerId name answers before).row = some executed.row ∧
      (createGroup ownerId name answers before).tables = executed.tables := by
  simp only [createGroup, if_neg named, createGroupViaSaga, started, failed, Bool.not_false, if_true, and_self]

/-- A row that is still at its start is left to recovery. -/
theorem truthful_unstarted_iff (consistent : before.GroupsConsistent) (named : name ≠ "")
    (failure : created.reply.success = false) (left : created.row = some (startedRow ownerId name))
    (tables : created.tables = before) :
    Truthful ownerId name sagaId before created ↔ ¬Acceptable ownerId name before := by
  constructor
  · intro truthful acceptable
    have always := (truthful.failure failure).2 _ left
    rw [tables] at always
    exact recovery_creates consistent named acceptable rfl (.inl rfl) rfl rfl always
  · intro refused
    refine truthful_of_unchanged failure (by rw [tables]; exact .rfl) fun row found events => ?_
    obtain rfl := Option.some.inj (left.symm.trans found)
    rw [tables]
    exact recovery_unchanged_of_stuck (stuck_refused refused) createGroupSaga_registered rfl rfl rfl

/-- A call that failed before step 1 committed: the row tells recovery to begin
again unless it is marked as failed. -/
theorem truthful_group_failed_iff (consistent : before.GroupsConsistent) (named : name ≠ "")
    (started : answers.started = .inserted) (loaded : answers.execute.loaded = true)
    (failed : ¬(Acceptable ownerId name before ∧ commits (answers.execute.forwards 0) = true)) :
    Truthful ownerId name answers.sagaId before (createGroup ownerId name answers before) ↔
      (Acceptable ownerId name before → answers.execute.failed = true) := by
  obtain ⟨ok, sameTables, error, lastError, sameRow⟩ := execute_group_failed answers.sagaId named loaded failed
  obtain ⟨failure, row, tables⟩ := createGroup_failed named started ok
  obtain ⟨sameType, atZero, asked, marked, unmarked⟩ := marks_row (startedRow ownerId name) error lastError
    answers.execute.compensating answers.execute.failed
  rw [sameRow] at row
  rw [sameTables] at tables
  constructor
  · intro truthful acceptable
    by_contra missed
    have incomplete := unmarked (Bool.eq_false_iff.mpr missed) rfl
    have always := (truthful.failure failure).2 _ row
    rw [tables] at always
    exact recovery_creates consistent named acceptable sameType incomplete atZero asked always
  · intro reported
    refine truthful_of_unchanged failure (by rw [tables]; exact .rfl) fun left found events => ?_
    obtain rfl := Option.some.inj (row.symm.trans found)
    rw [tables]
    by_cases acceptable : Acceptable ownerId name before
    · refine recovery_unchanged_of_complete ?_ rfl
      rw [marked (reported acceptable)]
      decide
    · exact recovery_unchanged_of_stuck (stuck_refused acceptable)
        ((congrArg groupDefs sameType).trans createGroupSaga_registered) atZero asked rfl

/-- A group whose COMMIT went unnoticed is there, whatever the reply. -/
theorem not_truthful_unnoticed (consistent : before.GroupsConsistent) (named : name ≠ "")
    (started : answers.started = .inserted) (acceptable : Acceptable ownerId name before)
    (loaded : answers.execute.loaded = true) (committed : commits (answers.execute.forwards 0) = true)
    (unnoticed : noticed (answers.execute.forwards 0) = false) :
    ¬Truthful ownerId name answers.sagaId before (createGroup ownerId name answers before) := by
  intro truthful
  obtain ⟨ok, left⟩ := execute_group_unnoticed answers.sagaId named acceptable loaded committed unnoticed
  obtain ⟨failure, _, tables⟩ := createGroup_failed named started ok
  have nothing := (truthful.failure failure).1
  rw [tables, left] at nothing
  exact not_nothingCreated consistent List.mem_cons_self nothing

/-- The DELETE takes back what the steps have inserted. -/
theorem deleteGroup_ownerTables (ownerId : Int) (name : String) (before : Tables)
    (outcome : ForwardOutcome Statement) :
    let after := (ownerTables ownerId name before outcome).deleteGroup before.nextGroupId
    NothingCreated before after ∧ ¬after.HasGroup before.nextGroupId ∧
      after.deleteGroup before.nextGroupId = after ∧ after.deleteMember before.nextGroupId ownerId = after := by
  have groups : (ownerTables ownerId name before outcome).groups = (withGroup ownerId name before).groups := by
    unfold ownerTables
    split <;> rfl
  have members {row : Int × Int} (member : row ∈ (ownerTables ownerId name before outcome).groupMembers)
      (other : row.1 ≠ before.nextGroupId) : row ∈ before.groupMembers := by
    unfold ownerTables at member
    split at member
    · rcases List.mem_cons.mp member with rfl | member
      · exact absurd rfl other
      · exact member
    · exact member
  refine ⟨⟨fun group member => ?_, fun row member => ?_⟩, ?_, ?_, ?_⟩
  · obtain ⟨member, other⟩ := List.mem_filter.mp member
    rw [groups] at member
    rcases List.mem_cons.mp member with rfl | member
    · exact absurd rfl (of_decide_eq_true other)
    · exact member
  · obtain ⟨member, other⟩ := List.mem_filter.mp member
    exact members member (of_decide_eq_true other)
  · intro ⟨group, member, same⟩
    exact of_decide_eq_true (List.mem_filter.mp member).2 same
  · simp only [Tables.deleteGroup, List.filter_filter, Bool.and_self]
  · have kept : ∀ row ∈ ((ownerTables ownerId name before outcome).deleteGroup before.nextGroupId).groupMembers,
        decide (row ≠ (before.nextGroupId, ownerId)) = true := by
      intro row member
      refine decide_eq_true fun same => ?_
      exact of_decide_eq_true (List.mem_filter.mp member).2 (congrArg Prod.fst same)
    simp only [Tables.deleteMember, List.filter_eq_self.mpr kept]

theorem truthful_owner_failed_iff (consistent : before.GroupsConsistent) (named : name ≠ "")
    (started : answers.started = .inserted) (acceptable : Acceptable ownerId name before)
    (loaded : answers.execute.loaded = true) (committed : commits (answers.execute.forwards 0) = true)
    (known : noticed (answers.execute.forwards 0) = true)
    (failed : (commits (answers.execute.forwards 1) && noticed (answers.execute.forwards 1)) = false) :
    Truthful ownerId name answers.sagaId before (createGroup ownerId name answers before) ↔
      undoes (answers.execute.compensations 0) = true := by
  obtain ⟨ok, after, error, lastError, sameRow⟩ :=
    execute_owner_failed answers.sagaId consistent named acceptable loaded committed known failed
  obtain ⟨failure, row, tables⟩ := createGroup_failed named started ok
  obtain ⟨sameType, position, stored, _, _⟩ := marks_row
    (ownerRow ownerId name before (answers.execute.forwards 1)) error lastError
    answers.execute.compensating answers.execute.failed
  rw [sameRow] at row
  rw [after] at tables
  cases undone : undoes (answers.execute.compensations 0) with
  | false =>
      simp only [undone, Bool.false_eq_true, if_false] at tables
      refine ⟨fun truthful => ?_, nofun⟩
      have nothing := (truthful.failure failure).1
      rw [tables] at nothing
      have inserted : { id := before.nextGroupId, name := cut Tables.groupNameLimit name, ownerId } ∈
          (ownerTables ownerId name before (answers.execute.forwards 1)).groups := by
        unfold ownerTables
        split <;> exact List.mem_cons_self
      exact absurd nothing (not_nothingCreated consistent inserted)
  | true =>
      simp only [undone, if_true] at tables
      obtain ⟨nothing, deleted, again, gone⟩ :=
        deleteGroup_ownerTables ownerId name before (answers.execute.forwards 1)
      refine ⟨fun _ => rfl, fun _ => truthful_of_unchanged failure (tables ▸ nothing) fun left found events => ?_⟩
      obtain rfl := Option.some.inj (row.symm.trans found)
      rw [tables]
      have behind : (ownerRow ownerId name before (answers.execute.forwards 1)).currentStep = 1 ∨
          (ownerRow ownerId name before (answers.execute.forwards 1)).currentStep = 2 := by
        unfold ownerRow
        split
        · exact .inr rfl
        · exact .inl rfl
      exact recovery_unchanged_of_stuck
        (stuck_deleted behind (Int.ne_of_gt consistent.counter) deleted again gone)
        ((congrArg groupDefs sameType).trans createGroupSaga_registered) position stored rfl

theorem truthful_committed_iff (consistent : before.GroupsConsistent) (named : name ≠ "")
    (started : answers.started = .inserted) (acceptable : Acceptable ownerId name before)
    (loaded : answers.execute.loaded = true) (group : commits (answers.execute.forwards 0) = true)
    (known : noticed (answers.execute.forwards 0) = true)
    (owner : (commits (answers.execute.forwards 1) && noticed (answers.execute.forwards 1)) = true) :
    Truthful ownerId name answers.sagaId before (createGroup ownerId name answers before) ↔
      answers.found = true ∧ name.length ≤ Tables.groupNameLimit := by
  obtain ⟨ok, tables, groupId⟩ :=
    execute_both_committed answers.sagaId consistent named acceptable loaded group known owner
  have written : before.nextGroupId ≠ 0 := Int.ne_of_gt consistent.counter
  cases found : answers.found with
  | true =>
      have reply : createGroup ownerId name answers before = {
          reply := { success := true, groupId := some before.nextGroupId, sagaId := some answers.sagaId }
          row := some (execute groupDefs answers.sagaId answers.execute (startedRow ownerId name) before).row
          tables := withOwner ownerId name before } := by
        simp only [createGroup, if_neg named, createGroupViaSaga, started, ok, found, groupId, if_neg written, tables,
          Bool.not_true, Bool.false_eq_true, if_false, if_true]
      rw [reply, ← cut_eq_self_iff]
      constructor
      · intro truthful
        obtain ⟨id, same, member, _⟩ := truthful.success rfl
        cases same
        rcases List.mem_cons.mp member with inserted | older
        · exact ⟨rfl, (congrArg Group.name inserted).symm⟩
        · exact absurd (consistent.issued _ older) (Int.lt_irrefl _)
      · intro ⟨_, whole⟩
        refine ⟨fun _ => ⟨_, rfl, ?_, List.mem_cons_self⟩, nofun⟩
        refine List.mem_cons.mpr (.inl ?_)
        rw [whole]
  | false =>
      refine ⟨fun truthful => ?_, nofun⟩
      simp only [createGroup, if_neg named, createGroupViaSaga, started, Bool.not_true, Bool.false_eq_true,
        if_false, ok, found, if_true, tables] at truthful
      exact absurd (truthful.failure rfl).1 (not_nothingCreated consistent List.mem_cons_self)

/-- Nothing was started, or the keys refuse the group, or no failure stays
hidden. -/
theorem createGroup_truthful_iff (ownerId : Int) (name : String) (answers : CreateAnswers) (before : Tables)
    (named : name ≠ "") (consistent : before.GroupsConsistent) :
    Truthful ownerId name answers.sagaId before (createGroup ownerId name answers before) ↔
      (answers.started ≠ .failed → Acceptable ownerId name before → Reported name answers) := by
  cases started : answers.started with
  | failed =>
      refine ⟨fun _ other => absurd rfl other, fun _ => ?_⟩
      simp only [createGroup, if_neg named, createGroupViaSaga, started]
      exact ⟨nofun, fun _ => ⟨.rfl, nofun⟩⟩
  | answerLost =>
      rw [truthful_unstarted_iff consistent named]
      · refine ⟨fun refused _ acceptable => absurd acceptable refused, fun reported acceptable => ?_⟩
        exact (reported nofun acceptable).started started
      all_goals simp only [createGroup, if_neg named, createGroupViaSaga, started]
  | inserted =>
      have attempted : StartOutcome.inserted ≠ .failed := nofun
      have known : answers.started ≠ .answerLost := by
        rw [started]
        exact nofun
      simp only [ne_eq, attempted, not_false_eq_true, forall_const]
      cases loaded : answers.execute.loaded with
      | false =>
          have called : execute groupDefs answers.sagaId answers.execute (startedRow ownerId name) before = _ :=
            execute_missed loaded
          obtain ⟨failure, row, tables⟩ := createGroup_failed named started (congrArg Executed.ok called)
          rw [called] at row tables
          rw [truthful_unstarted_iff consistent named failure row tables]
          refine ⟨fun refused acceptable => absurd acceptable refused, fun reported acceptable => ?_⟩
          have found := (reported acceptable).loaded
          rw [loaded] at found
          cases found
      | true =>
          by_cases group : Acceptable ownerId name before ∧ commits (answers.execute.forwards 0) = true
          · obtain ⟨acceptable, group⟩ := group
            simp only [acceptable, forall_const]
            cases first : noticed (answers.execute.forwards 0) with
            | false =>
                refine iff_of_false
                  (not_truthful_unnoticed consistent named started acceptable loaded group first) fun reported => ?_
                have known := reported.known group
                rw [first] at known
                cases known
            | true =>
                cases owner : commits (answers.execute.forwards 1) && noticed (answers.execute.forwards 1) with
                | false =>
                    rw [truthful_owner_failed_iff consistent named started acceptable loaded group first owner]
                    refine ⟨fun undone => ⟨known, loaded, ?_, fun _ => first, fun _ _ => undone, ?_⟩,
                      fun reported => reported.compensated group owner⟩
                    · intro absent
                      rw [group] at absent
                      cases absent
                    · intro _ done
                      rw [owner] at done
                      cases done
                | true =>
                    rw [truthful_committed_iff consistent named started acceptable loaded group first owner]
                    refine ⟨fun read => ⟨known, loaded, ?_, fun _ => first, ?_, fun _ _ => read⟩,
                      fun reported => reported.read group owner⟩
                    · intro absent
                      rw [group] at absent
                      cases absent
                    · intro _ failed
                      rw [owner] at failed
                      cases failed
          · rw [truthful_group_failed_iff consistent named started loaded group]
            refine forall_congr' fun acceptable => ?_
            have failed : commits (answers.execute.forwards 0) = false :=
              Bool.eq_false_iff.mpr fun committed => group ⟨acceptable, committed⟩
            have uncommitted (committed : commits (answers.execute.forwards 0) = true) : False := by
              rw [failed] at committed
              cases committed
            exact ⟨fun marked => ⟨known, loaded, fun _ => marked, fun committed => (uncommitted committed).elim,
              fun committed => (uncommitted committed).elim, fun committed => (uncommitted committed).elim⟩,
              fun reported => reported.marked failed⟩

/-! ## Two examples -/

private def oneUser : Tables := { users := [{ id := 7, password := "" }] }

private theorem oneUser_consistent : oneUser.GroupsConsistent := ⟨by decide, nofun, nofun⟩

/-- Everything is answered, and the load finds the row if it is told so. -/
private def answered (loaded : Bool) : CreateAnswers where
  sagaId := 1
  started := .inserted
  execute := {
    loaded
    forwards := fun _ => .attempt {} true true
    done := true
    compensating := true
    compensations := fun _ => .attempt {} true true
    failed := true }
  found := true

theorem createGroup_truthful_family :
    Truthful 7 "family" 1 oneUser (createGroup 7 "family" (answered true) oneUser) :=
  (createGroup_truthful_iff 7 "family" (answered true) oneUser (by decide) oneUser_consistent).mpr
    fun _ _ => ⟨nofun, rfl, nofun, fun _ => rfl, nofun, fun _ _ => ⟨rfl, by decide⟩⟩

private def recovered : List (RecoveryEvent Statement) :=
  [.restart, .saga (.execute true), .saga (.forward (.attempt {} true true)),
    .saga (.forward (.attempt {} true true)), .saga (.markDone true)]

/-- The replica does not have the row yet, so the reply is a failure; at the
next start the group is created. -/
theorem missed_group_created_later :
    (createGroup 7 "family" (answered false) oneUser).reply =
        { success := false, message := "saga failed (compensated)", sagaId := some 1 } ∧
      ∃ row after tables, (createGroup 7 "family" (answered false) oneUser).row = some row ∧
        (recovery groupDefs 1).run ({ row, call := .returned }, oneUser) recovered = some (after, tables) ∧
        tables.groups = [{ id := 1, name := "family", ownerId := 7 }] ∧ tables.groupMembers = [(1, 7)] ∧
        ¬Truthful 7 "family" 1 oneUser (createGroup 7 "family" (answered false) oneUser) := by
  refine ⟨by decide, _, _, _, rfl, rfl, by decide, by decide, fun truthful => ?_⟩
  have always := (truthful.failure rfl).2 _ rfl recovered
  have nothing : NothingCreated oneUser _ := always.atEnd rfl
  exact nomatch nothing.1 _ List.mem_cons_self

end MuduoIm.Server.GroupService
