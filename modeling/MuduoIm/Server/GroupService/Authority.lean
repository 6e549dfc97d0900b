import MuduoIm.Server.GroupService.Statements

namespace MuduoIm.Server.GroupService.Authority

open MuduoIm.Transition MuduoIm.Server.GroupService.Requests MuduoIm.Server.SagaCoordinator

variable {Call : Type} [DecidableEq Call]
variable {requestOf : Call → Request} {groups : Groups} {state next : State Call} {request : Request} {author : Author}
variable {tables : Tables} {groupId userId ownerId : Int}

theorem Allowed.refl (groups : Groups) (author : Author) : Allowed groups groups author where
  removed _ _ member absent := absurd member absent
  added _ _ absent member := absurd member absent
  ended _ _ owner := .inl owner
  announced _ changed := absurd rfl changed

/-- The same groups with other members. -/
theorem Allowed.of_members {after : Tables} (same : after.groups = groups.tables.groups)
    (removed : ∀ groupId userId, (groupId, userId) ∈ groups.tables.groupMembers →
      (groupId, userId) ∉ after.groupMembers → MayRemove groups.tables groupId userId author)
    (added : ∀ groupId userId, (groupId, userId) ∉ groups.tables.groupMembers →
      (groupId, userId) ∈ after.groupMembers → MayAdd groupId userId author) :
    Allowed groups { groups with tables := after } author where
  removed := removed
  added := added
  ended groupId ownerId owner := by
    refine .inl ?_
    unfold findOwner
    rw [same]
    exact owner
  announced groupId changed := by
    have present : after.HasGroup groupId ↔ groups.tables.HasGroup groupId := by
      unfold Tables.HasGroup
      rw [same]
    simp [Groups.getAnnouncement, present] at changed

theorem findOwner_of_hasGroup (present : tables.HasGroup groupId) : ∃ ownerId, findOwner groupId tables = some ownerId := by
  obtain ⟨group, member, same⟩ := present
  have found : (tables.groups.find? fun other => other.id = groupId).isSome = true :=
    List.find?_isSome.mpr ⟨group, member, decide_eq_true same⟩
  obtain ⟨first, found⟩ := Option.isSome_iff_exists.mp found
  exact ⟨first.ownerId, by rw [findOwner, found, Option.map_some]⟩

theorem hasGroup_of_findOwner (owner : findOwner groupId tables = some ownerId) : tables.HasGroup groupId := by
  obtain ⟨group, found, _⟩ := Option.map_eq_some_iff.mp owner
  exact ⟨group, List.mem_of_find?_eq_some found, by simpa using List.find?_some found⟩

/-- What is allowed as to the rows is allowed with their announcements. -/
theorem Allowed.rewrite {after : Groups} (allowed : Allowed groups after author) :
    Allowed groups (groups.rewrite after.tables) author where
  removed := allowed.removed
  added := allowed.added
  ended := allowed.ended
  announced groupId changed := by
    by_cases before : groups.tables.HasGroup groupId
    · by_cases left : after.tables.HasGroup groupId
      · simp [Groups.getAnnouncement, Groups.rewrite, before, left] at changed
      · obtain ⟨ownerId, owner⟩ := findOwner_of_hasGroup before
        rcases allowed.ended groupId ownerId owner with stays | ⟨_, may⟩
        · exact absurd (hasGroup_of_findOwner stays) left
        · exact .inl may
    · simp [Groups.getAnnouncement, Groups.rewrite, before] at changed

/-- What the owner check leaves open until the write: the group may be gone, but
its id is not given again, and its owner does not change. -/
def OwnedBy (tables : Tables) (groupId userId : Int) : Prop :=
  groupId < tables.nextGroupId ∧ ∀ ownerId, findOwner groupId tables = some ownerId → ownerId = userId

def Checked (tables : Tables) : Request → Prop
  | .kickMember operatorId groupId targetUserId => operatorId ≠ targetUserId ∧ OwnedBy tables groupId operatorId
  | .deleteGroup userId groupId | .setAnnouncement userId groupId _ => OwnedBy tables groupId userId
  | _ => True

/-- The group that a creation knows of is its owner's. -/
structure Creation (tables : Tables) (saga : Saga GroupPayload) : Prop where
  sagaType : saga.row.sagaType = createGroupSaga.name
  owned : saga.row.payload.groupId ≠ 0 → OwnedBy tables saga.row.payload.groupId saga.row.payload.ownerId
  call : match saga.call with
    | .forward _ context => context.payload = saga.row.payload
    | .forwardFailed context => context.currentStep = 0 ∨ context.payload = saga.row.payload
    | .compensating remaining context => remaining = 0 ∨ context.payload = saga.row.payload
    | _ => True

structure Sound (requestOf : Call → Request) (state : State Call) : Prop where
  keyed : Keyed state.groups.tables
  checked : ∀ call, state.calls call = .checked → Checked state.groups.tables (requestOf call)
  creations : ∀ sagaId saga, state.sagas sagaId = some saga → Creation state.groups.tables saga

theorem OwnedBy.findOwner_eq (owned : OwnedBy tables groupId userId) (present : tables.HasGroup groupId) :
    findOwner groupId tables = some userId := by
  obtain ⟨ownerId, owner⟩ := findOwner_of_hasGroup present
  rw [owner, owned.2 _ owner]

theorem ownerCheck_passed {connected answered : Bool} {refusal : String} (keyed : Keyed groups.tables)
    (passed : ownerCheck groups connected answered userId groupId refusal = .checked) :
    OwnedBy groups.tables groupId userId := by
  unfold ownerCheck at passed
  split at passed
  · cases passed
  · cases answered with
    | false => cases passed
    | true =>
        rw [if_pos rfl] at passed
        cases owner : findOwner groupId groups.tables with
        | none =>
            rw [owner] at passed
            cases passed
        | some ownerId =>
            rw [owner] at passed
            dsimp only at passed
            split at passed
            · cases passed
            · rename_i same
              obtain ⟨group, member, here, _⟩ := keyed.findOwner_iff.mp owner
              refine ⟨?_, fun other found => ?_⟩
              · rw [← here]
                exact keyed.consistent.issued group member
              · rw [owner] at found
                cases found
                exact of_not_not same

theorem check_passed {connected answered : Bool} (keyed : Keyed groups.tables)
    (passed : check groups connected answered request = .checked) : Checked groups.tables request := by
  cases request with
  | createGroup ownerId name => trivial
  | joinGroup userId groupId => trivial
  | leaveGroup userId groupId => trivial
  | kickMember operatorId groupId targetUserId =>
      simp only [check] at passed
      split at passed
      · cases passed
      · rename_i others
        exact ⟨others, ownerCheck_passed keyed passed⟩
  | deleteGroup userId groupId => exact ownerCheck_passed keyed passed
  | setAnnouncement userId groupId announcement => exact ownerCheck_passed keyed passed
  | deleteAccount userId => trivial

/-! ## Writes -/

/-- A write that gives no id of an existing group to another owner. -/
structure Keeps (before after : Tables) : Prop where
  counter : before.nextGroupId ≤ after.nextGroupId
  owners : ∀ groupId ownerId, groupId < before.nextGroupId → findOwner groupId after = some ownerId →
    findOwner groupId before = some ownerId

theorem Keeps.refl (tables : Tables) : Keeps tables tables := ⟨Int.le_refl _, fun _ _ _ owner => owner⟩

theorem Keeps.of_subset {after : Tables} (keyed : Keyed tables) (keyedAfter : Keyed after)
    (counter : after.nextGroupId = tables.nextGroupId) (subset : ∀ group ∈ after.groups, group ∈ tables.groups) :
    Keeps tables after where
  counter := by rw [counter]
  owners groupId ownerId _ owner := by
    obtain ⟨group, member, found⟩ := keyedAfter.findOwner_iff.mp owner
    exact keyed.findOwner_iff.mpr ⟨group, subset group member, found⟩

theorem OwnedBy.keeps {after : Tables} (owned : OwnedBy tables groupId userId) (keeps : Keeps tables after) :
    OwnedBy after groupId userId :=
  ⟨Int.lt_of_lt_of_le owned.1 keeps.counter, fun ownerId owner =>
    owned.2 ownerId (keeps.owners groupId ownerId owned.1 owner)⟩

theorem Creation.keeps {after : Tables} {saga : Saga GroupPayload} (creation : Creation tables saga)
    (keeps : Keeps tables after) : Creation after saga :=
  ⟨creation.sagaType, fun known => (creation.owned known).keeps keeps, creation.call⟩

theorem Checked.keeps {after : Tables} (checked : Checked tables request) (keeps : Keeps tables after) :
    Checked after request := by
  cases request with
  | createGroup ownerId name => trivial
  | joinGroup userId groupId => trivial
  | leaveGroup userId groupId => trivial
  | kickMember operatorId groupId targetUserId => exact ⟨checked.1, checked.2.keeps keeps⟩
  | deleteGroup userId groupId => exact OwnedBy.keeps checked keeps
  | setAnnouncement userId groupId announcement => exact OwnedBy.keeps checked keeps
  | deleteAccount userId => trivial

theorem removeGroup_groups : (removeGroup groupId tables).groups =
    tables.groups.filter (fun group => group.id ≠ groupId) := rfl

theorem removeAccount_groups : (removeAccount userId tables).groups =
    tables.groups.filter (fun group => group.ownerId ≠ userId) := rfl

theorem mem_removeGroup_members {row : Int × Int} :
    row ∈ (removeGroup groupId tables).groupMembers ↔ row ∈ tables.groupMembers ∧ row.1 ≠ groupId := by
  simp only [removeGroup, deleteMembersOf, Tables.deleteGroup, List.mem_filter, decide_eq_true_eq, and_assoc,
    and_self]

/-- A membership goes with the account, or with a group that the account owned. -/
theorem removeAccount_removed (keyed : Keyed tables) {row : Int × Int} (member : row ∈ tables.groupMembers)
    (gone : row ∉ (removeAccount userId tables).groupMembers) :
    userId = row.2 ∨ findOwner row.1 tables = some userId := by
  by_contra other
  obtain ⟨notUser, notOwner⟩ := not_or.mp other
  obtain ⟨group, present, same⟩ := keyed.consistent.members row member
  have kept : group.ownerId ≠ userId := by
    intro owned
    exact notOwner (keyed.findOwner_iff.mpr ⟨group, present, same, owned⟩)
  refine gone (List.mem_filter.mpr ⟨List.mem_filter.mpr ⟨member, decide_eq_true (Ne.symm notUser)⟩, ?_⟩)
  exact decide_eq_true ⟨Ne.symm notUser, group, List.mem_filter.mpr ⟨present, decide_eq_true kept⟩, same⟩

theorem mem_tryInsertMember_imp {executed : Bool} {row : Int × Int}
    (member : row ∈ (tryInsertMember groupId userId executed tables).groupMembers) :
    row ∈ tables.groupMembers ∨ row = (groupId, userId) := by
  unfold tryInsertMember Tables.insertMember at member
  split at member
  · split at member
    · exact (List.mem_cons.mp member).symm
    · exact .inl member
  · exact .inl member

theorem tryInsertMember_keeps {executed : Bool} (keyed : Keyed tables) :
    Keeps tables (tryInsertMember groupId userId executed tables) := by
  refine Keeps.of_subset keyed (tryInsertMember_keyed keyed) ?_ fun group member => ?_
  · unfold tryInsertMember Tables.insertMember
    split
    · split <;> rfl
    · rfl
  · rw [tryInsertMember_groups] at member
    exact member

/-- Joining and the second step of a creation. -/
theorem tryInsertMember_allowed {executed : Bool} (may : MayAdd groupId userId author) :
    Allowed groups { groups with tables := tryInsertMember groupId userId executed groups.tables } author := by
  refine Allowed.of_members tryInsertMember_groups ?_ ?_
  · intro group user member gone
    exact absurd (mem_tryInsertMember member) gone
  · intro group user absent member
    obtain before | same := mem_tryInsertMember_imp member
    · exact absurd before absent
    · cases same
      exact may

/-- Leaving and kicking. -/
theorem deleteMember_allowed (may : (groupId, userId) ∈ groups.tables.groupMembers →
    MayRemove groups.tables groupId userId author) :
    Allowed groups { groups with tables := groups.tables.deleteMember groupId userId } author := by
  refine Allowed.of_members rfl ?_ ?_
  · intro group user member gone
    by_cases same : (group, user) = (groupId, userId)
    · cases same
      exact may member
    · exact absurd (List.mem_filter.mpr ⟨member, decide_eq_true same⟩) gone
  · intro group user absent member
    exact absurd (List.mem_filter.mp member).1 absent

theorem getAnnouncement_of_absent (absent : ¬ groups.tables.HasGroup groupId) : groups.getAnnouncement groupId = "" :=
  if_neg absent

/-- Both deletions take groups away and leave the others as they are. -/
theorem removal_allowed {after : Tables} {kept : Group → Bool} (keyed : Keyed groups.tables) (keyedAfter : Keyed after)
    (same : after.groups = groups.tables.groups.filter kept)
    (gone : ∀ group ∈ groups.tables.groups, kept group = false → MayEnd groups.tables group.id author)
    (removed : ∀ groupId userId, (groupId, userId) ∈ groups.tables.groupMembers →
      (groupId, userId) ∉ after.groupMembers → MayRemove groups.tables groupId userId author)
    (subset : ∀ row ∈ after.groupMembers, row ∈ groups.tables.groupMembers) :
    Allowed groups { groups with tables := after } author where
  removed := removed
  added groupId userId absent member := absurd (subset _ member) absent
  ended groupId ownerId owner := by
    obtain ⟨group, member, rfl, rfl⟩ := keyed.findOwner_iff.mp owner
    cases stays : kept group with
    | true =>
        refine .inl (keyedAfter.findOwner_iff.mpr ⟨group, ?_, rfl, rfl⟩)
        rw [same]
        exact List.mem_filter.mpr ⟨member, stays⟩
    | false =>
        refine .inr ⟨?_, gone group member stays⟩
        cases left : findOwner group.id after with
        | none => rfl
        | some other =>
            obtain ⟨found, among, id, _⟩ := keyedAfter.findOwner_iff.mp left
            rw [same] at among
            obtain ⟨before, keeps⟩ := List.mem_filter.mp among
            rw [keyed.unique found before group member id, stays] at keeps
            cases keeps
  announced groupId changed := by
    by_cases present : groups.tables.HasGroup groupId
    · obtain ⟨group, member, rfl⟩ := present
      cases stays : kept group with
      | true =>
          have remains : after.HasGroup group.id := by
            refine ⟨group, ?_, rfl⟩
            rw [same]
            exact List.mem_filter.mpr ⟨member, stays⟩
          have before : groups.tables.HasGroup group.id := ⟨group, member, rfl⟩
          simp [Groups.getAnnouncement, remains, before] at changed
      | false => exact .inl (gone group member stays)
    · have absent : ¬ after.HasGroup groupId := by
        intro left
        obtain ⟨group, member, id⟩ := left
        rw [same] at member
        exact present ⟨group, (List.mem_filter.mp member).1, id⟩
      rw [getAnnouncement_of_absent present, getAnnouncement_of_absent absent] at changed
      exact absurd rfl changed

theorem insertGroup_allowed {name : String} (keyed : Keyed groups.tables) :
    Allowed groups { tables := withGroup ownerId name groups.tables
                     announcements := Function.update groups.announcements groups.tables.nextGroupId "" } author where
  removed groupId userId member gone := absurd member gone
  added groupId userId absent member := absurd member absent
  ended groupId owner found := by
    obtain ⟨group, member, same⟩ := keyed.findOwner_iff.mp found
    exact .inl ((withGroup_keyed keyed).findOwner_iff.mpr ⟨group, List.mem_cons_of_mem _ member, same⟩)
  announced groupId changed := by
    have fresh := keyed.consistent.fresh.1
    by_cases new : groupId = groups.tables.nextGroupId
    · rw [new, getAnnouncement_of_absent fresh] at changed
      simp [Groups.getAnnouncement] at changed
    · have present : (withGroup ownerId name groups.tables).HasGroup groupId ↔ groups.tables.HasGroup groupId := by
        simp [withGroup, Tables.HasGroup, Ne.symm new]
      simp [Groups.getAnnouncement, present, Function.update_of_ne new] at changed

theorem updateAnnouncement_allowed {announcement : String} (owned : OwnedBy groups.tables groupId userId) :
    Allowed groups (updateAnnouncement groupId announcement groups)
      (.request (.setAnnouncement userId groupId announcement)) := by
  unfold updateAnnouncement
  split
  · rename_i present
    refine ⟨fun _ _ member gone => absurd member gone, fun _ _ absent member => absurd member absent,
      fun _ _ owner => .inl owner, fun other changed => .inr ?_⟩
    by_cases meant : other = groupId
    · rw [meant]
      exact ⟨userId, owned.findOwner_eq present, by simp [Groups.getAnnouncement, present]⟩
    · simp [Groups.getAnnouncement, Function.update_of_ne meant] at changed
  · exact Allowed.refl _ _

theorem removeGroup_keyed (keyed : Keyed tables) : Keyed (removeGroup groupId tables) := deleteGroup_keyed keyed

theorem removeAccount_keyed (keyed : Keyed tables) : Keyed (removeAccount userId tables) := deleteAccount_keyed keyed

/-- A write that is allowed and keeps what the keys and the checks rest on. -/
structure Kept (before : Groups) (after : Groups) (author : Author) : Prop where
  allowed : Allowed before after author
  keyed : Keyed after.tables
  keeps : Keeps before.tables after.tables

theorem Kept.refl (keyed : Keyed groups.tables) (author : Author) : Kept groups groups author :=
  ⟨Allowed.refl _ _, keyed, Keeps.refl _⟩

theorem Kept.rewrite {after : Groups} (kept : Kept groups after author) : Kept groups (groups.rewrite after.tables) author :=
  ⟨kept.allowed.rewrite, kept.keyed, kept.keeps⟩

theorem insertGroup_kept {name : String} (keyed : Keyed groups.tables) :
    Kept groups { tables := withGroup ownerId name groups.tables
                  announcements := Function.update groups.announcements groups.tables.nextGroupId "" } author := by
  refine ⟨insertGroup_allowed keyed, withGroup_keyed keyed, Int.le_of_lt (Int.lt_succ _), ?_⟩
  intro groupId owner issued found
  obtain ⟨group, member, same, owns⟩ := (withGroup_keyed keyed).findOwner_iff.mp found
  obtain new | older := List.mem_cons.mp member
  · rw [new] at same
    dsimp only at same
    omega
  · exact keyed.findOwner_iff.mpr ⟨group, older, same, owns⟩

theorem tryInsertMember_kept {executed : Bool} (keyed : Keyed groups.tables) (may : MayAdd groupId userId author) :
    Kept groups { groups with tables := tryInsertMember groupId userId executed groups.tables } author :=
  ⟨tryInsertMember_allowed may, tryInsertMember_keyed keyed, tryInsertMember_keeps keyed⟩

theorem deleteMember_kept (keyed : Keyed groups.tables) (may : (groupId, userId) ∈ groups.tables.groupMembers →
      MayRemove groups.tables groupId userId author) :
    Kept groups { groups with tables := groups.tables.deleteMember groupId userId } author :=
  ⟨deleteMember_allowed may, deleteMember_keyed keyed,
    Keeps.of_subset keyed (deleteMember_keyed keyed) rfl fun _ => id⟩

theorem removeGroup_kept (keyed : Keyed groups.tables) (owned : OwnedBy groups.tables groupId userId) :
    Kept groups { groups with tables := removeGroup groupId groups.tables } (.request (.deleteGroup userId groupId)) := by
  have owner (present : groups.tables.HasGroup groupId) := owned.findOwner_eq present
  refine ⟨removal_allowed keyed (removeGroup_keyed keyed) removeGroup_groups ?_ ?_ ?_,
    removeGroup_keyed keyed,
    Keeps.of_subset keyed (removeGroup_keyed keyed) rfl fun group member => (List.mem_filter.mp member).1⟩
  · intro group member gone
    have meant : group.id = groupId := by simpa using gone
    exact ⟨meant.symm, meant ▸ owner ⟨group, member, meant⟩⟩
  · intro group user member gone
    rw [mem_removeGroup_members] at gone
    have meant : group = groupId := by
      by_contra other
      exact gone ⟨member, other⟩
    rw [meant] at member ⊢
    exact ⟨rfl, owner (keyed.consistent.members _ member)⟩
  · exact fun row member => (mem_removeGroup_members.mp member).1

theorem removeAccount_kept (keyed : Keyed groups.tables) :
    Kept groups { groups with tables := removeAccount userId groups.tables } (.request (.deleteAccount userId)) := by
  refine ⟨removal_allowed keyed (removeAccount_keyed keyed) removeAccount_groups ?_ ?_ ?_,
    removeAccount_keyed keyed,
    Keeps.of_subset keyed (removeAccount_keyed keyed) rfl fun group member => (List.mem_filter.mp member).1⟩
  · intro group member gone
    have owns : group.ownerId = userId := by simpa using gone
    exact keyed.findOwner_iff.mpr ⟨group, member, rfl, owns⟩
  · intro group user member gone
    exact removeAccount_removed keyed member gone
  · intro row member
    exact (List.mem_filter.mp (List.mem_filter.mp member).1).1

theorem updateAnnouncement_kept {announcement : String} (keyed : Keyed groups.tables)
    (owned : OwnedBy groups.tables groupId userId) :
    Kept groups (updateAnnouncement groupId announcement groups)
      (.request (.setAnnouncement userId groupId announcement)) := by
  have tables : (updateAnnouncement groupId announcement groups).tables = groups.tables := by
    unfold updateAnnouncement
    split <;> rfl
  refine ⟨updateAnnouncement_allowed owned, ?_, ?_⟩
  · rw [tables]
    exact keyed
  · rw [tables]
    exact Keeps.refl _

/-- What a write does, one case for each request. -/
theorem write_spec (executed : Bool) (keyed : Keyed groups.tables) (checked : Checked groups.tables request) :
    Kept groups (write groups executed request).1 (.request request) := by
  have left (groupId userId : Int) (may : (groupId, userId) ∈ groups.tables.groupMembers →
      MayRemove groups.tables groupId userId (.request request)) :
      Kept groups (if executed then { groups with tables := groups.tables.deleteMember groupId userId } else groups)
        (.request request) := by
    cases executed with
    | false => exact Kept.refl keyed _
    | true => exact deleteMember_kept keyed may
  cases request with
  | createGroup ownerId name =>
      simp only [write]
      cases inserted : if executed then groups.tables.insertGroup name ownerId else none with
      | none => exact Kept.refl keyed _
      | some tables =>
          have written : tables = withGroup ownerId name groups.tables := by
            cases executed with
            | false => cases inserted
            | true => exact (insertGroup_eq_some inserted).2
          rw [written]
          exact insertGroup_kept keyed
  | joinGroup userId groupId => exact tryInsertMember_kept keyed ⟨rfl, rfl⟩
  | leaveGroup userId groupId => exact left groupId userId fun _ => ⟨rfl, rfl⟩
  | kickMember operatorId groupId targetUserId =>
      obtain ⟨others, owned⟩ := checked
      exact left groupId targetUserId fun member =>
        ⟨rfl, rfl, owned.findOwner_eq (keyed.consistent.members _ member), others⟩
  | deleteGroup userId groupId =>
      cases executed with
      | false => exact Kept.refl keyed _
      | true => exact removeGroup_kept keyed checked
  | setAnnouncement userId groupId announcement =>
      cases executed with
      | false => exact Kept.refl keyed _
      | true => exact updateAnnouncement_kept keyed checked
  | deleteAccount userId =>
      cases executed with
      | false => exact Kept.refl keyed _
      | true => exact removeAccount_kept keyed

/-! ## The steps of a creation -/

variable {saga after : Saga GroupPayload} {afterTables : Tables} {answer : Statement} {context : Context GroupPayload}
variable {sagaId : Int}

theorem insertGroupsRow_inserted (ok : (insertGroupsRow answer context tables).ok = true) :
    (insertGroupsRow answer context tables).tables = withGroup context.payload.ownerId context.payload.name tables ∧
      (insertGroupsRow answer context tables).context.payload =
        { context.payload with groupId := tables.nextGroupId } := by
  unfold insertGroupsRow at ok ⊢
  split at ok
  · cases ok
  · split at ok
    · cases ok
    · rename_i given _ inserted written
      rw [if_neg given]
      split at written
      · exact ⟨(insertGroup_eq_some written).2, rfl⟩
      · cases written

theorem insertOwnerMembership_inserted (ok : (insertOwnerMembership answer context tables).ok = true) :
    (insertOwnerMembership answer context tables).tables =
      tryInsertMember context.payload.groupId context.payload.ownerId true tables := by
  unfold insertOwnerMembership at ok ⊢
  split at ok
  · cases ok
  · split at ok
    · cases ok
    · rename_i given _ inserted written
      rw [if_neg given]
      split at written
      · rw [tryInsertMember, if_pos rfl, written, Option.getD_some]
      · cases written

theorem deleteGroupsRow_cases : (deleteGroupsRow answer context tables).context = context ∧
    ((deleteGroupsRow answer context tables).tables = tables ∨ (context.payload.groupId ≠ 0 ∧
      (deleteGroupsRow answer context tables).tables = tables.deleteGroup context.payload.groupId)) := by
  unfold deleteGroupsRow
  split
  · exact ⟨rfl, .inl rfl⟩
  · rename_i known
    refine ⟨rfl, ?_⟩
    dsimp only
    split
    · exact .inr ⟨known, rfl⟩
    · exact .inl rfl

theorem deleteOwnerMembership_cases : (deleteOwnerMembership answer context tables).context = context ∧
    ((deleteOwnerMembership answer context tables).tables = tables ∨ (context.payload.groupId ≠ 0 ∧
      (deleteOwnerMembership answer context tables).tables =
        tables.deleteMember context.payload.groupId context.payload.ownerId)) := by
  unfold deleteOwnerMembership
  split
  · exact ⟨rfl, .inl rfl⟩
  · rename_i known
    refine ⟨rfl, ?_⟩
    dsimp only
    split
    · exact .inr ⟨(not_or.mp known).1, rfl⟩
    · exact .inl rfl

/-- The author of the steps of a saga. -/
def creator (saga : Saga GroupPayload) : Author := .creation saga.row.payload.ownerId saga.row.payload.groupId

theorem deleteGroup_kept (keyed : Keyed groups.tables) (owned : OwnedBy groups.tables groupId ownerId) :
    Kept groups { groups with tables := groups.tables.deleteGroup groupId } (.creation ownerId groupId) := by
  have keyedAfter : Keyed (groups.tables.deleteGroup groupId) :=
    keyed.of_subset (Tables.deleteGroup_consistent keyed.consistent) fun group member => (List.mem_filter.mp member).1
  refine ⟨removal_allowed keyed keyedAfter rfl ?_ ?_ ?_, keyedAfter,
    Keeps.of_subset keyed keyedAfter rfl fun group member => (List.mem_filter.mp member).1⟩
  · intro group member gone
    have meant : group.id = groupId := by simpa using gone
    exact ⟨meant.symm, meant ▸ owned.findOwner_eq ⟨group, member, meant⟩⟩
  · intro group user member gone
    have meant : group = groupId := by
      by_contra other
      exact gone (List.mem_filter.mpr ⟨member, decide_eq_true other⟩)
    rw [meant] at member ⊢
    exact ⟨rfl, owned.findOwner_eq (keyed.consistent.members _ member)⟩
  · exact fun row member => (List.mem_filter.mp member).1

/-- A step that leaves the tables alone. -/
theorem Kept.idle (keyed : Keyed groups.tables) (author : Author) : Kept groups (groups.rewrite groups.tables) author :=
  (Kept.refl keyed author).rewrite

theorem withGroup_owned (keyed : Keyed tables) (ownerId : Int) (name : String) :
    OwnedBy (withGroup ownerId name tables) tables.nextGroupId ownerId := by
  refine ⟨Int.lt_succ _, fun other found => ?_⟩
  obtain ⟨group, member, same, owns⟩ := (withGroup_keyed keyed).findOwner_iff.mp found
  rcases List.mem_cons.mp member with rfl | older
  · exact owns.symm
  · have := keyed.consistent.issued group older
    omega

/-- After a forward transaction the context has the payload of the row, unless
step 1 has failed and nothing is to be compensated. -/
theorem Creation.attempted {attempt : Attempt Tables GroupPayload} {i : Nat}
    (sagaType : attempt.row.sagaType = createGroupSaga.name)
    (owned : attempt.row.payload.groupId ≠ 0 →
      OwnedBy attempt.tables attempt.row.payload.groupId attempt.row.payload.ownerId)
    (stored : attempt.context.payload = attempt.row.payload ∨
      attempt.ok = false ∧ attempt.context.currentStep = 0) :
    Creation attempt.tables (saga.forwarded i attempt) := by
  refine ⟨sagaType, owned, ?_⟩
  simp only [Saga.forwarded]
  cases ok : attempt.ok with
  | true => exact stored.resolve_right fun failed => Bool.false_ne_true (failed.1.symm.trans ok)
  | false => exact stored.elim .inr fun failed => .inl failed.2

/-- The transaction of step 1. -/
theorem group_step_kept (keyed : Keyed groups.tables) (creation : Creation groups.tables saga)
    (asked : context.payload = saga.row.payload) (outcome : ForwardOutcome Statement) :
    let attempt := forward insertGroupsStep 0 context saga.row groups.tables outcome
    Kept groups (groups.rewrite attempt.tables) (creator saga) ∧ Creation attempt.tables (saga.forwarded 0 attempt) := by
  rcases forward_cases insertGroupsStep 0 context saga.row groups.tables outcome with
    ⟨refused, uncommitted, _⟩ | ⟨_, newRow, answer, ok, written, left⟩
  · obtain ⟨sameRow, sameTables, atZero, _⟩ := forward_failed_row (fun _ _ _ => insertGroupsRow_step) uncommitted
    dsimp only
    refine ⟨by rw [sameTables]; exact Kept.idle keyed _, Creation.attempted ?_ ?_ (.inr ⟨refused, atZero⟩)⟩
    · rw [sameRow]
      exact creation.sagaType
    · rw [sameRow, sameTables]
      exact creation.owned
  · obtain ⟨inserted, payload⟩ := insertGroupsRow_inserted ok
    have stored : (forward insertGroupsStep 0 context saga.row groups.tables outcome).context.payload =
        { context.payload with groupId := groups.tables.nextGroupId } := by
      rcases left with ⟨_, left⟩ | ⟨_, _, _, left⟩ <;> rw [left] <;> exact payload
    have tables := written.trans inserted
    dsimp only at tables ⊢
    rw [asked] at tables stored
    refine ⟨?_, Creation.attempted ?_ ?_ (.inl ?_)⟩
    · rw [tables]
      exact (insertGroup_kept keyed).rewrite
    · rw [newRow]
      exact creation.sagaType
    · rw [newRow, tables, stored]
      exact fun _ => withGroup_owned keyed _ _
    · rw [newRow]

/-- The transaction of step 2. -/
theorem owner_step_kept (keyed : Keyed groups.tables) (creation : Creation groups.tables saga)
    (asked : context.payload = saga.row.payload) (outcome : ForwardOutcome Statement) :
    let attempt := forward insertOwnerStep 1 context saga.row groups.tables outcome
    Kept groups (groups.rewrite attempt.tables) (creator saga) ∧ Creation attempt.tables (saga.forwarded 1 attempt) := by
  rcases forward_cases insertOwnerStep 1 context saga.row groups.tables outcome with
    ⟨refused, uncommitted, _⟩ | ⟨_, newRow, answer, ok, written, left⟩
  · obtain ⟨sameRow, sameTables, _, keptPayload⟩ :=
      forward_failed_row (fun _ _ _ => insertOwnerMembership_context.1) uncommitted
    have stored := (keptPayload fun _ _ _ => insertOwnerMembership_context.2).trans asked
    dsimp only
    refine ⟨by rw [sameTables]; exact Kept.idle keyed _, Creation.attempted ?_ ?_ (.inl ?_)⟩
    · rw [sameRow]
      exact creation.sagaType
    · rw [sameRow, sameTables]
      exact creation.owned
    · rw [stored, sameRow]
  · have tables := written.trans (insertOwnerMembership_inserted ok)
    have stored : (forward insertOwnerStep 1 context saga.row groups.tables outcome).context.payload =
        context.payload := by
      rcases left with ⟨_, left⟩ | ⟨_, _, _, left⟩ <;> rw [left] <;> exact insertOwnerMembership_context.2
    dsimp only at tables ⊢
    rw [asked] at tables stored
    have may : MayAdd saga.row.payload.groupId saga.row.payload.ownerId (creator saga) := ⟨rfl, rfl⟩
    have kept : Kept groups (groups.rewrite
        (tryInsertMember saga.row.payload.groupId saga.row.payload.ownerId true groups.tables)) (creator saga) :=
      (tryInsertMember_kept keyed may).rewrite
    refine ⟨by rw [tables]; exact kept, Creation.attempted ?_ ?_ (.inl ?_)⟩
    · rw [newRow]
      exact creation.sagaType
    · rw [newRow, tables, stored]
      exact fun known => (creation.owned known).keeps kept.keeps
    · rw [newRow]

/-- A compensation takes back what the creation knows of. -/
theorem compensation_kept {i : Nat} {step : Step Statement Tables GroupPayload} (keyed : Keyed groups.tables)
    (creation : Creation groups.tables saga) (found : createGroupSaga.steps[i]? = some step)
    (asked : context.payload = saga.row.payload) (outcome : CompensateOutcome Statement) :
    let compensation := compensate step context groups.tables outcome
    Kept groups (groups.rewrite compensation.tables) (creator saga) ∧
      compensation.context.payload = saga.row.payload := by
  rcases compensate_cases step context groups.tables outcome with
    ⟨sameContext, sameTables, _⟩ | ⟨undo, given, answer, sameContext, tables⟩
  · exact ⟨by rw [sameTables]; exact Kept.idle keyed _, by rw [sameContext]; exact asked⟩
  have undone : (undo answer context groups.tables).context = context ∧
      Kept groups (groups.rewrite (undo answer context groups.tables).tables) (creator saga) := by
    rcases (by
      have := (List.getElem?_eq_some_iff.mp found).1
      simp only [createGroupSaga, List.length_cons, List.length_nil] at this
      omega : i = 0 ∨ i = 1) with rfl | rfl
    · cases found
      cases given
      obtain ⟨same, left | ⟨known, left⟩⟩ := @deleteGroupsRow_cases groups.tables answer context
      · exact ⟨same, by rw [left]; exact Kept.idle keyed _⟩
      · rw [asked] at known left
        exact ⟨same, by rw [left]; exact (deleteGroup_kept keyed (creation.owned known)).rewrite⟩
    · cases found
      cases given
      obtain ⟨same, left | ⟨known, left⟩⟩ := @deleteOwnerMembership_cases groups.tables answer context
      · exact ⟨same, by rw [left]; exact Kept.idle keyed _⟩
      · rw [asked] at known left
        have owned := creation.owned known
        have may (member : (saga.row.payload.groupId, saga.row.payload.ownerId) ∈ groups.tables.groupMembers) :
            MayRemove groups.tables saga.row.payload.groupId saga.row.payload.ownerId (creator saga) :=
          ⟨rfl, owned.findOwner_eq (keyed.consistent.members _ member)⟩
        exact ⟨same, by rw [left]; exact (deleteMember_kept keyed may).rewrite⟩
  refine ⟨?_, by rw [sameContext, undone.1]; exact asked⟩
  rcases tables with ⟨same, _⟩ | ⟨same, _⟩
  · rw [same]
    exact Kept.idle keyed _
  · rw [same]
    exact undone.2

/-- What a step of a creation does. -/
theorem saga_spec {event : SagaEvent Statement} (keyed : Keyed groups.tables) (creation : Creation groups.tables saga)
    (stepped : sagaStep groupDefs sagaId saga groups.tables event = some (after, afterTables)) :
    Kept groups (groups.rewrite afterTables) (creator saga) ∧ Creation afterTables after := by
  have registered : groupDefs saga.row.sagaType = some createGroupSaga := by
    rw [creation.sagaType]
    exact createGroupSaga_registered
  have call := creation.call
  cases event with
  | execute loaded =>
      obtain ⟨_, _, rfl, ⟨_, rfl⟩ | rfl⟩ := executes_of_sagaStep stepped
      · exact ⟨Kept.idle keyed _, creation.sagaType, creation.owned, trivial⟩
      · exact ⟨Kept.idle keyed _, creation.sagaType, creation.owned, rfl⟩
  | forward outcome =>
      obtain ⟨i, context, definition, step, entered, same, found, rfl, rfl⟩ := forwards_of_sagaStep stepped
      rw [registered] at same
      cases same
      simp only [entered] at call
      rcases (by
        have := (List.getElem?_eq_some_iff.mp found).1
        simp only [createGroupSaga, List.length_cons, List.length_nil] at this
        omega : i = 0 ∨ i = 1) with rfl | rfl
      · cases found
        exact group_step_kept keyed creation call outcome
      · cases found
        exact owner_step_kept keyed creation call outcome
  | markDone executed =>
      obtain ⟨_, _, _, _, _, _, rfl, rfl⟩ := marksDone_of_sagaStep stepped
      cases executed <;> exact ⟨Kept.idle keyed _, creation.sagaType, creation.owned, trivial⟩
  | markCompensating executed =>
      obtain ⟨context, entered, rfl, rfl⟩ := marksCompensating_of_sagaStep stepped
      simp only [entered] at call
      cases executed <;> exact ⟨Kept.idle keyed _, creation.sagaType, creation.owned, call⟩
  | compensate outcome =>
      obtain ⟨remaining, context, definition, step, entered, same, found, rfl, rfl⟩ := compensates_of_sagaStep stepped
      rw [registered] at same
      cases same
      simp only [entered] at call
      have asked := call.resolve_left (Nat.succ_ne_zero remaining)
      obtain ⟨kept, left⟩ := compensation_kept keyed creation found asked outcome
      exact ⟨kept, creation.sagaType, fun known => (creation.owned known).keeps kept.keeps, .inr left⟩
  | markFailed executed =>
      obtain ⟨_, _, rfl, rfl⟩ := marksFailed_of_sagaStep stepped
      cases executed <;> exact ⟨Kept.idle keyed _, creation.sagaType, creation.owned, trivial⟩

/-! ## Runs -/

theorem startedRow_creation (tables : Tables) (ownerId : Int) (name : String) :
    Creation tables { row := startedRow ownerId name } := ⟨rfl, fun known => absurd rfl known, trivial⟩

/-- A write that keeps what the checks and the creations rest on keeps them. -/
theorem Sound.written {after : Groups} {phase : Phase} {call : Call} (sound : Sound requestOf state)
    (kept : Kept state.groups after author) (returned : phase ≠ .checked) :
    Sound requestOf { state with groups := after, calls := Function.update state.calls call phase } where
  keyed := kept.keyed
  checked other checked := by
    simp only [Function.update_apply] at checked
    split at checked
    · exact absurd checked returned
    · exact (sound.checked other checked).keeps kept.keeps
  creations sagaId saga found := (sound.creations sagaId saga found).keeps kept.keeps

theorem write_returns (groups : Groups) (executed : Bool) (request : Request) :
    (write groups executed request).2 ≠ .checked := by
  cases request <;> simp only [write] <;> repeat' split
  all_goals simp

theorem step_sound {event : Event Call} (sound : Sound requestOf state)
    (stepped : step requestOf state event = some next) :
    Sound requestOf next ∧
      (state.groups = next.groups ∨ ∃ author, authorOf requestOf state event = some author ∧
        Allowed state.groups next.groups author) := by
  cases event with
  | check call connected answered =>
      dsimp only [step] at stepped
      split at stepped
      · cases stepped
        refine ⟨⟨sound.keyed, fun other checked => ?_, sound.creations⟩, .inl rfl⟩
        simp only [Function.update_apply] at checked
        split at checked
        · rename_i same
          rw [same]
          exact check_passed sound.keyed checked
        · exact sound.checked other checked
      · cases stepped
  | write call executed =>
      dsimp only [step] at stepped
      split at stepped
      · rename_i checked
        cases stepped
        have kept := write_spec executed sound.keyed (sound.checked call checked)
        exact ⟨sound.written kept (write_returns _ _ _), .inr ⟨_, rfl, kept.allowed⟩⟩
      · rename_i groupId ownerId name inserted created
        cases stepped
        have kept : Kept state.groups { state.groups with
            tables := tryInsertMember groupId ownerId executed state.groups.tables } (.request (requestOf call)) := by
          rw [created]
          exact tryInsertMember_kept sound.keyed rfl
        exact ⟨sound.written kept (by simp), .inr ⟨_, rfl, kept.allowed⟩⟩
      · cases stepped
  | start sagaId ownerId name =>
      dsimp only [step] at stepped
      split at stepped <;> cases stepped
      refine ⟨⟨sound.keyed, sound.checked, fun other saga found => ?_⟩, .inl rfl⟩
      simp only [Function.update_apply] at found
      split at found
      · cases found
        exact startedRow_creation _ _ _
      · exact sound.creations other saga found
  | saga sagaId event =>
      dsimp only [step] at stepped
      split at stepped
      · cases stepped
      · rename_i saga present
        split at stepped
        · cases stepped
        · rename_i after tables taken
          cases stepped
          obtain ⟨kept, advanced⟩ := saga_spec sound.keyed (sound.creations sagaId saga present) taken
          refine ⟨⟨kept.keyed, fun call checked => (sound.checked call checked).keeps kept.keeps,
            fun other entry found => ?_⟩, .inr ⟨creator saga, by rw [authorOf, present]; rfl, kept.allowed⟩⟩
          simp only [Function.update_apply] at found
          split at found
          · cases found
            exact advanced
          · exact (sound.creations other entry found).keeps kept.keeps
  | crash =>
      cases stepped
      refine ⟨⟨sound.keyed, fun call checked => ?_, fun sagaId saga found => ?_⟩, .inl rfl⟩
      · dsimp only at checked
        cases phase : state.calls call with
        | checked => exact sound.checked call phase
        | _ =>
            rw [phase] at checked
            cases checked
      · obtain ⟨before, present, rfl⟩ := Option.map_eq_some_iff.mp found
        have creation := sound.creations sagaId before present
        exact ⟨creation.sagaType, creation.owned, trivial⟩

end MuduoIm.Server.GroupService.Authority
