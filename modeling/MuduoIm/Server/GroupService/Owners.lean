import MuduoIm.Server.FriendService.Symmetric
import MuduoIm.Server.GroupService.Requests
import MuduoIm.Server.GroupService.Truthful

namespace MuduoIm.Server.GroupService

open MuduoIm.Data.Text MuduoIm.Transition MuduoIm.Server.SagaCoordinator
open FriendService (Answers)
open Requests

/-! # Owners are members of their groups -/

structure OwnersAreMembers (tables : Tables) : Prop where
  owners : ∀ group ∈ tables.groups, (group.id, group.ownerId) ∈ tables.groupMembers
  members : ∀ row ∈ tables.groupMembers, tables.HasGroup row.1

/-- No failure leaves a group without its owner: with the row of a group its
membership is inserted, or the row is taken back; and an owner who asks to leave
is recognised, or the DELETE is not executed. -/
def KeepsOwner (tables : Tables) : Request → Prop
  | .createGroup ownerId name answers => name ≠ "" → answers.connected = true → answers.prepared = true →
      answers.group = true → (tables.insertGroup name ownerId).isSome → answers.member = true
  | .createGroupViaSaga ownerId name answers => name ≠ "" → answers.started = .inserted →
      answers.execute.loaded = true → Acceptable ownerId name tables →
        commits (answers.execute.forwards 0) = true → noticed (answers.execute.forwards 0) = true ∧
          (commits (answers.execute.forwards 1) = false → undoes (answers.execute.compensations 0) = true)
  | .leaveGroup userId groupId answers => answers.connected = true → findOwner groupId tables = some userId →
      answers.executed 0 = true → answers.selected = true
  | _ => True

/-- What the keys guarantee. -/
structure Keyed (tables : Tables) : Prop where
  consistent : tables.GroupsConsistent
  unique : ∀ group ∈ tables.groups, ∀ other ∈ tables.groups, group.id = other.id → group = other

variable {tables after : Tables} {userId groupId ownerId : Int} {name : String} {answers : Answers}

/-! ## Statements -/

theorem Keyed.of_subset (keyed : Keyed tables) (consistent : after.GroupsConsistent)
    (subset : ∀ group ∈ after.groups, group ∈ tables.groups) : Keyed after where
  consistent := consistent
  unique := fun group member other otherMember =>
    keyed.unique group (subset group member) other (subset other otherMember)

theorem Keyed.findOwner_iff (keyed : Keyed tables) :
    findOwner groupId tables = some userId ↔ ∃ group ∈ tables.groups, group.id = groupId ∧ group.ownerId = userId := by
  simp only [findOwner, Option.map_eq_some_iff]
  constructor
  · rintro ⟨group, found, owner⟩
    exact ⟨group, List.mem_of_find?_eq_some found, by simpa using List.find?_some found, owner⟩
  · rintro ⟨group, member, rfl, owner⟩
    obtain ⟨other, found⟩ := Option.isSome_iff_exists.mp
      (List.find?_isSome.mpr ⟨group, member, decide_eq_true rfl⟩ :
        (tables.groups.find? fun other => other.id = group.id).isSome = true)
    have same := keyed.unique other (List.mem_of_find?_eq_some found) group member
      (by simpa using List.find?_some found)
    exact ⟨other, found, same ▸ owner⟩

/-- A membership can go unless it is the owner's. -/
theorem deleteMember_owners_iff (keyed : Keyed tables) (owners : OwnersAreMembers tables) :
    OwnersAreMembers (tables.deleteMember groupId userId) ↔ findOwner groupId tables ≠ some userId := by
  rw [ne_eq, keyed.findOwner_iff]
  constructor
  · rintro kept ⟨group, member, rfl, rfl⟩
    have gone := of_decide_eq_true (List.mem_filter.mp (kept.owners group member)).2
    exact gone rfl
  · intro other
    refine ⟨fun group member => ?_, fun row member => owners.members row (List.mem_filter.mp member).1⟩
    refine List.mem_filter.mpr ⟨owners.owners group member, decide_eq_true fun same => other ⟨group, member, ?_⟩⟩
    exact Prod.mk.inj same

theorem deleteMember_keyed (keyed : Keyed tables) : Keyed (tables.deleteMember groupId userId) :=
  keyed.of_subset (Tables.deleteMember_consistent keyed.consistent) fun _ => id

theorem tryInsertMember_groups {executed : Bool} :
    (tryInsertMember groupId userId executed tables).groups = tables.groups := by
  unfold tryInsertMember Tables.insertMember
  split
  · split <;> rfl
  · rfl

theorem tryInsertMember_consistent {executed : Bool} (consistent : tables.GroupsConsistent) :
    (tryInsertMember groupId userId executed tables).GroupsConsistent := by
  unfold tryInsertMember
  cases inserted : if executed then tables.insertMember groupId userId else none with
  | none => exact consistent
  | some after =>
      split at inserted
      · exact Tables.insertMember_consistent consistent inserted
      · cases inserted

theorem mem_tryInsertMember {executed : Bool} {row : Int × Int} (member : row ∈ tables.groupMembers) :
    row ∈ (tryInsertMember groupId userId executed tables).groupMembers := by
  unfold tryInsertMember Tables.insertMember
  split
  · split
    · exact List.mem_cons_of_mem _ member
    · exact member
  · exact member

theorem tryInsertMember_owners {executed : Bool} (keyed : Keyed tables) (owners : OwnersAreMembers tables) :
    OwnersAreMembers (tryInsertMember groupId userId executed tables) where
  owners := by
    rw [tryInsertMember_groups]
    exact fun group member => mem_tryInsertMember (owners.owners group member)
  members := (tryInsertMember_consistent keyed.consistent).members

theorem tryInsertMember_keyed {executed : Bool} (keyed : Keyed tables) :
    Keyed (tryInsertMember groupId userId executed tables) :=
  keyed.of_subset (tryInsertMember_consistent keyed.consistent) fun group member => by
    rwa [tryInsertMember_groups] at member

theorem deleteGroup_owners (owners : OwnersAreMembers tables) :
    OwnersAreMembers ((deleteMembersOf groupId tables).deleteGroup groupId) where
  owners := fun group member => by
    obtain ⟨member, other⟩ := List.mem_filter.mp member
    exact List.mem_filter.mpr ⟨List.mem_filter.mpr ⟨owners.owners group member, other⟩, other⟩
  members := fun row member => by
    obtain ⟨member, other⟩ := List.mem_filter.mp member
    obtain ⟨group, found, same⟩ := owners.members row (List.mem_filter.mp member).1
    exact ⟨group, List.mem_filter.mpr ⟨found, by rwa [same]⟩, same⟩

theorem deleteGroup_keyed (keyed : Keyed tables) :
    Keyed ((deleteMembersOf groupId tables).deleteGroup groupId) := by
  refine keyed.of_subset (Tables.deleteGroup_consistent ?_) fun group member => (List.mem_filter.mp member).1
  exact ⟨keyed.consistent.counter, keyed.consistent.issued, fun row member =>
    keyed.consistent.members row (List.mem_filter.mp member).1⟩

/-- A deleted user takes along the groups that the user owns. -/
theorem deleteAccount_owners (owners : OwnersAreMembers tables) :
    OwnersAreMembers ((((tables.deleteFriendsOf userId).deleteMembershipsOf userId).deleteRequestsOf
      userId).deleteUser userId) where
  owners := fun group member => by
    have kept := of_decide_eq_true (List.mem_filter.mp member).2
    refine List.mem_filter.mpr ⟨List.mem_filter.mpr ⟨owners.owners group (List.mem_filter.mp member).1,
      decide_eq_true kept⟩, decide_eq_true ⟨kept, group, member, rfl⟩⟩
  members := fun row member => (of_decide_eq_true (List.mem_filter.mp member).2).2

theorem deleteAccount_keyed (keyed : Keyed tables) :
    Keyed ((((tables.deleteFriendsOf userId).deleteMembershipsOf userId).deleteRequestsOf userId).deleteUser
      userId) := by
  refine keyed.of_subset (Tables.deleteUser_consistent ?_) fun group member => (List.mem_filter.mp member).1
  have left : (tables.deleteFriendsOf userId).GroupsConsistent := keyed.consistent.of_same rfl rfl rfl
  exact (Tables.deleteMembershipsOf_consistent left).of_same rfl rfl rfl

/-! ## Creations -/

theorem withGroup_keyed (keyed : Keyed tables) : Keyed (withGroup ownerId name tables) where
  consistent := by
    refine ⟨by have := keyed.consistent.counter; simp only [withGroup]; omega, fun group member => ?_,
      fun row member => ?_⟩
    · rcases List.mem_cons.mp member with rfl | member
      · exact Int.lt_succ _
      · exact Int.lt_trans (keyed.consistent.issued group member) (Int.lt_succ _)
    · obtain ⟨group, found, same⟩ := keyed.consistent.members row member
      exact ⟨group, List.mem_cons_of_mem _ found, same⟩
  unique := by
    intro group member other otherMember same
    have issued := keyed.consistent.issued
    rcases List.mem_cons.mp member with rfl | member <;> rcases List.mem_cons.mp otherMember with rfl | otherMember
    · rfl
    · have := issued other otherMember
      dsimp only at same
      omega
    · have := issued group member
      dsimp only at same
      omega
    · exact keyed.unique group member other otherMember same

theorem withGroup_not_owners (keyed : Keyed tables) : ¬OwnersAreMembers (withGroup ownerId name tables) :=
  fun owners => keyed.consistent.fresh.2 ownerId (owners.owners _ List.mem_cons_self)

theorem withOwner_keyed (keyed : Keyed tables) : Keyed (withOwner ownerId name tables) where
  consistent := by
    have group : (withGroup ownerId name tables).GroupsConsistent := (withGroup_keyed keyed).consistent
    refine ⟨group.counter, group.issued, fun row member => ?_⟩
    rcases List.mem_cons.mp member with rfl | member
    · exact ⟨_, List.mem_cons_self, rfl⟩
    · exact group.members row member
  unique := (withGroup_keyed keyed).unique

theorem withOwner_owners (keyed : Keyed tables) (owners : OwnersAreMembers tables) :
    OwnersAreMembers (withOwner ownerId name tables) where
  owners := fun group member => by
    rcases List.mem_cons.mp member with rfl | member
    · exact List.mem_cons_self
    · exact List.mem_cons_of_mem _ (owners.owners group member)
  members := (withOwner_keyed keyed).consistent.members

theorem insertGroup_eq_some (inserted : tables.insertGroup name ownerId = some after) :
    tables.HasUser ownerId ∧ after = withGroup ownerId name tables := by
  unfold Tables.insertGroup at inserted
  split at inserted
  · rename_i known
    obtain ⟨stored, fits, rfl⟩ := Option.map_eq_some_iff.mp inserted
    have same := varchar_eq_cut (by rw [fits, Option.isSome_some])
    rw [fits, Option.some.injEq] at same
    rw [same]
    exact ⟨known, rfl⟩
  · cases inserted

theorem createGroup_iff (answers : LegacyAnswers) (keyed : Keyed tables) (owners : OwnersAreMembers tables) :
    (OwnersAreMembers (Requests.createGroup ownerId name answers tables).2 ↔
        KeepsOwner tables (.createGroup ownerId name answers)) ∧
      Keyed (Requests.createGroup ownerId name answers tables).2 := by
  obtain ⟨connected, prepared, group, member⟩ := answers
  by_cases named : name = ""
  · simp [Requests.createGroup, named, KeepsOwner, owners, keyed]
  cases inserted : tables.insertGroup name ownerId with
  | none =>
      cases connected <;> cases prepared <;> cases group <;>
        simp [Requests.createGroup, named, createGroupLegacy, KeepsOwner, owners, keyed, inserted]
  | some after =>
      obtain ⟨known, rfl⟩ := insertGroup_eq_some inserted
      have joined : (withGroup ownerId name tables).insertMember tables.nextGroupId ownerId =
          some (withOwner ownerId name tables) :=
        if_pos ⟨keyed.consistent.fresh.2 ownerId, ⟨_, List.mem_cons_self, rfl⟩, known⟩
      cases connected <;> cases prepared <;> cases group <;> cases member <;>
        simp [Requests.createGroup, named, createGroupLegacy, tryInsertMember, KeepsOwner, inserted, joined, owners,
          keyed, withGroup_not_owners keyed, withGroup_keyed keyed, withOwner_keyed keyed, withOwner_owners keyed owners]

/-- What the call of `execute` leaves is what the request leaves. -/
theorem createGroupViaSaga_tables (answers : CreateAnswers) (named : name ≠ "") (started : answers.started = .inserted) :
    (GroupService.createGroup ownerId name answers tables).tables =
      (execute groupDefs answers.sagaId answers.execute (startedRow ownerId name) tables).tables := by
  simp only [GroupService.createGroup, if_neg named, createGroupViaSaga, started]
  split
  · rfl
  · cases answers.found with
    | false => rfl
    | true =>
        simp only [if_true]
        split <;> rfl

/-- The compensation takes the row back and leaves the other owners. -/
theorem deleted_owners (keyed : Keyed tables) (owners : OwnersAreMembers tables) (outcome : ForwardOutcome Statement) :
    OwnersAreMembers ((ownerTables ownerId name tables outcome).deleteGroup tables.nextGroupId) := by
  have keyedAfter : (ownerTables ownerId name tables outcome).GroupsConsistent := by
    unfold ownerTables
    split
    · exact (withOwner_keyed keyed).consistent
    · exact (withGroup_keyed keyed).consistent
  refine ⟨fun group member => ?_, (Tables.deleteGroup_consistent keyedAfter).members⟩
  obtain ⟨member, other⟩ := List.mem_filter.mp member
  have older : group ∈ tables.groups := by
    unfold ownerTables at member
    split at member <;> rcases List.mem_cons.mp member with rfl | member
    · exact absurd rfl (of_decide_eq_true other)
    · exact member
    · exact absurd rfl (of_decide_eq_true other)
    · exact member
  refine List.mem_filter.mpr ⟨?_, other⟩
  unfold ownerTables
  split
  · exact List.mem_cons_of_mem _ (owners.owners group older)
  · exact owners.owners group older

theorem ownerTables_keyed (keyed : Keyed tables) (outcome : ForwardOutcome Statement) :
    Keyed (ownerTables ownerId name tables outcome) := by
  unfold ownerTables
  split
  · exact withOwner_keyed keyed
  · exact withGroup_keyed keyed

/-- A second step that the call takes for failed: the group goes again, or it
stays with its owner if the step has committed after all. -/
theorem owner_failed_iff (answers : ExecuteAnswers Statement) (keyed : Keyed tables)
    (owners : OwnersAreMembers tables) :
    let left := ownerTables ownerId name tables (answers.forwards 1)
    let after := if undoes (answers.compensations 0) then left.deleteGroup tables.nextGroupId else left
    (OwnersAreMembers after ↔
        (commits (answers.forwards 1) = false → undoes (answers.compensations 0) = true)) ∧ Keyed after := by
  have keyedAfter : Keyed (ownerTables ownerId name tables (answers.forwards 1)) := ownerTables_keyed keyed _
  cases undone : undoes (answers.compensations 0) with
  | true =>
      refine ⟨iff_of_true (deleted_owners keyed owners _) fun _ => rfl, ?_⟩
      exact keyedAfter.of_subset (Tables.deleteGroup_consistent keyedAfter.consistent)
        fun group member => (List.mem_filter.mp member).1
  | false =>
      refine ⟨?_, keyedAfter⟩
      cases second : commits (answers.forwards 1) with
      | true =>
          simp only [ownerTables, second, Bool.false_eq_true, if_false, if_true]
          exact iff_of_true (withOwner_owners keyed owners) nofun
      | false =>
          simp only [ownerTables, second, Bool.false_eq_true, if_false]
          exact iff_of_false (withGroup_not_owners keyed) fun undone => undone trivial

theorem createGroupViaSaga_iff (answers : CreateAnswers) (keyed : Keyed tables) (owners : OwnersAreMembers tables) :
    (OwnersAreMembers (GroupService.createGroup ownerId name answers tables).tables ↔
        KeepsOwner tables (.createGroupViaSaga ownerId name answers)) ∧
      Keyed (GroupService.createGroup ownerId name answers tables).tables := by
  by_cases named : name = ""
  · simp [GroupService.createGroup, named, KeepsOwner, owners, keyed]
  cases started : answers.started with
  | failed => simp [GroupService.createGroup, named, createGroupViaSaga, started, KeepsOwner, owners, keyed]
  | answerLost => simp [GroupService.createGroup, named, createGroupViaSaga, started, KeepsOwner, owners, keyed]
  | inserted =>
      rw [createGroupViaSaga_tables answers named started]
      cases loaded : answers.execute.loaded with
      | false =>
          rw [execute_missed loaded]
          exact ⟨iff_of_true owners fun _ _ found => absurd (loaded.symm.trans found) Bool.false_ne_true, keyed⟩
      | true =>
          by_cases first : Acceptable ownerId name tables ∧ commits (answers.execute.forwards 0) = true
          · obtain ⟨acceptable, first⟩ := first
            have asked : KeepsOwner tables (.createGroupViaSaga ownerId name answers) ↔
                noticed (answers.execute.forwards 0) = true ∧
                  (commits (answers.execute.forwards 1) = false →
                    undoes (answers.execute.compensations 0) = true) := by
              simp only [KeepsOwner, ne_eq, named, not_false_eq_true, started, loaded, acceptable, first, forall_const]
            rw [asked]
            cases known : noticed (answers.execute.forwards 0) with
            | false =>
                rw [(execute_group_unnoticed answers.sagaId named acceptable loaded first known).2]
                exact ⟨iff_of_false (withGroup_not_owners keyed) fun kept => Bool.false_ne_true kept.1,
                  withGroup_keyed keyed⟩
            | true =>
                simp only [true_and]
                cases second : commits (answers.execute.forwards 1) && noticed (answers.execute.forwards 1) with
                | true =>
                    rw [(execute_both_committed answers.sagaId keyed.consistent named acceptable loaded first known
                      second).2.1]
                    have committed := (Bool.and_eq_true_iff.mp second).1
                    refine ⟨iff_of_true (withOwner_owners keyed owners) fun failed => ?_, withOwner_keyed keyed⟩
                    exact absurd committed (ne_true_of_eq_false failed)
                | false =>
                    rw [(execute_owner_failed answers.sagaId keyed.consistent named acceptable loaded first known
                      second).2.1]
                    exact owner_failed_iff answers.execute keyed owners
          · rw [(execute_group_failed answers.sagaId named loaded first).2.1]
            exact ⟨iff_of_true owners fun _ _ _ acceptable committed => absurd ⟨acceptable, committed⟩ first, keyed⟩

/-! ## Requests and runs -/

variable {verifyPassword : String → String → Bool} {request : Request}

theorem joinGroup_keeps (keyed : Keyed tables) (owners : OwnersAreMembers tables) (userId groupId : Int)
    (answers : FriendService.Answers) :
    OwnersAreMembers (joinGroup userId groupId answers tables).2 ∧
      Keyed (joinGroup userId groupId answers tables).2 := by
  dsimp only [joinGroup]
  split
  · exact ⟨owners, keyed⟩
  · exact ⟨tryInsertMember_owners keyed owners, tryInsertMember_keyed keyed⟩

theorem leaveGroup_iff (keyed : Keyed tables) (owners : OwnersAreMembers tables) (userId groupId : Int)
    (answers : FriendService.Answers) :
    (OwnersAreMembers (leaveGroup userId groupId answers tables).2 ↔
      KeepsOwner tables (.leaveGroup userId groupId answers)) ∧
        Keyed (leaveGroup userId groupId answers tables).2 := by
  dsimp only [leaveGroup, KeepsOwner]
  cases connected : answers.connected with
  | false => exact ⟨iff_of_true owners nofun, keyed⟩
  | true =>
      by_cases owner : findOwner groupId tables = some userId
      · cases selected : answers.selected <;> cases executed : answers.executed 0 <;>
          simp [owner, owners, keyed, deleteMember_owners_iff keyed owners, deleteMember_keyed keyed]
      · cases executed : answers.executed 0 <;>
          simp [owner, owners, keyed, deleteMember_owners_iff keyed owners, deleteMember_keyed keyed]

/-- Only the owner kicks, and not himself. -/
theorem kickMember_keeps (keyed : Keyed tables) (owners : OwnersAreMembers tables)
    (operatorId groupId targetUserId : Int) (answers : FriendService.Answers) :
    OwnersAreMembers (kickMember operatorId groupId targetUserId answers tables).2 ∧
      Keyed (kickMember operatorId groupId targetUserId answers tables).2 := by
  dsimp only [kickMember]
  split
  · exact ⟨owners, keyed⟩
  · rename_i different
    split
    · exact ⟨owners, keyed⟩
    · split
      · exact ⟨owners, keyed⟩
      · rename_i owner found
        split
        · exact ⟨owners, keyed⟩
        · rename_i recognised
          split
          · refine ⟨?_, deleteMember_keyed keyed⟩
            rw [deleteMember_owners_iff keyed owners]
            rw [ne_eq, not_not] at recognised
            split at found
            · rw [found, recognised]
              exact fun same => different (Option.some.inj same)
            · cases found
          · exact ⟨owners, keyed⟩

theorem deleteGroup_keeps (keyed : Keyed tables) (owners : OwnersAreMembers tables) (userId groupId : Int)
    (answers : FriendService.Answers) :
    OwnersAreMembers (Requests.deleteGroup userId groupId answers tables).2 ∧
      Keyed (Requests.deleteGroup userId groupId answers tables).2 := by
  dsimp only [Requests.deleteGroup]
  split
  · exact ⟨owners, keyed⟩
  · split
    · exact ⟨owners, keyed⟩
    · split
      · exact ⟨owners, keyed⟩
      · exact ⟨FriendService.transaction_keeps owners (deleteGroup_owners owners),
          FriendService.transaction_keeps keyed (deleteGroup_keyed keyed)⟩

theorem deleteAccount_keeps (keyed : Keyed tables) (owners : OwnersAreMembers tables) (userId : Int)
    (password : String) (answers : FriendService.Answers) :
    OwnersAreMembers (FriendService.deleteAccount verifyPassword userId password answers tables).2 ∧
      Keyed (FriendService.deleteAccount verifyPassword userId password answers tables).2 := by
  dsimp only [FriendService.deleteAccount]
  split
  · exact ⟨owners, keyed⟩
  · split
    · exact ⟨owners, keyed⟩
    · split
      · exact ⟨owners, keyed⟩
      · exact ⟨FriendService.transaction_keeps owners (deleteAccount_owners owners),
          FriendService.transaction_keeps keyed (deleteAccount_keyed keyed)⟩

theorem handle_iff (keyed : Keyed tables) (owners : OwnersAreMembers tables) :
    (OwnersAreMembers (handle verifyPassword tables request) ↔ KeepsOwner tables request) ∧
      Keyed (handle verifyPassword tables request) := by
  cases request with
  | createGroup ownerId name answers => exact createGroup_iff answers keyed owners
  | createGroupViaSaga ownerId name answers => exact createGroupViaSaga_iff answers keyed owners
  | joinGroup userId groupId answers =>
      obtain ⟨kept, still⟩ := joinGroup_keeps keyed owners userId groupId answers
      exact ⟨iff_of_true kept trivial, still⟩
  | leaveGroup userId groupId answers => exact leaveGroup_iff keyed owners userId groupId answers
  | kickMember operatorId groupId targetUserId answers =>
      obtain ⟨kept, still⟩ := kickMember_keeps keyed owners operatorId groupId targetUserId answers
      exact ⟨iff_of_true kept trivial, still⟩
  | deleteGroup userId groupId answers =>
      obtain ⟨kept, still⟩ := deleteGroup_keeps keyed owners userId groupId answers
      exact ⟨iff_of_true kept trivial, still⟩
  | deleteAccount userId password answers =>
      obtain ⟨kept, still⟩ := deleteAccount_keeps keyed owners userId password answers
      exact ⟨iff_of_true kept trivial, still⟩

/-- From no groups on, every group has its owner as a member throughout exactly
if no request loses one. -/
theorem owners_always_members_iff (verifyPassword : String → String → Bool) (start : Tables)
    (requests : List Request) :
    let empty := { start with groups := [], groupMembers := [], nextGroupId := 1 }
    (machine verifyPassword).Always OwnersAreMembers empty requests ↔
      (machine verifyPassword).Meets KeepsOwner empty requests := by
  refine Machine.always_iff_meets_of_kept Keyed ⟨nofun, nofun⟩ ⟨⟨Int.one_pos, nofun, nofun⟩, nofun⟩ ?_ ?_
  · rintro tables request after keyed owners _ stepped
    cases stepped
    exact (handle_iff keyed owners).2
  · rintro tables request after keyed owners stepped
    cases stepped
    exact (handle_iff keyed owners).1

private def answeredGroup (selected : Bool) : Answers :=
  { connected := true, selected, active := true, executed := fun _ => true, commit := .committed }

/-- The owner leaves while the SELECT is not answered. -/
theorem owner_leaves :
    ∃ tables, (machine fun _ _ => true).run { users := [{ id := 7, password := "" }] }
        [.createGroup 7 "family" ⟨true, true, true, true⟩, .leaveGroup 7 1 (answeredGroup false)] = some tables ∧
      tables.groups = [{ id := 1, name := "family", ownerId := 7 }] ∧ tables.groupMembers = [] ∧
      ¬OwnersAreMembers tables := by
  refine ⟨_, rfl, rfl, rfl, fun owners => ?_⟩
  exact nomatch owners.owners _ List.mem_cons_self

end MuduoIm.Server.GroupService
