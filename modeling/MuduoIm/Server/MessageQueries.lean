import Mathlib.Algebra.Order.BigOperators.Group.List
import Mathlib.Algebra.Order.Group.Nat
import Mathlib.Data.Finset.Insert
import MuduoIm.Data.Json
import MuduoIm.Data.Page
import MuduoIm.Data.Text
import MuduoIm.Server.MessageStore

namespace MuduoIm.Server.MessageQueries

open MuduoIm.Data MuduoIm.Data.Text MuduoIm.Server

/-! # History and search over HTTP

The two handlers read from MySQL, a content as a `char*`; the search index and
the archive are not configured.  A user has been authenticated before.
-/

/-- A row of a message table with its column `recalled`. -/
structure Row (Columns : Type) where
  columns : Columns
  recalled : Bool := false
deriving DecidableEq, Repr

/-- The message tables, where `msg_id` is a unique key, and the pairs of a group
and a user in `group_members`, which are its primary key. -/
structure Database where
  privateMessages : List (Row PrivateMessage) := []
  groupMessages : List (Row GroupMessage) := []
  members : Finset (Int × Int) := ∅
  privateIds : (privateMessages.map (fun row => row.columns.msgId)).Nodup := by simp
  groupIds : (groupMessages.map (fun row => row.columns.msgId)).Nodup := by simp

/-- Whether a connection is acquired, and whether the queries on it have a
result.  `like` is the match of a content against an escaped keyword. -/
structure MySQL where
  connected : Bool := true
  privateResult : Bool := true
  groupResult : Bool := true
  like : String → String → Bool

namespace Row

/-- The condition of both histories on a row. -/
def listed (before timestamp : Int) (recalled : Bool) : Bool :=
  !recalled && (decide (before ≤ 0) || decide (timestamp < before))

def privateListed (userId peerId before : Int) (row : Row PrivateMessage) : Bool :=
  (decide (row.columns.fromUser = userId ∧ row.columns.toUser = peerId) ||
    decide (row.columns.fromUser = peerId ∧ row.columns.toUser = userId)) &&
    listed before row.columns.timestamp row.recalled

def groupListed (groupId before : Int) (row : Row GroupMessage) : Bool :=
  decide (row.columns.groupId = groupId) && listed before row.columns.timestamp row.recalled

def privateFound (like : String → String → Bool) (userId : Int) (keyword : String)
    (row : Row PrivateMessage) : Bool :=
  (decide (row.columns.fromUser = userId) || decide (row.columns.toUser = userId)) &&
    like keyword row.columns.content && !row.recalled

def groupFound (like : String → String → Bool) (members : Finset (Int × Int)) (userId : Int)
    (keyword : String) (row : Row GroupMessage) : Bool :=
  decide ((row.columns.groupId, userId) ∈ members) && like keyword row.columns.content && !row.recalled

end Row

section

variable (mysql : MySQL) (database : Database)

def getPrivateHistory (userId peerId : Int) (limit : Nat) (before : Int) : Json :=
  if mysql.connected && mysql.privateResult then
    .array ((page (Row.privateListed userId peerId before) (fun row => row.columns.timestamp) limit
      database.privateMessages).map (fun row => .object [
        ("content", .string (cString row.columns.content)), ("from", .integer row.columns.fromUser),
        ("msgId", .string row.columns.msgId), ("timestamp", .integer row.columns.timestamp),
        ("to", .integer row.columns.toUser)]))
  else .array []

def getGroupHistory (groupId : Int) (limit : Nat) (before : Int) : Json :=
  if mysql.connected && mysql.groupResult then
    .array ((page (Row.groupListed groupId before) (fun row => row.columns.timestamp) limit
      database.groupMessages).map (fun row => .object [
        ("content", .string (cString row.columns.content)), ("from", .integer row.columns.fromUser),
        ("msgId", .string row.columns.msgId), ("timestamp", .integer row.columns.timestamp)]))
  else .array []

/-- A parameter that is no number counts as 0. -/
def parameter (text : String) : Int := (stoll text).getD 0

def handleGetMessageHistory (userId : Int) (peerId groupId before : String) : Json :=
  if 0 < parameter groupId then getGroupHistory mysql database (parameter groupId) 50 (parameter before)
  else getPrivateHistory mysql database userId (parameter peerId) 50 (parameter before)

def foundPrivate (userId : Int) (keyword : String) (limit : Nat) : List Json :=
  if mysql.privateResult then
    (page (Row.privateFound mysql.like userId keyword) (fun row => row.columns.timestamp) limit
      database.privateMessages).map (fun row => .object [
        ("chatType", .string "private"), ("content", .string (cString row.columns.content)),
        ("from", .integer row.columns.fromUser), ("msgId", .string row.columns.msgId),
        ("timestamp", .integer row.columns.timestamp), ("to", .integer row.columns.toUser)])
  else []

def foundGroup (userId : Int) (keyword : String) (limit : Nat) : List Json :=
  if mysql.groupResult then
    (page (Row.groupFound mysql.like database.members userId keyword) (fun row => row.columns.timestamp) limit
      database.groupMessages).map (fun row => .object [
        ("chatType", .string "group"), ("content", .string (cString row.columns.content)),
        ("from", .integer row.columns.fromUser), ("groupId", .integer row.columns.groupId),
        ("msgId", .string row.columns.msgId), ("timestamp", .integer row.columns.timestamp)])
  else []

/-- The members of the answer. -/
def searchMessages (userId : Int) (keyword : String) (limit : Nat) : List (String × Json) :=
  if keyword.utf8ByteSize < 2 then [("message", .string "keyword too short"), ("success", .boolean false)]
  else if mysql.connected then
    [("messages", .array (foundPrivate mysql database userId keyword limit ++
      foundGroup mysql database userId keyword limit)), ("success", .boolean true)]
  else [("message", .string "db error"), ("success", .boolean false)]

def handleSearchMessages (userId : Int) (keyword : String) : Json :=
  if keyword.utf8ByteSize < 2 then
    .object [("message", .string "keyword too short"), ("success", .boolean false)]
  else .object (Json.addMember (searchMessages mysql database userId keyword 50) "source" (.string "mysql"))

end

inductive Request where
  | history (peerId groupId before : String)
  | search (keyword : String)
deriving DecidableEq, Repr

def respond (mysql : MySQL) (database : Database) (userId : Int) : Request → Json
  | .history peerId groupId before =>
      handleGetMessageHistory mysql database userId peerId groupId before
  | .search keyword => handleSearchMessages mysql database userId keyword

/-! ## What a user may see -/

def privateOf (userId : Int) (row : Row PrivateMessage) : Bool :=
  decide (row.columns.fromUser = userId) || decide (row.columns.toUser = userId)

def groupOf (members : Finset (Int × Int)) (userId : Int) (row : Row GroupMessage) : Bool :=
  decide ((row.columns.groupId, userId) ∈ members)

/-- The databases agree on the conversations of the user. -/
structure Agree (userId : Int) (first second : Database) : Prop where
  memberships : ∀ groupId, (groupId, userId) ∈ first.members ↔ (groupId, userId) ∈ second.members
  privateMessages : first.privateMessages.filter (privateOf userId) =
    second.privateMessages.filter (privateOf userId)
  groupMessages : first.groupMessages.filter (groupOf first.members userId) =
    second.groupMessages.filter (groupOf second.members userId)

/-- The answer to the request is the same in all databases that agree with this
one on the conversations of the user. -/
def Confidential (mysql : MySQL) (database : Database) (userId : Int) (request : Request) : Prop :=
  ∀ other, Agree userId database other → respond mysql database userId request = respond mysql other userId request

/-- The request asks for the history of a group that the user is no member of,
and MySQL answers. -/
def AsksForeignGroup (mysql : MySQL) (database : Database) (userId : Int) : Request → Prop
  | .history _ groupId _ => 0 < parameter groupId ∧ (parameter groupId, userId) ∉ database.members ∧
      mysql.connected = true ∧ mysql.groupResult = true
  | .search _ => False

variable {mysql : MySQL} {first second database : Database} {userId groupId before : Int} {keyword : String}
variable {limit : Nat}

theorem getPrivateHistory_agree (agree : Agree userId first second) (peerId : Int) :
    getPrivateHistory mysql first userId peerId limit before =
      getPrivateHistory mysql second userId peerId limit before := by
  have own : ∀ row, Row.privateListed userId peerId before row = true → privateOf userId row = true := by
    intro row chosen
    simp only [Row.privateListed, Bool.and_eq_true, Bool.or_eq_true, decide_eq_true_eq] at chosen
    simp only [privateOf, Bool.or_eq_true, decide_eq_true_eq]
    rcases chosen.1 with sent | received
    · exact .inl sent.1
    · exact .inr received.2
  have same : first.privateMessages.filter (Row.privateListed userId peerId before) =
      second.privateMessages.filter (Row.privateListed userId peerId before) := by
    rw [← filter_of_weaker own, agree.privateMessages, filter_of_weaker own]
  rw [getPrivateHistory, getPrivateHistory, page_congr same]

theorem foundPrivate_agree (agree : Agree userId first second) :
    foundPrivate mysql first userId keyword limit = foundPrivate mysql second userId keyword limit := by
  have own : ∀ row, Row.privateFound mysql.like userId keyword row = true → privateOf userId row = true := by
    intro row chosen
    simp only [Row.privateFound, Bool.and_eq_true] at chosen
    exact chosen.1.1
  have same : first.privateMessages.filter (Row.privateFound mysql.like userId keyword) =
      second.privateMessages.filter (Row.privateFound mysql.like userId keyword) := by
    rw [← filter_of_weaker own, agree.privateMessages, filter_of_weaker own]
  rw [foundPrivate, foundPrivate, page_congr same]

theorem foundGroup_agree (agree : Agree userId first second) :
    foundGroup mysql first userId keyword limit = foundGroup mysql second userId keyword limit := by
  have own (members : Finset (Int × Int)) : ∀ row,
      Row.groupFound mysql.like members userId keyword row = true → groupOf members userId row = true := by
    intro row chosen
    simp only [Row.groupFound, Bool.and_eq_true] at chosen
    exact chosen.1.1
  have members : Row.groupFound mysql.like first.members userId keyword =
      Row.groupFound mysql.like second.members userId keyword := by
    funext row
    simp only [Row.groupFound, agree.memberships]
  have same : first.groupMessages.filter (Row.groupFound mysql.like first.members userId keyword) =
      second.groupMessages.filter (Row.groupFound mysql.like second.members userId keyword) := by
    rw [← filter_of_weaker (own first.members), agree.groupMessages, members,
      filter_of_weaker (own second.members)]
  rw [members] at same
  rw [foundGroup, foundGroup, members, page_congr same]

theorem handleSearchMessages_agree (agree : Agree userId first second) :
    handleSearchMessages mysql first userId keyword = handleSearchMessages mysql second userId keyword := by
  rw [handleSearchMessages, handleSearchMessages, searchMessages, searchMessages,
    foundPrivate_agree agree, foundGroup_agree agree]

/-- The history of a group that the user belongs to. -/
theorem getGroupHistory_agree (agree : Agree userId first second)
    (member : (groupId, userId) ∈ first.members) :
    getGroupHistory mysql first groupId limit before = getGroupHistory mysql second groupId limit before := by
  have own (members : Finset (Int × Int)) (joined : (groupId, userId) ∈ members) : ∀ row,
      Row.groupListed groupId before row = true → groupOf members userId row = true := by
    intro row chosen
    simp only [Row.groupListed, Bool.and_eq_true, decide_eq_true_eq] at chosen
    simp only [groupOf, chosen.1, joined, decide_true]
  have joined := (agree.memberships groupId).mp member
  have same : first.groupMessages.filter (Row.groupListed groupId before) =
      second.groupMessages.filter (Row.groupListed groupId before) := by
    rw [← filter_of_weaker (own first.members member), agree.groupMessages,
      filter_of_weaker (own second.members joined)]
  rw [getGroupHistory, getGroupHistory, page_congr same]

/-! ## A group that the user does not belong to -/

/-- The database without the messages of a group, or with one more of them. -/
def without (database : Database) (groupId : Int) : Database :=
  { database with
    groupMessages := database.groupMessages.filter (fun row => decide (row.columns.groupId ≠ groupId))
    groupIds := database.groupIds.sublist (List.filter_sublist.map _) }

/-- A message id that is longer than all in use. -/
def freshId (database : Database) : String :=
  String.ofList (List.replicate
    ((database.groupMessages.map (fun row => row.columns.msgId.length)).sum + 1) 'x')

theorem freshId_notMem : freshId database ∉ database.groupMessages.map (fun row => row.columns.msgId) := by
  intro member
  obtain ⟨row, listed, same⟩ := List.mem_map.mp member
  have length : row.columns.msgId.length =
      (database.groupMessages.map (fun row => row.columns.msgId.length)).sum + 1 := by
    rw [same, freshId, String.length_ofList, List.length_replicate]
  have bound : row.columns.msgId.length ≤
      (database.groupMessages.map (fun row => row.columns.msgId.length)).sum :=
    List.le_sum_of_mem (List.mem_map_of_mem listed)
  omega

def withMessage (database : Database) (groupId before : Int) : Database :=
  { database with
    groupMessages := database.groupMessages ++ [{
      columns := {
        msgId := freshId database, groupId, fromUser := 0, content := ""
        timestamp := if 0 < before then before - 1 else 0
        mentions := none } }]
    groupIds := by
      rw [List.map_append, List.map_singleton, ← List.concat_eq_append]
      exact database.groupIds.concat freshId_notMem }

theorem agree_without (stranger : (groupId, userId) ∉ database.members) :
    Agree userId database (without database groupId) where
  memberships := fun _ => Iff.rfl
  privateMessages := rfl
  groupMessages := by
    symm
    rw [without, List.filter_filter]
    apply List.filter_congr
    intro row _
    cases visible : groupOf database.members userId row with
    | false => rfl
    | true =>
        have joined := of_decide_eq_true visible
        have different : row.columns.groupId ≠ groupId := fun same => stranger (same ▸ joined)
        rw [Bool.true_and]
        exact decide_eq_true different

theorem agree_withMessage (stranger : (groupId, userId) ∉ database.members) :
    Agree userId database (withMessage database groupId before) where
  memberships := fun _ => Iff.rfl
  privateMessages := rfl
  groupMessages := by
    rw [withMessage, List.filter_append]
    simp [groupOf, stranger]

theorem getGroupHistory_eq_nil (connected : mysql.connected = true) (result : mysql.groupResult = true) :
    getGroupHistory mysql database groupId 50 before = .array [] ↔
      ∀ row ∈ database.groupMessages, Row.groupListed groupId before row = false := by
  rw [getGroupHistory, connected, result, Bool.and_self, if_pos rfl, Json.array.injEq, List.map_eq_nil_iff,
    page_eq_nil (by decide)]

/-- The history of any group depends on the messages of that group. -/
theorem exists_other_history (stranger : (groupId, userId) ∉ database.members)
    (connected : mysql.connected = true) (result : mysql.groupResult = true) :
    ∃ other, Agree userId database other ∧
      getGroupHistory mysql database groupId 50 before ≠ getGroupHistory mysql other groupId 50 before := by
  by_cases empty : getGroupHistory mysql database groupId 50 before = .array []
  · refine ⟨withMessage database groupId before, agree_withMessage stranger, ?_⟩
    rw [empty]
    intro same
    have listed := (getGroupHistory_eq_nil connected result).mp same.symm _
      (List.mem_append_right _ List.mem_cons_self)
    revert listed
    by_cases positive : 0 < before
    · have earlier : before - 1 < before := by omega
      simp [Row.groupListed, Row.listed, positive, earlier]
    · have unlimited : before ≤ 0 := by omega
      simp [Row.groupListed, Row.listed, unlimited]
  · refine ⟨_, agree_without stranger, ?_⟩
    have nothing : getGroupHistory mysql (without database groupId) groupId 50 before = .array [] := by
      apply (getGroupHistory_eq_nil connected result).mpr
      intro row member
      have different := of_decide_eq_true (List.mem_filter.mp member).2
      simp only [Row.groupListed, decide_eq_false different, Bool.false_and]
    rw [nothing]
    exact empty

/-- An answer reveals nothing about the conversations of others exactly if it
is not the history of a group that the user is no member of. -/
theorem confidential_iff (mysql : MySQL) (database : Database) (userId : Int) (request : Request) :
    Confidential mysql database userId request ↔ ¬ AsksForeignGroup mysql database userId request := by
  cases request with
  | search keyword =>
      refine iff_of_true (fun other agree => ?_) id
      exact handleSearchMessages_agree agree
  | history peerId groupId before =>
      constructor
      · intro confidential asks
        obtain ⟨group, stranger, connected, result⟩ := asks
        obtain ⟨other, agree, differs⟩ :=
          @exists_other_history mysql database userId _ (parameter before) stranger connected result
        have same := confidential other agree
        simp only [respond, handleGetMessageHistory, if_pos group] at same
        exact differs same
      · intro honest other agree
        simp only [respond, handleGetMessageHistory]
        split
        · rename_i group
          by_cases member : (parameter groupId, userId) ∈ database.members
          · exact getGroupHistory_agree agree member
          · have refused : ¬ (mysql.connected = true ∧ mysql.groupResult = true) := by
              intro answers
              exact honest ⟨group, member, answers⟩
            rw [getGroupHistory, getGroupHistory]
            simp only [Bool.and_eq_true, if_neg refused]
        · exact getPrivateHistory_agree agree _

/-- A message of user 1 in group 5, which has him as its only member. -/
private def groupFive : Database where
  groupMessages := [{ columns := {
    msgId := "m1", groupId := 5, fromUser := 1, content := "secret", timestamp := 100, mentions := none } }]
  members := {(5, 1)}

/-- Any user reads the history of any group. -/
theorem stranger_reads_group_history :
    ¬ ∀ mysql database userId request, Confidential mysql database userId request := by
  intro always
  have agree : Agree 9 groupFive { members := {(5, 1)} } :=
    ⟨fun _ => Iff.rfl, rfl, by decide⟩
  have same := always { like := fun _ _ => false } groupFive 9 (.history "0" "5" "0") _ agree
  change Json.array [_] = Json.array [] at same
  cases same

end MuduoIm.Server.MessageQueries
