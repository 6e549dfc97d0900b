import Mathlib.Data.Prod.Lex
import Mathlib.Data.String.Basic
import MuduoIm.Web.MessageCache

namespace MuduoIm.Web.MessageCache

open MuduoIm.Data MuduoIm.Transition

/-! # The arrays stay ordered where the events fit

An insertion keeps the order of its array.  An ack and a page of older messages
do not look at the order, so whether they keep it depends on what they bring.
-/

/-- Server ids by length and digits come first, then the other messages by their time. -/
def rank (msg : Message) : ℕ ×ₗ ℤ ×ₗ String :=
  if isSnow msg.msgId then toLex (0, toLex ((msg.msgId.length : ℤ), msg.msgId))
  else toLex (1, toLex (msg.timestamp, ""))

/-- No message compares greater than a later one. -/
def Sorted (arr : List Message) : Prop := arr.Pairwise (fun a b => cmpByMsgId a b ≤ 0)

instance (arr : List Message) : Decidable (Sorted arr) :=
  inferInstanceAs (Decidable (arr.Pairwise _))

variable {a b m msg : Message} {arr before after parsed : List Message}

theorem cmpByMsgId_nonpos : cmpByMsgId a b ≤ 0 ↔ rank a ≤ rank b := by
  rw [cmpByMsgId, rank, rank]
  by_cases first : isSnow a.msgId = true
  · by_cases second : isSnow b.msgId = true
    · simp only [first, second, Bool.and_self, if_true, Prod.Lex.toLex_le_toLex, lt_irrefl,
        false_or, true_and]
      by_cases equal : a.msgId.length = b.msgId.length
      · rw [if_neg (not_not.mpr equal)]
        simp only [equal, lt_irrefl, false_or, true_and]
        rcases lt_trichotomy a.msgId b.msgId with below | same | above
        · simp [below, below.le]
        · simp [same]
        · simp [above, not_lt.mpr above.le]
      · rw [if_pos equal]
        have apart : (a.msgId.length : ℤ) ≠ b.msgId.length := by exact_mod_cast equal
        simp only [apart, false_and, or_false]
        omega
    · simp [first, second, Prod.Lex.toLex_le_toLex]
  · by_cases second : isSnow b.msgId = true
    · simp [first, second, Prod.Lex.toLex_le_toLex]
    · simp [first, second, Prod.Lex.toLex_le_toLex]
      omega

theorem cmpByMsgId_pos : 0 < cmpByMsgId a b ↔ rank b < rank a := by
  rw [← not_le, cmpByMsgId_nonpos, not_le]

/-- A message is inserted behind the last one that is not greater. -/
theorem insert_spec (arr : List Message) (msg : Message) : ∃ kept dropped,
    arr = kept ++ dropped ∧ (insertMessageSorted arr msg).1 = kept ++ msg :: dropped ∧
      (∀ last ∈ kept.getLast?, cmpByMsgId last msg ≤ 0) ∧
      ∀ other ∈ dropped, 0 < cmpByMsgId other msg := by
  rw [insertMessageSorted]
  split
  next append =>
    refine ⟨arr, [], (List.append_nil _).symm, rfl, ?_, by simp⟩
    intro last member
    rw [member, Option.all_some, decide_eq_true_eq] at append
    exact append
  next =>
    refine ⟨_, _, List.rdropWhile_append_rtakeWhile.symm, rfl, ?_, ?_⟩
    · intro last member
      obtain ⟨nonempty, rfl⟩ := List.mem_getLast?_eq_getLast member
      have stopped := List.rdropWhile_last_not _ _ nonempty
      rw [decide_eq_true_eq, not_lt] at stopped
      exact stopped
    · intro other member
      have greater := List.mem_rtakeWhile_imp member
      rw [decide_eq_true_eq] at greater
      exact greater

theorem insert_perm (arr : List Message) (msg : Message) :
    (insertMessageSorted arr msg).1.Perm (msg :: arr) := by
  obtain ⟨kept, dropped, rfl, inserted, _⟩ := insert_spec arr msg
  rw [inserted]
  exact List.perm_middle

theorem sorted_insert (sorted : Sorted arr) : Sorted (insertMessageSorted arr msg).1 := by
  obtain ⟨kept, dropped, rfl, inserted, below, above⟩ := insert_spec arr msg
  rw [inserted]
  obtain ⟨keptSorted, droppedSorted, apart⟩ := List.pairwise_append.mp sorted
  refine List.pairwise_append.mpr ⟨keptSorted, List.pairwise_cons.mpr ⟨?_, droppedSorted⟩, ?_⟩
  · intro other member
    exact cmpByMsgId_nonpos.mpr (cmpByMsgId_pos.mp (above other member)).le
  · intro other member later placed
    rcases List.mem_cons.mp placed with rfl | placed
    · cases ending : kept.getLast? with
      | none =>
          rw [List.getLast?_eq_none_iff.mp ending] at member
          cases member
      | some last =>
          have reached := cmpByMsgId_nonpos.mp (below last ending)
          obtain ⟨init, rfl⟩ := List.getLast?_eq_some_iff.mp ending
          rcases List.mem_append.mp member with early | final
          · have order := (List.pairwise_append.mp keptSorted).2.2 other early last (by simp)
            exact cmpByMsgId_nonpos.mpr ((cmpByMsgId_nonpos.mp order).trans reached)
          · rw [List.mem_singleton.mp final]
            exact cmpByMsgId_nonpos.mpr reached
    · exact apart other member later placed

/-! ## What the page promises -/

/-- The message belongs to the conversation that the key names. -/
def OfConversation (userId : ℤ) : Key → Message → Prop
  | .friend id, msg => msg.inGroup = false ∧
      (msg.fromId = id ∧ msg.toId = userId ∨ msg.fromId = userId ∧ msg.toId = id)
  | .group id, msg => msg.inGroup = true ∧ msg.toId = id

def ids (arr : List Message) : List String := arr.map Message.msgId

structure Tidy (userId : ℤ) (key : Key) (arr : List Message) : Prop where
  sorted : Sorted arr
  distinct : (ids arr).Nodup
  filed : ∀ msg ∈ arr, OfConversation userId key msg

/-- Every array is in order, without duplicates and of its own conversation. -/
def Good (client : Client) : Prop :=
  ∀ key, Tidy client.userId key (client.messages key)

def Message.withId (msg : Message) (msgId : String) : Message := { msg with msgId }

/-- The message has the id of an ack without disturbing the order around it. -/
def AckFits (arr : List Message) (clientMsgId msgId : String) : Prop :=
  ∀ before msg after, arr = before ++ msg :: after → msg.msgId = clientMsgId →
    msgId ∉ ids (before ++ after) ∧
      (∀ other ∈ before, cmpByMsgId other (msg.withId msgId) ≤ 0) ∧
      ∀ other ∈ after, cmpByMsgId (msg.withId msgId) other ≤ 0

/-- The page is in order itself and belongs in front of the array. -/
def PageFits (userId : ℤ) (key : Key) (arr parsed : List Message) : Prop :=
  Tidy userId key parsed ∧
    ∀ older ∈ parsed, ∀ msg ∈ arr, older.msgId ≠ msg.msgId ∧ cmpByMsgId older msg ≤ 0

def Fits (client : Client) : Event → Prop
  | .send chat msgId _ _ _ => msgId ∉ ids (client.messages chat)
  | .msg data => data.msgId ∉ ids (client.messages (.friend data.fromId)) ∧
      data.toId = client.userId
  | .groupMsg data => data.fromId = client.userId ∨
      data.msgId ∉ ids (client.messages (.group data.toId))
  | .ack clientMsgId msgId => clientMsgId ≠ "" → msgId ≠ "" → clientMsgId ≠ msgId →
      ∀ key, AckFits (client.messages key) clientMsgId msgId
  | .scroll _ => True
  | .page parsed => ∀ request, client.loading = some request →
      PageFits client.userId request.1 (client.messages request.1) parsed
  | .pageFails => True

variable {client next : Client} {key other : Key} {userId : ℤ} {event : Event}

theorem messages_insert (table : Table Key (List Message)) (request : Option (Key × ℤ))
    (loaded : List Key) :
    Client.messages ⟨userId, table.insert key arr, loaded, request⟩ other =
      if other = key then arr else Client.messages ⟨userId, table, loaded, request⟩ other := by
  rw [Client.messages, Table.lookup_insert_ite]
  split
  · rfl
  · rfl

theorem messages_insert_of_ne (different : other ≠ key) :
    (client.insert key msg).messages other = client.messages other := by
  rw [Client.insert, messages_insert, if_neg different]

/-- Only the array that is assigned has to be looked at again. -/
theorem good_insert (good : Good client) (request : Option (Key × ℤ)) (loaded : List Key) :
    Good ⟨client.userId, client.messageCache.insert key arr, loaded, request⟩ ↔
      Tidy client.userId key arr := by
  constructor
  · intro still
    have here := still key
    rw [messages_insert, if_pos rfl] at here
    exact here
  · intro tidy other
    rw [messages_insert]
    split
    next same =>
      rw [same]
      exact tidy
    next => exact good other

theorem tidy_insert (tidy : Tidy userId key arr) :
    Tidy userId key (insertMessageSorted arr msg).1 ↔
      msg.msgId ∉ ids arr ∧ OfConversation userId key msg := by
  have same := insert_perm arr msg
  have distinct : (ids (insertMessageSorted arr msg).1).Nodup ↔ msg.msgId ∉ ids arr := by
    rw [ids, (same.map _).nodup_iff, List.map_cons, List.nodup_cons]
    exact and_iff_left tidy.distinct
  constructor
  · intro still
    exact ⟨distinct.mp still.distinct, still.filed msg (same.mem_iff.mpr (List.mem_cons_self ..))⟩
  · rintro ⟨fresh, belongs⟩
    refine ⟨sorted_insert tidy.sorted, distinct.mpr fresh, ?_⟩
    intro other member
    rcases List.mem_cons.mp (same.mem_iff.mp member) with rfl | old
    · exact belongs
    · exact tidy.filed other old

theorem tidy_prepend (tidy : Tidy userId key arr) :
    Tidy userId key (parsed ++ arr) ↔ PageFits userId key arr parsed := by
  constructor
  · intro still
    obtain ⟨sorted, _, order⟩ := List.pairwise_append.mp still.sorted
    have distinct := still.distinct
    rw [ids, List.map_append, List.nodup_append] at distinct
    refine ⟨⟨sorted, distinct.1, fun msg member =>
      still.filed msg (List.mem_append_left _ member)⟩, ?_⟩
    intro older member msg present
    exact ⟨distinct.2.2 _ (List.mem_map_of_mem member) _ (List.mem_map_of_mem present),
      order older member msg present⟩
  · rintro ⟨page, apart⟩
    constructor
    case sorted =>
      exact List.pairwise_append.mpr ⟨page.sorted, tidy.sorted,
        fun older member msg present => (apart older member msg present).2⟩
    case distinct =>
      rw [ids, List.map_append, List.nodup_append]
      refine ⟨page.distinct, tidy.distinct, ?_⟩
      intro first firstMember second secondMember
      obtain ⟨older, member, rfl⟩ := List.mem_map.mp firstMember
      obtain ⟨msg, present, rfl⟩ := List.mem_map.mp secondMember
      exact (apart older member msg present).1
    case filed =>
      intro msg member
      rcases List.mem_append.mp member with new | old
      · exact page.filed msg new
      · exact tidy.filed msg old

/-- The server sends its pages newest first: only those of one message are in order. -/
theorem sorted_newest_first (newest : parsed.Pairwise (fun a b => 0 < cmpByMsgId a b)) :
    Sorted parsed ↔ parsed.length ≤ 1 := by
  rcases parsed with _ | ⟨first, _ | ⟨second, rest⟩⟩
  · simp [Sorted]
  · simp [Sorted]
  · have order := (List.pairwise_cons.mp newest).1 second (List.mem_cons_self ..)
    constructor
    · intro sorted
      have forward := (List.pairwise_cons.mp sorted).1 second (List.mem_cons_self ..)
      omega
    · intro short
      simp at short

/-! ## Renaming -/

variable {clientMsgId msgId : String}

/-- The order of two messages is that of their ids and times. -/
theorem cmpByMsgId_congr {a' b' : Message} (first : a'.msgId = a.msgId ∧ a'.timestamp = a.timestamp)
    (second : b'.msgId = b.msgId ∧ b'.timestamp = b.timestamp) :
    cmpByMsgId a' b' = cmpByMsgId a b := by
  rw [cmpByMsgId, cmpByMsgId, first.1, first.2, second.1, second.2]

theorem rename_other (msgId : String) (different : m.msgId ≠ clientMsgId) :
    (m.rename clientMsgId msgId).msgId = m.msgId ∧
      (m.rename clientMsgId msgId).timestamp = m.timestamp := by
  rw [Message.rename, if_neg different]
  exact ⟨rfl, rfl⟩

theorem rename_same (msgId : String) (same : m.msgId = clientMsgId) :
    (m.rename clientMsgId msgId).msgId = (m.withId msgId).msgId ∧
      (m.rename clientMsgId msgId).timestamp = (m.withId msgId).timestamp := by
  rw [Message.rename, if_pos same]
  exact ⟨rfl, rfl⟩

theorem filed_rename : OfConversation userId key (m.rename clientMsgId msgId) ↔
    OfConversation userId key m := by
  cases key <;> rfl

theorem msgId_ne (absent : clientMsgId ∉ ids arr) (member : m ∈ arr) : m.msgId ≠ clientMsgId := by
  rintro rfl
  exact absent (List.mem_map_of_mem member)

theorem sorted_rename (absent : clientMsgId ∉ ids arr) :
    Sorted (arr.map (Message.rename clientMsgId msgId)) ↔ Sorted arr := by
  rw [Sorted, Sorted, List.pairwise_map]
  apply List.Pairwise.iff_of_mem
  intro a b first second
  rw [cmpByMsgId_congr (rename_other _ (msgId_ne absent first))
    (rename_other _ (msgId_ne absent second))]

theorem ids_rename (absent : clientMsgId ∉ ids arr) :
    ids (arr.map (Message.rename clientMsgId msgId)) = ids arr := by
  rw [ids, ids, List.map_map]
  apply List.map_congr_left
  intro msg member
  exact (rename_other _ (msgId_ne absent member)).1

/-- The message with the id of the ack is compared anew with the messages around it. -/
theorem sorted_rename_split (msgId : String) (sorted : Sorted (before ++ msg :: after)) (same : msg.msgId = clientMsgId)
    (early : clientMsgId ∉ ids before) (late : clientMsgId ∉ ids after) :
    Sorted ((before ++ msg :: after).map (Message.rename clientMsgId msgId)) ↔
      (∀ other ∈ before, cmpByMsgId other (msg.withId msgId) ≤ 0) ∧
        ∀ other ∈ after, cmpByMsgId (msg.withId msgId) other ≤ 0 := by
  obtain ⟨beforeSorted, tail, apart⟩ := List.pairwise_append.mp sorted
  obtain ⟨_, afterSorted⟩ := List.pairwise_cons.mp tail
  have earlier {other : Message} (member : other ∈ before) :=
    rename_other msgId (msgId_ne early member)
  have later {other : Message} (member : other ∈ after) :=
    rename_other msgId (msgId_ne late member)
  have renamed := rename_same msgId same
  rw [List.map_append, List.map_cons, Sorted, List.pairwise_append, List.pairwise_cons]
  constructor
  · intro still
    obtain ⟨_, ⟨below, _⟩, above⟩ := still
    constructor
    · intro other member
      rw [← cmpByMsgId_congr (earlier member) renamed]
      exact above _ (List.mem_map_of_mem member) _ (List.mem_cons_self ..)
    · intro other member
      rw [← cmpByMsgId_congr renamed (later member)]
      exact below _ (List.mem_map_of_mem member)
  · intro order
    obtain ⟨above, below⟩ := order
    refine ⟨(sorted_rename early).mpr beforeSorted, ⟨?_, (sorted_rename late).mpr afterSorted⟩, ?_⟩
    · intro _ placed
      obtain ⟨other, member, rfl⟩ := List.mem_map.mp placed
      rw [cmpByMsgId_congr renamed (later member)]
      exact below other member
    · intro _ firstPlaced _ secondPlaced
      obtain ⟨first, member, rfl⟩ := List.mem_map.mp firstPlaced
      rcases List.mem_cons.mp secondPlaced with rfl | secondPlaced
      · rw [cmpByMsgId_congr (earlier member) renamed]
        exact above first member
      · obtain ⟨second, listed, rfl⟩ := List.mem_map.mp secondPlaced
        rw [cmpByMsgId_congr (earlier member) (later listed)]
        exact apart first member second (List.mem_cons_of_mem _ listed)

theorem tidy_rename_split (tidy : Tidy userId key (before ++ msg :: after))
    (same : msg.msgId = clientMsgId) :
    Tidy userId key ((before ++ msg :: after).map (Message.rename clientMsgId msgId)) ↔
      msgId ∉ ids (before ++ after) ∧
        (∀ other ∈ before, cmpByMsgId other (msg.withId msgId) ≤ 0) ∧
        ∀ other ∈ after, cmpByMsgId (msg.withId msgId) other ≤ 0 := by
  have unique := tidy.distinct
  rw [ids, List.map_append, List.map_cons, List.nodup_middle, same, List.nodup_cons,
    List.mem_append, not_or] at unique
  obtain ⟨⟨early, late⟩, rest⟩ := unique
  have distinct : (ids ((before ++ msg :: after).map (Message.rename clientMsgId msgId))).Nodup ↔
      msgId ∉ ids (before ++ after) := by
    rw [List.map_append, List.map_cons, ids, List.map_append, List.map_cons, List.nodup_middle,
      ← ids, ← ids, ids_rename early, ids_rename late, (rename_same msgId same).1, ids, ids, ids, List.map_append,
      List.nodup_cons]
    exact and_iff_left rest
  have sorted := sorted_rename_split msgId tidy.sorted same early late
  constructor
  · intro still
    exact ⟨distinct.mp still.distinct, sorted.mp still.sorted⟩
  · intro fits
    refine ⟨sorted.mpr fits.2, distinct.mpr fits.1, ?_⟩
    intro other member
    obtain ⟨original, present, rfl⟩ := List.mem_map.mp member
    exact filed_rename.mpr (tidy.filed original present)

theorem tidy_rename (tidy : Tidy userId key arr) :
    Tidy userId key (arr.map (Message.rename clientMsgId msgId)) ↔ AckFits arr clientMsgId msgId := by
  constructor
  · intro still before msg after split same
    subst split
    exact (tidy_rename_split tidy same).mp still
  · intro fits
    by_cases present : clientMsgId ∈ ids arr
    · obtain ⟨msg, member, same⟩ := List.mem_map.mp present
      obtain ⟨before, after, rfl⟩ := List.append_of_mem member
      exact (tidy_rename_split tidy same).mpr (fits before msg after rfl same)
    · refine ⟨(sorted_rename present).mpr tidy.sorted, ?_, ?_⟩
      · rw [ids_rename present]
        exact tidy.distinct
      · intro other member
        obtain ⟨original, listed, rfl⟩ := List.mem_map.mp member
        exact filed_rename.mpr (tidy.filed original listed)

/-! ## Runs -/

theorem messages_mapValues (change : List Message → List Message) (empty : change [] = [])
    (client : Client) (key : Key) :
    Client.messages { client with messageCache := client.messageCache.mapValues change } key =
      change (client.messages key) := by
  rw [Client.messages, Client.messages, Table.lookup_mapValues]
  cases client.messageCache.lookup key with
  | none => exact empty.symm
  | some arr => rfl

theorem send_good_iff (good : Good client) (chat : Key) (content : String) (replyTo : Option String) (now : ℤ) :
    Good (client.insert chat (localMsg client.userId chat msgId content replyTo now)) ↔
      msgId ∉ ids (client.messages chat) := by
  have belongs : OfConversation client.userId chat (localMsg client.userId chat msgId content replyTo now) := by
    cases chat with
    | friend id => exact ⟨rfl, .inr ⟨rfl, rfl⟩⟩
    | group id => exact ⟨rfl, rfl⟩
  have own : (localMsg client.userId chat msgId content replyTo now).msgId = msgId := by
    cases chat <;> rfl
  rw [Client.insert, good_insert good, tidy_insert (good chat), own, and_iff_left belongs]

theorem ack_good_iff (good : Good client) (clientMsgId msgId : String) :
    Good (client.handleAck clientMsgId msgId) ↔ Fits client (.ack clientMsgId msgId) := by
  rw [Client.handleAck, Fits]
  split
  next replaces =>
    have renamed (key : Key) : Tidy client.userId key
        (Client.messages { client with
          messageCache := client.messageCache.mapValues (List.map (Message.rename clientMsgId msgId)) } key) ↔
          AckFits (client.messages key) clientMsgId msgId := by
      rw [messages_mapValues _ rfl]
      exact tidy_rename (good key)
    constructor
    · exact fun still _ _ _ key => (renamed key).mp (still key)
    · exact fun fits key =>
        (renamed key).mpr (fits replaces.1 replaces.2.1 replaces.2.2 key)
  next idle =>
    refine iff_of_true good ?_
    intro given named different
    exact absurd ⟨given, named, different⟩ idle

theorem step_good_iff (good : Good client) (stepped : step client event = some next) :
    Good next ↔ Fits client event := by
  cases event with
  | send chat msgId content replyTo now =>
      rw [step] at stepped
      split at stepped
      · cases stepped
      · cases stepped
        exact send_good_iff good chat content replyTo now
  | msg data =>
      cases stepped
      rw [Client.handleMsg, Client.insert, good_insert good, tidy_insert (good _), Fits]
      apply and_congr_right
      intro _
      constructor
      · intro filed
        rcases filed.2 with ⟨_, received⟩ | ⟨own, same⟩
        · exact received
        · exact same.trans own
      · intro received
        exact ⟨rfl, .inl ⟨rfl, received⟩⟩
  | groupMsg data =>
      cases stepped
      rw [Client.handleGroupMsg, Fits]
      by_cases own : data.fromId = client.userId
      · simp only [own, true_or, iff_true, if_true]
        exact (good_insert good _ _).mpr (good _)
      · simp only [own, false_or, if_false]
        rw [Client.insert, good_insert good, tidy_insert (good _)]
        exact and_iff_left ⟨rfl, rfl⟩
  | ack clientMsgId msgId =>
      cases stepped
      exact ack_good_iff good clientMsgId msgId
  | scroll chat =>
      cases stepped
      refine iff_of_true ?_ trivial
      rw [Client.onChatScroll]
      split
      · exact good
      · split
        · exact good
        · split
          · exact good
          · exact good
  | page parsed =>
      obtain ⟨request, loading, rfl⟩ := Option.map_eq_some_iff.mp stepped
      rw [Client.prepend, Fits]
      have asked : (∀ other, client.loading = some other →
          PageFits client.userId other.1 (client.messages other.1) parsed) ↔
            PageFits client.userId request.1 (client.messages request.1) parsed := by
        rw [loading]
        simp
      rw [asked, ← tidy_prepend (good _)]
      split
      next empty =>
        rw [empty, List.nil_append]
        exact iff_of_true good (good _)
      next => exact good_insert good _ _
  | pageFails =>
      obtain ⟨request, loading, rfl⟩ := Option.map_eq_some_iff.mp stepped
      exact iff_of_true good trivial

/-- In a run, the cache keeps its promises exactly if every event fits. -/
theorem good_iff_fits {events : List Event} (good : Good client) :
    machine.Always Good client events ↔ machine.Meets Fits client events :=
  Machine.always_iff_meets (fun _ => True) good trivial (fun _ _ _ _ _ => trivial)
    (fun _ _ _ _ held stepped => step_good_iff held stepped)

def fresh : Client where
  userId := 1

theorem good_fresh : Good fresh := fun _ => ⟨List.Pairwise.nil, List.nodup_nil, by simp [fresh, Client.messages]⟩

/-- A message is received, one is sent and acknowledged, and an older one is loaded. -/
def greeting : List Event :=
  [.msg { msgId := "20", fromId := 2, toId := 1, timestamp := 200 },
    .send (.friend 2) "a-b" "hi" none 210, .ack "a-b" "21", .scroll (.friend 2),
    .page [{ msgId := "19", fromId := 1, toId := 2, timestamp := 190, inGroup := false }]]

/-- An ack for the last message of an array. -/
theorem ackFits_last (kept : List Message) {clientMsgId msgId : String} (absent : clientMsgId ∉ ids kept)
    (new : msgId ∉ ids kept) (ordered : ∀ other ∈ kept, cmpByMsgId other (msg.withId msgId) ≤ 0) :
    AckFits (kept ++ [msg]) clientMsgId msgId := by
  intro before found after split same
  obtain rfl | ⟨init, last, rfl⟩ := List.eq_nil_or_concat after
  · obtain ⟨rfl, single⟩ := List.append_inj' split rfl
    cases single
    rw [List.append_nil]
    exact ⟨new, ordered, fun _ member => by cases member⟩
  · rw [List.concat_eq_append, ← List.cons_append, ← List.append_assoc] at split
    obtain ⟨rfl, _⟩ := List.append_inj' split rfl
    refine absurd (List.mem_map.mpr ⟨found, ?_, same⟩) absent
    exact List.mem_append_right _ List.mem_cons_self

theorem greeting_stays_good : ∃ after, machine.run fresh greeting = some after ∧
    ids (after.messages (.friend 2)) = ["19", "20", "21"] ∧ machine.Always Good fresh greeting := by
  have fits : machine.Meets Fits fresh greeting := by
    refine .cons rfl ⟨by decide, rfl⟩ (.cons rfl (by decide : "a-b" ∉ _) (.cons rfl ?_ (.cons rfl trivial
      (.cons rfl ?_ trivial))))
    · intro _ _ _ key
      by_cases same : key = .friend 2
      · subst same
        exact ackFits_last [_] (by decide) (by decide) (by decide)
      · intro before msg after split
        have nothing : fresh.messages key = [] := rfl
        rw [messages_insert_of_ne same, Client.handleMsg, messages_insert_of_ne same, nothing] at split
        simp at split
    · intro request asked
      cases asked
      refine ⟨⟨by decide, by decide, fun msg member => ?_⟩, by decide⟩
      cases List.mem_singleton.mp member
      exact ⟨rfl, .inr ⟨rfl, rfl⟩⟩
  exact ⟨_, rfl, by decide, (good_iff_fits good_fresh).mpr fits⟩

/-- A page of two older messages arrives newest first. -/
theorem page_newest_first : ∃ after, machine.run fresh
    [.msg { msgId := "20", fromId := 2, toId := 1, timestamp := 200 }, .scroll (.friend 2),
      .page [{ msgId := "19", fromId := 1, toId := 2, timestamp := 190, inGroup := false },
        { msgId := "18", fromId := 2, toId := 1, timestamp := 180, inGroup := false }]] = some after ∧
      ¬Good after := by
  refine ⟨_, rfl, ?_⟩
  intro good
  have sorted := (good (.friend 2)).sorted
  revert sorted
  decide

end MuduoIm.Web.MessageCache
