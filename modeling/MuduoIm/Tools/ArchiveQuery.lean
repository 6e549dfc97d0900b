import Mathlib.Data.List.Perm.Basic
import MuduoIm.Data.Paging
import MuduoIm.Tools.ArchiveWorker.Index

namespace MuduoIm.Tools.ArchiveQuery

open MuduoIm.Data MuduoIm.Transition MuduoIm.Tools.ArchiveWorker

/-! # The archive query server

A query walks through the partitions that end before the cursor, the newest
first, and collects rows until it has enough.  The last partitions it has read
stay in memory.
-/

inductive Conversation where
  | privateChat (userId peerId : Int)
  | group (groupId : Int)
deriving DecidableEq, Repr

namespace Conversation

def kind : Conversation → Kind
  | .privateChat _ _ => .privateChat
  | .group _ => .group

def contains (conversation : Conversation) (row : Row) : Bool :=
  match conversation with
  | .privateChat userId peerId =>
      decide (row.fromUser = userId ∧ row.target = peerId) || decide (row.fromUser = peerId ∧ row.target = userId)
  | .group groupId => decide (row.target = groupId)

end Conversation

/-- An element of the answer; `target` is its `to` or its `groupId`. -/
structure Message where
  msgId : String
  fromUser : Int
  target : Int
  content : String
  timestamp : Int
deriving DecidableEq, Repr

def message (row : Row) : Message := ⟨row.msgId, row.fromUser, row.target, row.content, row.timestamp⟩

/-- The rows that a query does not pass over. -/
def listed (conversation : Conversation) (before : Int) (row : Row) : Bool :=
  decide (row.timestamp < before) && !row.recalled && conversation.contains row

abbrev Entry := Sigma fun _ : Kind × Int => IndexRow

def considered (index : Table (Kind × Int) IndexRow) (kind : Kind) (before : Int) : List Entry :=
  index.entries.filter fun entry : Entry =>
    decide (entry.1.1 = kind ∧ entry.2.status.Archived) && decide (entry.2.maxTs < before)

def findPartitions (index : Table (Kind × Int) IndexRow) (kind : Kind) (before : Int) : List Int :=
  ((considered index kind before).insertionSort fun first second => second.2.maxTs ≤ first.2.maxTs).map
    fun entry => entry.1.2

/-- Least recently used first. -/
abbrev Cache := List ((Kind × Int) × List Row)

def cacheLimit : Nat := 8

section

variable (worker : State)

/-- Only `file://` is supported. -/
def readPartition (key : Kind × Int) : Option (List Row) :=
  match worker.committed.index.lookup key with
  | none => none
  | some entry =>
      if entry.status.Archived then
        match entry.storageUri.storage with
        | .directory _ => worker.files entry.storageUri
        | .bucket _ => none
      else none

def loadPartition (cache : Cache) (key : Kind × Int) : Option (List Row) × Cache :=
  match cache.lookup key with
  | some rows => (some rows, cache.filter (fun held => held.1 ≠ key) ++ [(key, rows)])
  | none =>
      match readPartition worker key with
      | none => (none, cache)
      | some rows => (some rows, (if cacheLimit ≤ cache.length then cache.tail else cache) ++ [(key, rows)])

/-- Python's sort is stable, also in reverse. -/
def newestFirst (rows : List Row) : List Row :=
  rows.insertionSort fun first second => second.timestamp ≤ first.timestamp

/-- The inner loop; `true` when the function has returned. -/
def collect (selected : Row → Bool) (limit : Int) : List Row → List Message → List Message × Bool
  | [], results => (results, false)
  | row :: rest, results =>
      if selected row then
        let results := results ++ [message row]
        if limit ≤ results.length then (results, true) else collect selected limit rest results
      else collect selected limit rest results

def walk (conversation : Conversation) (before limit : Int) :
    List Int → Cache → List Message → List Message × Cache
  | [], cache, results => (results, cache)
  | month :: rest, cache, results =>
      match loadPartition worker cache (conversation.kind, month) with
      | (none, cache) => walk conversation before limit rest cache results
      | (some rows, cache) =>
          match collect (listed conversation before) limit (newestFirst rows) results with
          | (results, true) => (results, cache)
          | (results, false) => walk conversation before limit rest cache results

def queryHistory (cache : Cache) (conversation : Conversation) (before limit : Int) : List Message × Cache :=
  walk worker conversation before limit
    (findPartitions worker.committed.index conversation.kind before) cache []

/-- The rows of the partition. -/
def content (entry : Entry) : List Row := (worker.files entry.2.storageUri).getD []

def archivedEntries (index : Table (Kind × Int) IndexRow) (kind : Kind) : List Entry :=
  index.entries.filter fun entry : Entry => decide (entry.1.1 = kind ∧ entry.2.status.Archived)

/-- What there is to find. -/
def archivedMessages (conversation : Conversation) (before : Int) : List Message :=
  (((archivedEntries worker.committed.index conversation.kind).flatMap (content worker)).filter
    (listed conversation before)).map message

/-- What the query gets to see. -/
def readMessages (conversation : Conversation) (before : Int) : List Message :=
  (((findPartitions worker.committed.index conversation.kind before).flatMap fun month =>
      (readPartition worker (conversation.kind, month)).getD []).filter (listed conversation before)).map message

end

/-! ## Runs of the worker and the server -/

structure Server where
  worker : State := {}
  cache : Cache := []

inductive Request where
  | worker (event : Event)
  | query (conversation : Conversation) (before limit : Int)
  | restart

def handle (calendar : Calendar) (server : Server) : Request → Option Server
  | .worker event => ((ArchiveWorker.machine calendar).step server.worker event).map fun worker =>
      { server with worker }
  | .query conversation before limit =>
      some { server with cache := (queryHistory server.worker server.cache conversation before limit).2 }
  | .restart => some { server with cache := [] }

def machine (calendar : Calendar) : Machine Server Request := ⟨handle calendar⟩

/-! ## The cache -/

section

variable {worker later : State} {cache : Cache} {key : Kind × Int} {rows : List Row} {calendar : Calendar}

/-- What is in memory is what would be read. -/
def Coherent (worker : State) (cache : Cache) : Prop :=
  ∀ held ∈ cache, readPartition worker held.1 = some held.2

theorem mem_of_lookup (found : cache.lookup key = some rows) : (key, rows) ∈ cache := by
  obtain ⟨newer, older, rfl, _⟩ := List.lookup_eq_some_iff.mp found
  exact List.mem_append_right _ List.mem_cons_self

theorem loadPartition_fst (coherent : Coherent worker cache) (key : Kind × Int) :
    (loadPartition worker cache key).1 = readPartition worker key := by
  unfold loadPartition
  split
  · rename_i rows found
    exact (coherent _ (mem_of_lookup found)).symm
  · split
    · rename_i absent
      exact absent.symm
    · rename_i rows present
      exact present.symm

theorem Coherent.loadPartition (coherent : Coherent worker cache) (key : Kind × Int) :
    Coherent worker (loadPartition worker cache key).2 := by
  have added {older : Cache} {rows : List Row} (kept : ∀ held ∈ older, held ∈ cache)
      (present : readPartition worker key = some rows) : Coherent worker (older ++ [(key, rows)]) := by
    intro held member
    rcases List.mem_append.mp member with old | new
    · exact coherent held (kept held old)
    · rw [List.mem_singleton.mp new]
      exact present
  unfold ArchiveQuery.loadPartition
  split
  · rename_i rows found
    exact added (fun held member => List.mem_of_mem_filter member) (coherent _ (mem_of_lookup found))
  · split
    · exact coherent
    · rename_i rows present
      refine added (fun held member => ?_) present
      split at member
      · exact List.mem_of_mem_tail member
      · exact member

theorem Coherent.walk {conversation : Conversation} {before limit : Int} {months : List Int} {results : List Message}
    (coherent : Coherent worker cache) :
    Coherent worker (walk worker conversation before limit months cache results).2 := by
  induction months generalizing cache results with
  | nil => exact coherent
  | cons month rest ih =>
      have loaded := coherent.loadPartition (conversation.kind, month)
      unfold ArchiveQuery.walk
      split
      · rename_i cache same
        rw [same] at loaded
        exact ih loaded
      · rename_i rows cache same
        rw [same] at loaded
        split
        · exact loaded
        · exact ih loaded

/-- An indexed partition is never rewritten. -/
theorem readPartition_of_extends (kept : Extends worker later) (indexed : Indexed calendar later)
    (present : readPartition worker key = some rows) : readPartition later key = some rows := by
  unfold readPartition at present ⊢
  cases found : worker.committed.index.lookup key with
  | none =>
      rw [found] at present
      cases present
  | some entry =>
      obtain ⟨⟨status, still⟩, file⟩ := kept key entry found
      have archived : status.Archived := (indexed.filed key _ still).1
      simp only [found] at present
      split at present
      · simp only [still, if_pos archived]
        cases stored : entry.storageUri.storage with
        | directory path =>
            simp only [stored] at present
            dsimp only
            rw [file, present]
        | bucket name =>
            simp only [stored] at present
            cases present
      · cases present

structure Sound (calendar : Calendar) (server : Server) : Prop where
  indexed : Indexed calendar server.worker
  coherent : Coherent server.worker server.cache

theorem Sound.step {server next : Server} {request : Request} (sound : Sound calendar server)
    (stepped : (machine calendar).step server request = some next) : Sound calendar next := by
  cases request with
  | worker event =>
      obtain ⟨worker, taken, rfl⟩ := Option.map_eq_some_iff.mp stepped
      have indexed := sound.indexed.step taken
      refine ⟨indexed, fun held member => ?_⟩
      exact readPartition_of_extends (sound.indexed.extends taken) indexed (sound.coherent held member)
  | query conversation before limit =>
      cases stepped
      exact ⟨sound.indexed, sound.coherent.walk⟩
  | restart =>
      cases stepped
      exact ⟨sound.indexed, nofun⟩

theorem always_sound {requests : List Request} : (machine calendar).Always (Sound calendar) {} requests :=
  Machine.always_of_step _ ⟨indexed_init, nofun⟩ fun _ _ _ sound stepped => sound.step stepped

end

/-! ## The loops -/

section

variable {selected : Row → Bool} {limit : Int} {rows : List Row} {results : List Message} {worker : State}
variable {conversation : Conversation} {before : Int} {months : List Int} {cache : Cache}

theorem collect_eq (room : (results.length : Int) < limit) :
    collect selected limit rows results =
      let found := results ++ (rows.filter selected).map message
      (found.take limit.toNat, decide (limit ≤ found.length)) := by
  induction rows generalizing results with
  | nil =>
      have short : results.length ≤ limit.toNat := by omega
      simp [collect, List.take_of_length_le short, room]
  | cons row rest ih =>
      rw [collect]
      cases chosen : selected row with
      | false => simp only [Bool.false_eq_true, if_false, ih room, List.filter_cons, chosen]
      | true =>
          have onward : results ++ message row :: (rest.filter selected).map message =
              (results ++ [message row]) ++ (rest.filter selected).map message := List.append_cons ..
          simp only [if_true, List.filter_cons, chosen, List.map_cons, onward]
          split
          · rename_i full
            have exactly : (results ++ [message row]).length = limit.toNat := by
              rw [List.length_append, List.length_singleton] at full ⊢
              omega
            rw [List.take_left' exactly, List.length_append, decide_eq_true (by omega)]
          · exact ih (by omega)

theorem walk_fst (coherent : Coherent worker cache) (room : (results.length : Int) < limit) :
    (walk worker conversation before limit months cache results).1 =
      (results ++ ((months.flatMap fun month =>
        newestFirst ((readPartition worker (conversation.kind, month)).getD [])).filter
          (listed conversation before)).map message).take limit.toNat := by
  induction months generalizing cache results with
  | nil =>
      have short : results.length ≤ limit.toNat := by omega
      simp [walk, List.take_of_length_le short]
  | cons month rest ih =>
      have loaded := coherent.loadPartition (conversation.kind, month)
      have read := loadPartition_fst coherent (conversation.kind, month)
      rw [List.flatMap_cons, List.filter_append, List.map_append, ← List.append_assoc, walk]
      split
      · rename_i cache same
        rw [same] at loaded read
        rw [← read, ih loaded room]
        simp [newestFirst]
      · rename_i rows cache same
        rw [same] at loaded read
        rw [← read, Option.getD_some, collect_eq room]
        generalize gathered : results ++ ((newestFirst rows).filter (listed conversation before)).map message = found
        dsimp only
        by_cases full : limit ≤ found.length
        · rw [decide_eq_true full, List.take_append_of_le_length (by omega)]
        · rw [decide_eq_false full]
          dsimp only
          rw [List.take_of_length_le (by omega), ih loaded (by omega)]

theorem mem_collect {found : Message} (member : found ∈ (collect selected limit rows results).1) :
    found ∈ results ∨ ∃ row ∈ rows, selected row = true ∧ message row = found := by
  induction rows generalizing results with
  | nil => exact .inl member
  | cons row rest ih =>
      have later (earlier : found ∈ results ∨ ∃ row ∈ rest, selected row = true ∧ message row = found) :
          found ∈ results ∨ ∃ other ∈ row :: rest, selected other = true ∧ message other = found :=
        earlier.imp_right fun ⟨other, listed, chosen⟩ => ⟨other, List.mem_cons_of_mem _ listed, chosen⟩
      rw [collect] at member
      cases chosen : selected row with
      | false =>
          rw [chosen, if_neg Bool.false_ne_true] at member
          exact later (ih member)
      | true =>
          have added (listed : found ∈ results ++ [message row]) :
              found ∈ results ∨ ∃ other ∈ row :: rest, selected other = true ∧ message other = found := by
            rcases List.mem_append.mp listed with earlier | new
            · exact .inl earlier
            · exact .inr ⟨row, List.mem_cons_self, chosen, (List.mem_singleton.mp new).symm⟩
          rw [chosen, if_pos rfl] at member
          dsimp only at member
          split at member
          · exact added member
          · rcases ih member with listed | held
            · exact added listed
            · exact later (.inr held)

/-- Whatever the limit, a message of the answer is a row of a partition. -/
theorem mem_walk {found : Message} (coherent : Coherent worker cache)
    (member : found ∈ (walk worker conversation before limit months cache results).1) :
    found ∈ results ∨ ∃ month rows, readPartition worker (conversation.kind, month) = some rows ∧
      ∃ row ∈ rows, listed conversation before row = true ∧ message row = found := by
  induction months generalizing cache results with
  | nil => exact .inl member
  | cons month rest ih =>
      have loaded := coherent.loadPartition (conversation.kind, month)
      have read := loadPartition_fst coherent (conversation.kind, month)
      rw [walk] at member
      split at member
      · rename_i cache same
        rw [same] at loaded
        exact ih loaded member
      · rename_i rows cache same
        rw [same] at loaded read
        have collected {gathered : List Message} {full : Bool}
            (outcome : collect (listed conversation before) limit (newestFirst rows) results = (gathered, full))
            (member : found ∈ gathered) : found ∈ results ∨ ∃ month rows,
              readPartition worker (conversation.kind, month) = some rows ∧
                ∃ row ∈ rows, listed conversation before row = true ∧ message row = found := by
          have gathers : (collect (listed conversation before) limit (newestFirst rows) results).1 = gathered := by
            rw [outcome]
          rw [← gathers] at member
          refine (mem_collect member).imp_right fun ⟨row, held, chosen⟩ => ?_
          exact ⟨month, rows, read.symm, row, (List.mem_insertionSort _).mp held, chosen⟩
        split at member
        · rename_i outcome
          exact collected outcome member
        · rename_i outcome
          exact (ih loaded member).elim (collected outcome) .inr

/-! ## What the query reads -/

def readable (entry : Entry) : Bool :=
  match entry.2.storageUri.storage with
  | .directory _ => true
  | .bucket _ => false

variable {calendar : Calendar} {key : Kind × Int} {row : Row} {entry other : Entry}

theorem mem_entries : entry ∈ worker.committed.index.entries ↔
    worker.committed.index.lookup entry.1 = some entry.2 :=
  AList.mem_lookup_iff.symm

theorem getD_readPartition (member : entry ∈ worker.committed.index.entries) (archived : entry.2.status.Archived) :
    (readPartition worker entry.1).getD [] = if readable entry then content worker entry else [] := by
  rw [readPartition, mem_entries.mp member]
  dsimp only
  rw [if_pos archived, readable]
  cases entry.2.storageUri.storage with
  | directory path => rfl
  | bucket name => rfl

/-- Partitions that end later have newer rows only. -/
theorem newer_rows (indexed : Indexed calendar worker) (first : entry ∈ worker.committed.index.entries)
    (second : other ∈ worker.committed.index.entries) (apart : entry.1 ≠ other.1) (sameKind : entry.1.1 = other.1.1)
    (later : other.2.maxTs ≤ entry.2.maxTs) :
    ∀ row ∈ content worker entry, ∀ older ∈ content worker other, older.timestamp < row.timestamp := by
  intro row member older held
  have filedFirst := indexed.filed _ _ (mem_entries.mp first)
  have filedSecond := indexed.filed _ _ (mem_entries.mp second)
  have ordered := calendar.monthOf_mono later
  rw [filedFirst.monthOf_maxTs, filedSecond.monthOf_maxTs] at ordered
  apply calendar.lt_of_monthOf_lt
  rw [filedFirst.monthOf_row member, filedSecond.monthOf_row held]
  have : other.1.2 ≠ entry.1.2 := fun same => apart (Prod.ext sameKind same.symm)
  omega

theorem exists_file_of_readPartition {rows : List Row} (indexed : Indexed calendar worker)
    (read : readPartition worker key = some rows) : ∃ uri : Uri, uri.kind = key.1 ∧ worker.files uri = some rows := by
  unfold readPartition at read
  split at read
  · cases read
  · rename_i entry found
    split at read
    · split at read
      · obtain ⟨_, _, written, _⟩ := indexed.filed key entry found
        exact ⟨entry.storageUri, written.ofKind, read⟩
      · cases read
    · cases read

theorem mem_newestFirst : row ∈ newestFirst rows ↔ row ∈ rows := List.mem_insertionSort _

theorem newestFirst_descending : (newestFirst rows).Pairwise (fun first second => second.timestamp ≤ first.timestamp) := by
  have total : Std.Total (fun first second : Row => second.timestamp ≤ first.timestamp) :=
    ⟨fun first second => Int.le_total second.timestamp first.timestamp⟩
  have trans : IsTrans Row (fun first second => second.timestamp ≤ first.timestamp) :=
    ⟨fun _ _ _ upper lower => Int.le_trans lower upper⟩
  exact List.pairwise_insertionSort _ _

theorem mem_considered {index : Table (Kind × Int) IndexRow} {kind : Kind} :
    entry ∈ considered index kind before ↔
      entry ∈ index.entries ∧ (entry.1.1 = kind ∧ entry.2.status.Archived) ∧ entry.2.maxTs < before := by
  rw [considered, List.mem_filter, Bool.and_eq_true, decide_eq_true_eq, decide_eq_true_eq]

theorem considered_sorted {index : Table (Kind × Int) IndexRow} {kind : Kind} :
    ((considered index kind before).insertionSort fun first second => second.2.maxTs ≤ first.2.maxTs).Pairwise
      fun first second => second.2.maxTs ≤ first.2.maxTs ∧ first.1 ≠ second.1 := by
  have total : Std.Total (fun first second : Entry => second.2.maxTs ≤ first.2.maxTs) :=
    ⟨fun first second => Int.le_total second.2.maxTs first.2.maxTs⟩
  have trans : IsTrans Entry (fun first second => second.2.maxTs ≤ first.2.maxTs) :=
    ⟨fun _ _ _ upper lower => Int.le_trans lower upper⟩
  have keys : (considered index kind before).Pairwise (fun first second => first.1 ≠ second.1) :=
    (List.nodupKeys_iff_pairwise.mp index.nodupKeys).filter _
  refine (List.pairwise_insertionSort _ _).and ?_
  exact ((List.perm_insertionSort _ _).pairwise_iff fun apart same => apart same.symm).mpr keys

/-- The rows come out in one descending order. -/
theorem walk_descending (indexed : Indexed calendar worker) :
    ((findPartitions worker.committed.index conversation.kind before).flatMap fun month =>
      newestFirst ((readPartition worker (conversation.kind, month)).getD [])).Pairwise
        (fun first second => second.timestamp ≤ first.timestamp) := by
  rw [findPartitions, List.flatMap_map, List.pairwise_flatMap]
  refine ⟨fun _ _ => newestFirst_descending, ?_⟩
  refine List.Pairwise.imp_of_mem ?_ considered_sorted
  intro first second member later ⟨ordered, apart⟩ row held older listed
  obtain ⟨present, ⟨ofKind, archived⟩, _⟩ := mem_considered.mp ((List.mem_insertionSort _).mp member)
  obtain ⟨presentLater, ⟨ofKindLater, archivedLater⟩, _⟩ := mem_considered.mp ((List.mem_insertionSort _).mp later)
  rw [mem_newestFirst] at held listed
  have within {entry : Entry} {row : Row} (present : entry ∈ worker.committed.index.entries)
      (archived : entry.2.status.Archived) (ofKind : entry.1.1 = conversation.kind)
      (held : row ∈ (readPartition worker (conversation.kind, entry.1.2)).getD []) : row ∈ content worker entry := by
    rw [← ofKind, getD_readPartition present archived] at held
    split at held
    · exact held
    · cases held
  exact Int.le_of_lt (newer_rows indexed present presentLater apart (ofKind.trans ofKindLater.symm) ordered row
    (within present archived ofKind held) older (within presentLater archivedLater ofKindLater listed))

theorem queryHistory_isPage (indexed : Indexed calendar worker) (coherent : Coherent worker cache)
    (positive : 1 ≤ limit) :
    IsPage Message.timestamp limit.toNat (readMessages worker conversation before)
      (queryHistory worker cache conversation before limit).1 := by
  refine ⟨_, ?_, ?_, walk_fst coherent positive⟩
  · exact ((List.Perm.flatMap_left _ fun _ _ => List.perm_insertionSort _ _).filter _).map _
  · exact List.pairwise_map.mpr ((walk_descending indexed).filter _)

/-! ## What the query does not see -/

def seen (before : Int) (entry : Entry) : Bool := decide (entry.2.maxTs < before) && readable entry

def skippedMessages (worker : State) (conversation : Conversation) (before : Int) : List Message :=
  ((((archivedEntries worker.committed.index conversation.kind).filter fun entry => !seen before entry).flatMap
    (content worker)).filter (listed conversation before)).map message

theorem flatMap_filter {Held Found : Type} {kept : Held → Bool} {found : Held → List Found} {all : List Held}
    (none : ∀ held ∈ all, kept held = false → found held = []) : (all.filter kept).flatMap found = all.flatMap found := by
  induction all with
  | nil => rfl
  | cons held rest ih =>
      have later := ih fun other member => none other (List.mem_cons_of_mem _ member)
      cases chosen : kept held with
      | true => simp only [List.filter_cons, chosen, if_true, List.flatMap_cons, later]
      | false =>
          simp only [List.filter_cons, chosen, Bool.false_eq_true, if_false, List.flatMap_cons,
            none held List.mem_cons_self chosen, List.nil_append, later]

theorem filter_seen {index : Table (Kind × Int) IndexRow} {kind : Kind} :
    (archivedEntries index kind).filter (seen before) = (considered index kind before).filter readable := by
  rw [archivedEntries, considered, List.filter_filter, List.filter_filter]
  apply List.filter_congr
  intro entry _
  unfold seen
  ac_rfl

theorem readRows_perm : ((findPartitions worker.committed.index conversation.kind before).flatMap fun month =>
      (readPartition worker (conversation.kind, month)).getD []).Perm
    (((archivedEntries worker.committed.index conversation.kind).filter (seen before)).flatMap (content worker)) := by
  have reads : ∀ entry ∈ considered worker.committed.index conversation.kind before,
      (readPartition worker (conversation.kind, entry.1.2)).getD [] =
        if readable entry then content worker entry else [] := by
    intro entry member
    obtain ⟨present, ⟨ofKind, archived⟩, _⟩ := mem_considered.mp member
    rw [← ofKind]
    exact getD_readPartition present archived
  rw [findPartitions, List.flatMap_map, filter_seen]
  refine ((List.perm_insertionSort _ _).flatMap_right _).trans (.of_eq ?_)
  have unread : ∀ entry ∈ considered worker.committed.index conversation.kind before, readable entry = false →
      (readPartition worker (conversation.kind, entry.1.2)).getD [] = [] := by
    intro entry member unread
    rw [reads entry member, unread, if_neg Bool.false_ne_true]
  refine (flatMap_filter unread).symm.trans ?_
  apply List.flatMap_congr
  intro entry member
  obtain ⟨member, read⟩ := List.mem_filter.mp member
  rw [reads entry member, if_pos read]

theorem archivedMessages_perm : (readMessages worker conversation before ++
    skippedMessages worker conversation before).Perm (archivedMessages worker conversation before) := by
  rw [readMessages, skippedMessages, archivedMessages, ← List.map_append, ← List.filter_append]
  refine (List.Perm.filter _ ?_).map _
  refine (readRows_perm.append_right _).trans ?_
  rw [← List.flatMap_append]
  exact (List.filter_append_perm _ _).flatMap_right _

theorem exists_entry_of_readMessages {found : Message} (member : found ∈ readMessages worker conversation before) :
    ∃ entry ∈ worker.committed.index.entries, entry.1.1 = conversation.kind ∧ entry.2.maxTs < before ∧
      ∃ row ∈ content worker entry, message row = found := by
  obtain ⟨row, chosen, rfl⟩ := List.mem_map.mp member
  have read := readRows_perm.mem_iff.mp (List.mem_of_mem_filter chosen)
  obtain ⟨entry, member, held⟩ := List.mem_flatMap.mp read
  rw [filter_seen] at member
  obtain ⟨present, ⟨ofKind, _⟩, ends⟩ := mem_considered.mp (List.mem_of_mem_filter member)
  exact ⟨entry, present, ofKind, ends, row, held, rfl⟩

/-- Every message to be found is in a partition that ends before the cursor and
that the query reads, or as many messages above it are. -/
def Reaches (worker : State) (conversation : Conversation) (before limit : Int) : Prop :=
  ∀ entry ∈ archivedEntries worker.committed.index conversation.kind, ∀ row ∈ content worker entry,
    listed conversation before row = true → entry.2.maxTs < before ∧ (readable entry = true ∨
      limit ≤ (readMessages worker conversation before).countP (fun found => row.timestamp ≤ found.timestamp))

theorem mem_archivedEntries {index : Table (Kind × Int) IndexRow} {kind : Kind} :
    entry ∈ archivedEntries index kind ↔ entry ∈ index.entries ∧ entry.1.1 = kind ∧ entry.2.status.Archived := by
  rw [archivedEntries, List.mem_filter, decide_eq_true_eq]

/-- A partition that ends at or after the cursor hides its messages: all that is
read is older. -/
theorem countP_readMessages (indexed : Indexed calendar worker)
    (member : entry ∈ archivedEntries worker.committed.index conversation.kind) (held : row ∈ content worker entry)
    (straddles : before ≤ entry.2.maxTs) :
    (readMessages worker conversation before).countP (fun found => row.timestamp ≤ found.timestamp) = 0 := by
  obtain ⟨present, ofKind, _⟩ := mem_archivedEntries.mp member
  apply List.countP_eq_zero.mpr
  intro found read
  obtain ⟨other, listed, sameKind, ends, older, holds, rfl⟩ := exists_entry_of_readMessages read
  have apart : entry.1 ≠ other.1 := by
    intro same
    have lookup := mem_entries.mp present
    rw [same, mem_entries.mp listed, Option.some.injEq] at lookup
    rw [lookup] at ends
    omega
  have newer := newer_rows indexed present listed apart (ofKind.trans sameKind.symm) (by omega) row held older holds
  exact fun reaches => absurd (of_decide_eq_true reaches) (Int.not_le.mpr newer)

theorem reaches_iff (indexed : Indexed calendar worker) (positive : 1 ≤ limit) :
    Reaches worker conversation before limit ↔ ∀ unseen ∈ skippedMessages worker conversation before,
      limit.toNat ≤ (readMessages worker conversation before).countP
        (fun found => unseen.timestamp ≤ found.timestamp) := by
  constructor
  · intro reaches unseen member
    obtain ⟨row, chosen, rfl⟩ := List.mem_map.mp member
    obtain ⟨member, selected⟩ := List.mem_filter.mp chosen
    obtain ⟨entry, skipped, held⟩ := List.mem_flatMap.mp member
    obtain ⟨present, unread⟩ := List.mem_filter.mp skipped
    obtain ⟨ends, read | enough⟩ := reaches entry present row held selected
    · rw [seen, decide_eq_true ends, read] at unread
      cases unread
    · exact Int.toNat_le.mpr enough
  · intro enough entry member row held selected
    by_cases read : seen before entry = true
    · rw [seen, Bool.and_eq_true, decide_eq_true_eq] at read
      exact ⟨read.1, .inl read.2⟩
    · have skipped : message row ∈ skippedMessages worker conversation before :=
        List.mem_map_of_mem (List.mem_filter.mpr ⟨List.mem_flatMap.mpr ⟨entry,
          List.mem_filter.mpr ⟨member, by rw [Bool.eq_false_iff.mpr read]; rfl⟩, held⟩, selected⟩)
      have above : limit ≤ (readMessages worker conversation before).countP
          (fun found => row.timestamp ≤ found.timestamp) := Int.toNat_le.mp (enough _ skipped)
      by_cases straddles : before ≤ entry.2.maxTs
      · rw [countP_readMessages indexed member held straddles] at above
        omega
      · exact ⟨by omega, .inr above⟩

end

/-- The answer has the newest messages of the archive exactly if no partition
that the query leaves out has one that belongs among them. -/
theorem query_newest_iff {calendar : Calendar} {requests : List Request} {server : Server}
    (reached : (machine calendar).run {} requests = some server) (conversation : Conversation) (before : Int)
    {limit : Int} (positive : 1 ≤ limit) :
    IsPage Message.timestamp limit.toNat (archivedMessages server.worker conversation before)
        (queryHistory server.worker server.cache conversation before limit).1 ↔
      Reaches server.worker conversation before limit := by
  obtain ⟨indexed, coherent⟩ := always_sound.atEnd reached
  rw [← isPage_perm archivedMessages_perm, isPage_append_iff (queryHistory_isPage indexed coherent positive),
    reaches_iff indexed positive]

def answer : Row := { greeting with id := 2, msgId := "m2", timestamp := 3000 }

/-- Two messages of one month are archived and deleted. -/
def archivedMonth : List Request :=
  [.worker (.insert .privateChat greeting), .worker (.insert .privateChat answer), .worker (.begin 5000 true)] ++
    List.replicate 9 (.worker (.advance {}))

theorem query_newest_iff_month : ∃ server, (machine thirtyDays).run {} archivedMonth = some server ∧
    IsPage Message.timestamp 50 (archivedMessages server.worker (.privateChat 8 7) 4000)
      (queryHistory server.worker server.cache (.privateChat 8 7) 4000 50).1 := by
  refine ⟨_, rfl, (@query_newest_iff thirtyDays archivedMonth _ rfl (.privateChat 8 7) 4000 50 (by decide)).mpr ?_⟩
  unfold Reaches
  decide

/-- The cursor is inside the month. -/
theorem straddling_month_hidden : ∃ server, (machine thirtyDays).run {} archivedMonth = some server ∧
    ¬ IsPage Message.timestamp 50 (archivedMessages server.worker (.privateChat 8 7) 2000)
      (queryHistory server.worker server.cache (.privateChat 8 7) 2000 50).1 := by
  refine ⟨_, rfl, ?_⟩
  rintro ⟨sorted, perm, _, page⟩
  have empty : sorted = [] := (List.take_eq_nil_iff.mp page.symm).resolve_left (by decide)
  have counted := perm.length_eq
  rw [empty] at counted
  exact absurd counted (by decide)

end MuduoIm.Tools.ArchiveQuery
