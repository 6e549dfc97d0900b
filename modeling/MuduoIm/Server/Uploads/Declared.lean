import MuduoIm.Server.Uploads.Sound

namespace MuduoIm.Server.Uploads

open MuduoIm.Data MuduoIm.Transition

/-! # When a completed upload is the declared file

Completion counts the recorded indexes.  The size that it reports is the one
that was declared, and no chunk is compared with it.
-/

/-- The last accepted bodies in the order of their indexes. -/
def bodiesOf (accepted : Nat → Option Bytes) (totalChunks : Nat) : List Bytes :=
  (List.range totalChunks).map fun index => (accepted index).getD []

/-- All indexes have been uploaded, and the file under the URL that is reported
consists of their last bodies and has the size that is reported. -/
structure IsDeclared (accepted : Nat → Option Bytes) (totalChunks : Nat) (result : Completed) (after : Store) :
    Prop where
  uploaded : ∀ index < totalChunks, (accepted index).isSome = true
  content : ∀ name, result.url = "/uploads/" ++ name →
    after.finals.lookup name = some (bodiesOf accepted totalChunks).flatten
  size : (bodiesOf accepted totalChunks).flatten.length = result.size

/-- The sizes of the last accepted bodies add up to the declared size. -/
def AddUp (accepted : Nat → Option Bytes) (metadata : Metadata) : Prop :=
  ((bodiesOf accepted metadata.totalChunks).map List.length).sum = metadata.totalSize

variable {state : State} {events : List Event} {userId : Int} {body : Option Json} {answers : Answers}
variable {result : Completed} {store after : Store} {uploadId : String} {metadata : Metadata} {index : Nat}
variable {files : Table Nat Bytes} {accepted : Nat → Option Bytes}

/-- A success comes from a merge of all chunks. -/
theorem merged_of_completed (named : uploadIdOf body = some uploadId)
    (found : store.metas.lookup uploadId = some metadata)
    (completed : handleUploadComplete userId body answers store = (.completed result, after)) :
    metadata.received.length = metadata.totalChunks ∧ result = metadata.result uploadId ∧
      ∃ bodies, Pieces.collect (store.chunks uploadId) metadata.totalChunks = .ok bodies ∧
        after.finals = store.finals.insert (metadata.finalName uploadId) (Pieces.streamed bodies) := by
  rcases @handleUploadComplete_cases userId body answers store with refused | merged
  · obtain ⟨response, noSuccess, same⟩ := refused
    rw [same] at completed
    cases completed
    cases noSuccess
  · obtain ⟨merging, given, reaches, merged⟩ := merged
    cases named.symm.trans reaches.named
    cases found.symm.trans reaches.found
    rw [merged] at completed
    unfold Store.merge at completed
    dsimp only at completed
    split at completed
    · cases completed
    split at completed
    · cases completed
    · rename_i bodies collected
      cases completed
      exact ⟨reaches.all, rfl, bodies, collected, rfl⟩

/-- When all indexes are recorded, the chunks are the last accepted bodies. -/
theorem Held.collect (held : Held files accepted metadata) (valid : metadata.Valid)
    (all : metadata.received.length = metadata.totalChunks) :
    (∀ index < metadata.totalChunks, (accepted index).isSome = true) ∧
      Pieces.collect files metadata.totalChunks = .ok (bodiesOf accepted metadata.totalChunks) := by
  have recorded : ∀ index < metadata.totalChunks, ∃ body, files.lookup index = some body ∧ accepted index = some body :=
    fun index inRange => held.recorded index (valid.mem_received all inRange)
  constructor
  · intro index inRange
    obtain ⟨body, _, last⟩ := recorded index inRange
    exact Option.isSome_of_eq_some last
  · refine Pieces.collect_eq_ok fun index inRange => ?_
    obtain ⟨body, stored, last⟩ := recorded index inRange
    rw [stored, last]
    rfl

theorem length_bodiesOf (small : ∀ index body, accepted index = some body → body.length ≤ kChunkSize) {total : Nat} :
    ∀ body ∈ bodiesOf accepted total, body.length ≤ kChunkSize := by
  intro body member
  obtain ⟨index, _, rfl⟩ := List.mem_map.mp member
  cases last : accepted index with
  | none => exact Nat.zero_le _
  | some body => exact small index body last

/-- Bodies that make up the declared size are merged whole. -/
theorem streamed_of_addUp (valid : metadata.Valid)
    (small : ∀ index body, accepted index = some body → body.length ≤ kChunkSize) (addUp : AddUp accepted metadata) :
    Pieces.streamed (bodiesOf accepted metadata.totalChunks) = (bodiesOf accepted metadata.totalChunks).flatten := by
  refine Pieces.streamed_eq_flatten (Pieces.filled_of_length (length_bodiesOf small) ?_ valid.positive (by decide) ?_)
  · rw [bodiesOf, List.length_map, List.length_range]
    exact valid.totalChunks
  · rw [List.length_flatten]
    exact addUp

/-- A completed upload is the declared file exactly if the sizes of the last
accepted bodies add up to the size that was declared. -/
theorem completed_isDeclared_iff (reached : machine.run {} events = some state)
    (named : uploadIdOf body = some uploadId) (found : state.store.metas.lookup uploadId = some metadata)
    (completed : handleUploadComplete userId body answers state.store = (.completed result, after)) :
    IsDeclared (state.accepted uploadId) metadata.totalChunks result after ↔
      AddUp (state.accepted uploadId) metadata := by
  have sound := sound_run reached
  have valid := (sound.valid uploadId metadata found).2
  obtain ⟨all, rfl, bodies, collected, finals⟩ := merged_of_completed named found completed
  obtain ⟨files, directory, held⟩ := sound.held uploadId metadata found (sound.unfinished found collected)
  obtain ⟨uploaded, whole⟩ := held.collect valid all
  rw [Store.chunks, directory, Option.getD_some, whole] at collected
  cases collected
  constructor
  · intro declared
    have size := declared.size
    rw [List.length_flatten] at size
    exact size
  · intro addUp
    refine ⟨uploaded, fun name url => ?_, ?_⟩
    · have same : metadata.finalName uploadId = name := by
        have lists := congrArg String.toList url
        rw [Metadata.result, String.toList_append, String.toList_append, List.append_cancel_left_eq] at lists
        exact String.toList_inj.mp lists
      rw [finals, ← same, AList.lookup_insert, streamed_of_addUp valid (sound.small uploadId) addUp]
    · rw [List.length_flatten]
      exact addUp

/-! ## Two bytes -/

def uuid : String := "0a1b2c3d-0000-4000-8000-00000000000a"

/-- A file of two bytes is declared, and its only chunk is sent. -/
def twoBytes (chunk : Bytes) : List Event := [
  .request (.init 1 uuid 0 (some (.object [("file_name", .string "notes.txt"), ("total_size", .integer 2)]))) {},
  .request (.chunk 1 uuid "0" chunk) {}]

def completion : Option Json := some (.object [("upload_id", .string uuid)])

def sent (chunk : Bytes) : State := (machine.run {} (twoBytes chunk)).getD {}

theorem whole_isDeclared : ∃ result after, machine.run {} (twoBytes [65, 66]) = some (sent [65, 66]) ∧
    handleUploadComplete 1 completion {} (sent [65, 66]).store = (.completed result, after) ∧
    IsDeclared ((sent [65, 66]).accepted uuid) 1 result after := by
  have reached : machine.run {} (twoBytes [65, 66]) = some (sent [65, 66]) := rfl
  have found : (sent [65, 66]).store.metas.lookup uuid = some _ := rfl
  have completed : handleUploadComplete 1 completion {} (sent [65, 66]).store = (.completed _, _) := rfl
  exact ⟨_, _, reached, completed, (completed_isDeclared_iff reached rfl found completed).mpr (Eq.refl 2)⟩

theorem half_not_isDeclared : ∃ result after, machine.run {} (twoBytes [65]) = some (sent [65]) ∧
    handleUploadComplete 1 completion {} (sent [65]).store = (.completed result, after) ∧
    result.size = 2 ∧ after.finals.lookup (uuid ++ ".txt") = some [65] ∧
    ¬IsDeclared ((sent [65]).accepted uuid) 1 result after := by
  refine ⟨_, _, rfl, rfl, rfl, by decide, fun declared => ?_⟩
  have size := declared.size
  cases size

end MuduoIm.Server.Uploads
