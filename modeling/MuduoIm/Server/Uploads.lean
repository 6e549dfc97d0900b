import Mathlib.Data.List.Nodup
import MuduoIm.Data.Base64
import MuduoIm.Data.Json
import MuduoIm.Data.Pieces

namespace MuduoIm.Server.Uploads

open MuduoIm.Data

/-! # Uploads in chunks

The metadata of an upload are one text in Redis, its chunks are files in a
directory of its own, and the merged file is in the directory of the uploads.
-/

def kChunkSize : Nat := 1024 * 1024

def kMaxFileSize : Nat := 50 * 1024 * 1024

structure Metadata where
  fileName : String
  totalSize : Nat
  chunkSize : Nat := kChunkSize
  totalChunks : Nat
  ext : String
  uid : Int
  createdAt : Int
  received : List Nat := []
  completed : Bool := false
deriving DecidableEq, Repr

/-- `metas` are the values of the keys `upload:{upload_id}`, `directories` the
files `chunk_{N}` of the directories below `/tmp/muduo-im-upload`, and `finals`
the files in `../uploads`. -/
structure Store where
  metas : Table String Metadata := ∅
  directories : Table String (Table Nat Bytes) := ∅
  finals : Table String Bytes := ∅

/-- Which operations are successful.  `create` opens a file for writing. -/
structure Answers where
  get : Bool := true
  set : Bool := true
  mkdir : Bool := true
  create : Bool := true
deriving DecidableEq, Repr

structure Completed where
  url : String
  filename : String
  size : Nat
  thumbs : Option (String × String)
deriving DecidableEq, Repr

inductive Response where
  | badRequest (text : String)
  | forbidden (text : String)
  | notFound (text : String)
  | serverError (text : String)
  | initialized (uploadId : String) (chunkSize totalChunks : Nat)
  | chunkStored (index receivedCount totalChunks : Nat)
  | status (receivedChunks : List Nat) (totalChunks : Nat) (fileName : String)
  | completed (result : Completed)
  -- a field of another type throws
  | threw
deriving DecidableEq, Repr

/-- The answer has `"success": true`. -/
def Response.success : Response → Bool
  | .initialized .. | .chunkStored .. | .status .. | .completed .. => true
  | _ => false

/-! ## Init -/

def allowedExts : List String :=
  [".jpg", ".jpeg", ".png", ".gif", ".bmp", ".webp",
    ".pdf", ".doc", ".docx", ".xls", ".xlsx", ".ppt", ".pptx",
    ".txt", ".md", ".zip", ".rar", ".7z",
    ".mp3", ".mp4", ".wav", ".avi", ".mov"]

def imageExts : List String := [".jpg", ".jpeg", ".png", ".gif", ".bmp", ".webp"]

/-- The name from its last dot on. -/
def extension (fileName : String) : String :=
  if '.' ∈ fileName.toList then
    String.ofList ('.' :: (fileName.toList.reverse.takeWhile (fun letter => decide (letter ≠ '.'))).reverse)
  else ""

/-- `std::transform` with `tolower`. -/
def lower (text : String) : String := String.ofList (text.toList.map Char.toLower)

def Metadata.declared (fileName : String) (totalSize : Nat) (userId now : Int) : Metadata where
  fileName := fileName
  totalSize := totalSize
  totalChunks := Pieces.count kChunkSize totalSize
  ext := extension fileName
  uid := userId
  createdAt := now

/-- `uploadId` is the identifier that `generateMsgId` draws. -/
def Store.create (store : Store) (answers : Answers) (uploadId : String) (metadata : Metadata) : Response × Store :=
  if (store.directories.lookup uploadId).isSome || !answers.mkdir then (.serverError "mkdir failed", store)
  else
    (.initialized uploadId kChunkSize metadata.totalChunks, { store with
      directories := store.directories.insert uploadId ∅
      metas := if answers.set then store.metas.insert uploadId metadata else store.metas })

/-- The body is `none` when it is no JSON. -/
def handleUploadInit (userId : Int) (uploadId : String) (now : Int) (body : Option Json) (answers : Answers)
    (store : Store) : Response × Store :=
  match body with
  | none => (.badRequest "invalid JSON", store)
  | some json =>
      match json.valueString "file_name" "", json.valueInt "total_size" 0 with
      | some fileName, some totalSize =>
          if fileName = "" ∨ totalSize ≤ 0 ∨ kMaxFileSize < totalSize then
            (.badRequest "invalid file_name / total_size", store)
          else if lower (extension fileName) ≠ "" ∧ lower (extension fileName) ∉ allowedExts then
            (.badRequest "file type not allowed", store)
          else store.create answers uploadId (.declared fileName totalSize.toNat userId now)
      | _, _ => (.threw, store)

/-! ## Chunks -/

def stoi (text : String) : Option Int := (stoll text).filter fun value => decide (-2 ^ 31 ≤ value ∧ value < 2 ^ 31)

def Store.get (store : Store) (answers : Answers) (uploadId : String) : Option Metadata :=
  if answers.get then store.metas.lookup uploadId else none

/-- A chunk that has passed the checks, with the metadata that were read. -/
structure Chunk where
  uploadId : String
  index : Nat
  body : Bytes
  metadata : Metadata
deriving DecidableEq, Repr

/-- The chunk, or the response of a check that fails. -/
def readChunk (userId : Int) (uploadId index : String) (body : Bytes) (answers : Answers) (store : Store) :
    Except Response Chunk :=
  if uploadId = "" ∨ index = "" then .error (.badRequest "missing upload_id or index")
  else if (stoi index).getD (-1) < 0 then .error (.badRequest "invalid index")
  else
    match store.get answers uploadId with
    | none => .error (.badRequest "upload_id not found or expired")
    | some metadata =>
        if metadata.uid ≠ userId then .error (.forbidden "not your upload")
        else if (metadata.totalChunks : Int) ≤ (stoi index).getD (-1) then .error (.badRequest "index out of range")
        else if kChunkSize < body.length then .error (.badRequest "chunk too large")
        else .ok { uploadId, index := ((stoi index).getD (-1)).toNat, body, metadata }

/-- The file is replaced; without its directory it cannot be opened. -/
def writeChunk (chunk : Chunk) (answers : Answers) (store : Store) : Option Store :=
  match store.directories.lookup chunk.uploadId with
  | none => none
  | some files =>
      if answers.create then
        some { store with directories := store.directories.insert chunk.uploadId (files.insert chunk.index chunk.body) }
      else none

/-- The metadata that were read, with the index of the chunk. -/
def Chunk.recorded (chunk : Chunk) : Metadata :=
  { chunk.metadata with
    received :=
      if chunk.index ∈ chunk.metadata.received then chunk.metadata.received
      else chunk.metadata.received ++ [chunk.index] }

def recordChunk (chunk : Chunk) (answers : Answers) (store : Store) : Response × Store :=
  (.chunkStored chunk.index chunk.recorded.received.length chunk.metadata.totalChunks,
    if answers.set then { store with metas := store.metas.insert chunk.uploadId chunk.recorded } else store)

def handleUploadChunk (userId : Int) (uploadId index : String) (body : Bytes) (answers : Answers) (store : Store) :
    Response × Store :=
  match readChunk userId uploadId index body answers store with
  | .error response => (response, store)
  | .ok chunk =>
      match writeChunk chunk answers store with
      | none => (.serverError "write chunk failed", store)
      | some written => recordChunk chunk answers written

def handleUploadStatus (userId : Int) (uploadId : String) (answers : Answers) (store : Store) : Response :=
  if uploadId = "" then .badRequest "missing upload_id"
  else
    match store.get answers uploadId with
    | none => .notFound "upload not found or expired"
    | some metadata =>
        if metadata.uid ≠ userId then .forbidden "not your upload"
        else .status metadata.received metadata.totalChunks metadata.fileName

/-! ## The parts of a chunk request -/

variable {uploadId index : String} {userId : Int} {body : Bytes} {store written : Store} {chunk : Chunk}
variable {answers : Answers}

theorem mem_recorded {position : Nat} :
    position ∈ chunk.recorded.received ↔ position ∈ chunk.metadata.received ∨ position = chunk.index := by
  rw [Chunk.recorded]
  dsimp only
  split
  · rename_i member
    exact ⟨.inl, fun either => either.elim id fun same => same ▸ member⟩
  · rw [List.mem_append, List.mem_singleton]

theorem nodup_recorded (nodup : chunk.metadata.received.Nodup) : chunk.recorded.received.Nodup := by
  rw [Chunk.recorded]
  dsimp only
  split
  · exact nodup
  · rename_i absent
    rw [← List.concat_eq_append]
    exact nodup.concat absent

/-- A chunk that passes the checks has the metadata of its upload. -/
theorem readChunk_ok (read : readChunk userId uploadId index body answers store = .ok chunk) :
    chunk.uploadId = uploadId ∧ store.metas.lookup uploadId = some chunk.metadata ∧
      chunk.metadata.uid = userId ∧ chunk.index < chunk.metadata.totalChunks ∧
      chunk.body = body ∧ body.length ≤ kChunkSize := by
  unfold readChunk at read
  split at read
  · cases read
  split at read
  · cases read
  rename_i natural
  split at read
  · cases read
  rename_i metadata got
  have found : store.metas.lookup uploadId = some metadata := by
    unfold Store.get at got
    split at got
    · exact got
    · cases got
  split at read
  · cases read
  rename_i owner
  split at read
  · cases read
  rename_i inRange
  split at read
  · cases read
  rename_i small
  cases read
  exact ⟨rfl, found, not_not.mp owner, by dsimp only; omega, rfl, Nat.le_of_not_lt small⟩

theorem readChunk_error {response : Response}
    (read : readChunk userId uploadId index body answers store = .error response) : response.success = false := by
  unfold readChunk at read
  split at read
  · cases read
    rfl
  split at read
  · cases read
    rfl
  split at read
  · cases read
    rfl
  split at read
  · cases read
    rfl
  split at read
  · cases read
    rfl
  split at read
  · cases read
    rfl
  · cases read

theorem metas_writeChunk (wrote : writeChunk chunk answers store = some written) :
    written.metas = store.metas := by
  unfold writeChunk at wrote
  split at wrote
  · cases wrote
  · obtain ⟨_, same⟩ := Option.ite_none_right_eq_some.mp wrote
    cases same
    rfl

/-! ## Complete -/

def Store.chunks (store : Store) (uploadId : String) : Table Nat Bytes := (store.directories.lookup uploadId).getD ∅

def Metadata.finalName (metadata : Metadata) (uploadId : String) : String := uploadId ++ metadata.ext

def Metadata.result (metadata : Metadata) (uploadId : String) : Completed where
  url := "/uploads/" ++ metadata.finalName uploadId
  filename := metadata.fileName
  size := metadata.totalSize
  thumbs :=
    if lower metadata.ext ∈ imageExts then
      some ("/uploads/" ++ uploadId ++ "_thumb_200" ++ metadata.ext,
        "/uploads/" ++ uploadId ++ "_thumb_600" ++ metadata.ext)
    else none

/-- The chunks are unlinked, and the directory is removed if nothing is left. -/
def Store.cleaned (store : Store) (uploadId : String) (totalChunks : Nat) : Table String (Table Nat Bytes) :=
  match store.directories.lookup uploadId with
  | none => store.directories
  | some files =>
      let left := (List.range totalChunks).foldl (fun files index => files.erase index) files
      if left.keys.isEmpty then store.directories.erase uploadId else store.directories.insert uploadId left

/-- The final file is opened, and so truncated, before the chunks are read. -/
def Store.merge (store : Store) (answers : Answers) (uploadId : String) (metadata : Metadata) : Response × Store :=
  let finalName := metadata.finalName uploadId
  if !answers.create then (.serverError "create final failed", store)
  else
    match Pieces.collect (store.chunks uploadId) metadata.totalChunks with
    | .error index =>
        (.serverError ("missing chunk " ++ toString index), { store with finals := store.finals.erase finalName })
    | .ok bodies =>
        (.completed (metadata.result uploadId), {
          metas :=
            if answers.set then store.metas.insert uploadId { metadata with completed := true } else store.metas
          directories := store.cleaned uploadId metadata.totalChunks
          finals := store.finals.insert finalName (Pieces.streamed bodies) })

def handleUploadComplete (userId : Int) (body : Option Json) (answers : Answers) (store : Store) : Response × Store :=
  match body with
  | none => (.badRequest "invalid JSON", store)
  | some json =>
      match json.valueString "upload_id" "" with
      | none => (.threw, store)
      | some uploadId =>
          if uploadId = "" then (.badRequest "missing upload_id", store)
          else
            match store.get answers uploadId with
            | none => (.badRequest "upload_id not found", store)
            | some metadata =>
                if metadata.uid ≠ userId then (.forbidden "not your upload", store)
                else if metadata.received.length ≠ metadata.totalChunks then
                  (.badRequest "not all chunks received", store)
                else store.merge answers uploadId metadata

end MuduoIm.Server.Uploads
