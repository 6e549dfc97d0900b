import MuduoIm.Data.FileName
import MuduoIm.Server.Uploads.Undamaged
import MuduoIm.Web.Handlers

namespace MuduoIm.Server.Thumbnails

open MuduoIm.Data MuduoIm.Data.FileName MuduoIm.Transition
open MuduoIm.Server.Uploads (Answers Completed Finished Response allowedExts extension imageExts lower)

/-! # Pictures and their thumbnails

The server stores files in one request or in chunks, and puts a job on `thumb_queue`
for a picture.  The workers write the thumbnails beside it, and the page asks for one
under an address that it makes from the picture's.
-/

structure Part where
  filename : String
  -- as the parser tells
  isFile : Bool
  data : Bytes

structure Job where
  savedName : String
  originalPath : String
  sizes : List ℕ
deriving DecidableEq, Repr

def isImage (ext : String) : Bool := decide (lower ext ∈ imageExts)

def job (savedName : String) : Job where
  savedName := savedName
  originalPath := "../uploads/" ++ savedName
  sizes := [200, 600]

/-- `thumb_200` and `thumb_600` of the answer. -/
def thumbs (savedName : String) : String × String :=
  let (base, ex) := match splitLast '.' savedName.toList with
    | some (base, last) => (String.ofList base, String.ofList ('.' :: last))
    | none => (savedName, "")
  ("/uploads/" ++ base ++ "_thumb_200" ++ ex, "/uploads/" ++ base ++ "_thumb_600" ++ ex)

/-- A file that is accepted, with the answer to its request. -/
structure Upload where
  msgId : String
  ext : String
  content : Bytes
  answer : Completed
deriving DecidableEq

def Upload.savedName (upload : Upload) : String := upload.msgId ++ upload.ext

def acceptedOf (finished : Finished) : Upload where
  msgId := finished.uploadId
  ext := finished.metadata.ext
  content := finished.content
  answer := finished.metadata.result finished.uploadId

/-- The checks of `handleUpload`; `parts` is `none` without a boundary. -/
def readUpload (msgId : String) (parts : Option (List Part)) (created : Bool) : Except Response Upload :=
  match parts with
  | none => .error (.badRequest "missing boundary")
  | some [] => .error (.badRequest "no file uploaded")
  | some parts =>
      match parts.find? fun part => part.isFile && !part.data.isEmpty with
      | none => .error (.badRequest "no file found in upload")
      | some part =>
          let ext := extension part.filename
          if 50 * 1024 * 1024 < part.data.length then .error (.badRequest "file too large (max 50MB)")
          else if lower ext ≠ "" ∧ lower ext ∉ allowedExts then .error (.badRequest "file type not allowed")
          else if created then
            .ok { msgId, ext, content := part.data, answer := {
              url := "/uploads/" ++ (msgId ++ ext)
              filename := part.filename
              size := part.data.length
              thumbs := if isImage ext then some (thumbs (msgId ++ ext)) else none } }
          else .error (.serverError "failed to save file")

/-- The files are those of the store.  `stored` are the uploads in one request, and
`made` the thumbnails that were written, by the path of the picture and the size; both
are history. -/
structure State where
  uploads : Uploads.State := {}
  thumbQueue : List Job := []
  workers : List (String × List ℕ) := []
  stored : List Upload := []
  made : List (String × ℕ) := []

namespace State

variable (state : State)

def write (name : String) (bytes : Bytes) : State :=
  { state with
    uploads := { state.uploads with
      store := { state.uploads.store with finals := state.uploads.store.finals.insert name bytes } } }

/-- `LPUSH`, if there is a connection. -/
def push (redis : Bool) (ext savedName : String) : State :=
  if isImage ext && redis then { state with thumbQueue := job savedName :: state.thumbQueue } else state

/-- The response is that of `readUpload`. -/
def handleUpload (msgId : String) (parts : Option (List Part)) (created redis : Bool) : State :=
  let drawn := { state with uploads := { state.uploads with issued := msgId :: state.uploads.issued } }
  match readUpload msgId parts created with
  | .error _ => drawn
  | .ok upload =>
      let written := { drawn.write upload.savedName upload.content with stored := upload :: state.stored }
      written.push redis upload.ext upload.savedName

/-- The upload that a request completes. -/
def completes (request : Uploads.Request) (answers : Answers) : Option Finished :=
  match request with
  | .complete userId body =>
      match Uploads.handleUploadComplete userId body answers state.uploads.store with
      | (.completed _, after) => state.uploads.finish body after
      | _ => none
  | _ => none

/-- The file of a path below `../uploads/`. -/
def file (path : String) : Option Bytes :=
  (Web.Handlers.behind "../uploads/".toList path.toList).bind fun name =>
    state.uploads.store.finals.lookup (String.ofList name)

/-- What is under an address, as `serveStatic` maps it. -/
def served (url : String) : Option Bytes :=
  (Web.Handlers.behind "/uploads/".toList url.toList).bind fun name =>
    state.uploads.store.finals.lookup (String.ofList name)

/-- All files that were accepted, in one request or in chunks. -/
def accepted : List Upload := state.stored ++ state.uploads.finished.map acceptedOf

end State

/-- The path that `gen_thumb` writes. -/
def outPath (path : String) (size : ℕ) : String :=
  let (base, ext) := splitext path.toList
  String.ofList base ++ "_thumb_" ++ toString size ++ String.ofList ext

/-- `brpop` also begins the job.  `stop` is the end of a worker by another exception. -/
inductive Event where
  | handleUpload (msgId : String) (parts : Option (List Part)) (created redis : Bool)
  | request (request : Uploads.Request) (answers : Answers) (redis : Bool)
  | expire (uploadId : String)
  | brpop
  | genThumb (worker : ℕ)
  | stop (worker : ℕ)

/-- What `generateMsgId` draws is made of 36 of these. -/
def uuidLetters : List Char := "0123456789abcdef-".toList

def isUuid (msgId : String) : Bool := decide (msgId.length = 36) && msgId.toList.all uuidLetters.contains

section Step

-- the thumbnail of a picture, by the extension, the content and the size; `none` is an
-- exception
variable (render : String → Bytes → ℕ → Option Bytes)

def State.genThumb (state : State) (worker : ℕ) (path : String) (size : ℕ) (sizes : List ℕ) : State :=
  match (state.file path).bind (render (String.ofList (splitext path.toList).2) · size),
      Web.Handlers.behind "../uploads/".toList (outPath path size).toList with
  | some thumb, some name =>
      { state.write (String.ofList name) thumb with
        workers := state.workers.set worker (path, sizes)
        made := (path, size) :: state.made }
  -- no file of the uploads
  | some _, none => { state with workers := state.workers.set worker (path, sizes) }
  | none, _ => { state with workers := state.workers.eraseIdx worker }

def step (state : State) : Event → Option State
  | .handleUpload msgId parts created redis =>
      if isUuid msgId && !state.uploads.issued.contains msgId then
        some (state.handleUpload msgId parts created redis)
      else none
  | .request request answers redis =>
      if request.draws.all isUuid then
        (Uploads.step state.uploads (.request request answers)).map fun after =>
          match state.completes request answers with
          | some finished => { state with uploads := after }.push redis finished.metadata.ext finished.name
          | none => { state with uploads := after }
      else none
  | .expire uploadId =>
      (Uploads.step state.uploads (.expire uploadId)).map fun after => { state with uploads := after }
  | .brpop =>
      state.thumbQueue.getLast?.map fun job =>
        let popped := { state with thumbQueue := state.thumbQueue.dropLast }
        if (state.file job.originalPath).isSome then
          { popped with workers := state.workers ++ [(job.originalPath, job.sizes)] }
        else popped
  | .genThumb worker =>
      match state.workers[worker]? with
      | some (path, size :: sizes) => some (state.genThumb render worker path size sizes)
      | some (_, []) => some { state with workers := state.workers.eraseIdx worker }
      | none => none
  | .stop worker =>
      if worker < state.workers.length then some { state with workers := state.workers.eraseIdx worker } else none

def machine : Machine State Event := ⟨step render⟩

end Step

/-- The address that the page makes from a picture's. -/
def pageThumbnail (url : String) : String := String.ofList (Web.Handlers.thumbnail url.toList)

end MuduoIm.Server.Thumbnails
