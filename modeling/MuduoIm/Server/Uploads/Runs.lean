import MuduoIm.Server.Uploads
import MuduoIm.Transition.Machine

namespace MuduoIm.Server.Uploads

open MuduoIm.Transition MuduoIm.Data

/-! # Runs of upload requests

Requests of all users are handled one after the other, and metadata expire at
any time.  The state also holds what the requests have been told so far.
-/

inductive Request where
  -- `uploadId` is drawn by the server
  | init (userId : Int) (uploadId : String) (now : Int) (body : Option Json)
  | chunk (userId : Int) (uploadId index : String) (body : Bytes)
  | status (userId : Int) (uploadId : String)
  | complete (userId : Int) (body : Option Json)

namespace Request

def handle (answers : Answers) (store : Store) : Request → Response × Store
  | .init userId uploadId now body => handleUploadInit userId uploadId now body answers store
  | .chunk userId uploadId index body => handleUploadChunk userId uploadId index body answers store
  | .status userId uploadId => (handleUploadStatus userId uploadId answers store, store)
  | .complete userId body => handleUploadComplete userId body answers store

def draws : Request → Option String
  | .init _ uploadId _ _ => some uploadId
  | _ => none

end Request

def uploadIdOf (body : Option Json) : Option String := body.bind fun json => json.valueString "upload_id" ""

/-- An upload whose completion has been answered with success; `content` was
the final file then. -/
structure Finished where
  uploadId : String
  metadata : Metadata
  content : Bytes
deriving DecidableEq, Repr

def Finished.name (finished : Finished) : String := finished.metadata.finalName finished.uploadId

/-- `accepted` is the body of the last chunk with that index that was answered
with success. -/
structure State where
  store : Store := {}
  issued : List String := []
  accepted : String → Nat → Option Bytes := fun _ _ => none
  finished : List Finished := []

inductive Event where
  | request (request : Request) (answers : Answers)
  | expire (uploadId : String)

namespace State

variable (state : State)

def accept (uploadId : String) (index : Nat) (body : Bytes) : String → Nat → Option Bytes :=
  Function.update state.accepted uploadId (Function.update (state.accepted uploadId) index (some body))

/-- The upload that the store has finished with this request. -/
def finish (body : Option Json) (after : Store) : Option Finished := do
  let uploadId ← uploadIdOf body
  let metadata ← state.store.metas.lookup uploadId
  let content ← after.finals.lookup (metadata.finalName uploadId)
  some { uploadId, metadata, content }

def answered (request : Request) (answer : Response × Store) : State :=
  match request, answer.1 with
  | .init _ uploadId _ _, _ => { state with store := answer.2, issued := uploadId :: state.issued }
  | .chunk _ uploadId _ body, .chunkStored index _ _ =>
      { state with store := answer.2, accepted := state.accept uploadId index body }
  | .complete _ body, .completed _ =>
      { state with store := answer.2, finished := (state.finish body answer.2).toList ++ state.finished }
  | _, _ => { state with store := answer.2 }

end State

/-- An identifier is drawn once, and has 36 characters. -/
def step (state : State) : Event → Option State
  | .request request answers =>
      if request.draws.all (fun uploadId => decide (uploadId ∉ state.issued ∧ uploadId.length = 36)) then
        some (state.answered request (request.handle answers state.store))
      else none
  | .expire uploadId =>
      some { state with store := { state.store with metas := state.store.metas.erase uploadId } }

def machine : Machine State Event := ⟨step⟩

/-! ## What a step can do -/

/-- Metadata as they are declared, whatever has been received. -/
structure Metadata.Valid (metadata : Metadata) : Prop where
  positive : 0 < metadata.totalSize
  totalChunks : metadata.totalChunks = Pieces.count kChunkSize metadata.totalSize
  nodup : metadata.received.Nodup
  inRange : ∀ index ∈ metadata.received, index < metadata.totalChunks

/-- The metadata of the upload are replaced, if Redis answers. -/
def Store.put (store : Store) (set : Bool) (uploadId : String) (metadata : Metadata) : Table String Metadata :=
  if set then store.metas.insert uploadId metadata else store.metas

inductive Effect (state : State) : State → Prop
  | same : Effect state state
  | drawn (uploadId : String) (shape : uploadId.length = 36) :
      Effect state { state with issued := uploadId :: state.issued }
  | began (uploadId : String) (metadata : Metadata) (set : Bool) (shape : uploadId.length = 36)
      (fresh : uploadId ∉ state.issued) (valid : metadata.Valid) (empty : metadata.received = []) :
      Effect state { state with
        store := { state.store with
          metas := state.store.put set uploadId metadata
          directories := state.store.directories.insert uploadId ∅ }
        issued := uploadId :: state.issued }
  | stored (chunk : Chunk) (files : Table Nat Bytes) (set : Bool)
      (found : state.store.metas.lookup chunk.uploadId = some chunk.metadata)
      (inRange : chunk.index < chunk.metadata.totalChunks) (small : chunk.body.length ≤ kChunkSize)
      (directory : state.store.directories.lookup chunk.uploadId = some files) :
      Effect state { state with
        store := { state.store with
          metas := state.store.put set chunk.uploadId chunk.recorded
          directories := state.store.directories.insert chunk.uploadId (files.insert chunk.index chunk.body) }
        accepted := state.accept chunk.uploadId chunk.index chunk.body }
  | merged (uploadId : String) (metadata : Metadata) (bodies : List Bytes) (set : Bool)
      (found : state.store.metas.lookup uploadId = some metadata)
      (all : metadata.received.length = metadata.totalChunks)
      (collected : Pieces.collect (state.store.chunks uploadId) metadata.totalChunks = .ok bodies) :
      Effect state { state with
        store := {
          metas := state.store.put set uploadId { metadata with completed := true }
          directories := state.store.cleaned uploadId metadata.totalChunks
          finals := state.store.finals.insert (metadata.finalName uploadId) (Pieces.streamed bodies) }
        finished := ⟨uploadId, metadata, Pieces.streamed bodies⟩ :: state.finished }
  | spoiled (uploadId : String) (metadata : Metadata) (index : Nat)
      (found : state.store.metas.lookup uploadId = some metadata)
      (all : metadata.received.length = metadata.totalChunks)
      (missing : Pieces.collect (state.store.chunks uploadId) metadata.totalChunks = .error index) :
      Effect state { state with
        store := { state.store with finals := state.store.finals.erase (metadata.finalName uploadId) } }
  | expired (uploadId : String) :
      Effect state { state with store := { state.store with metas := state.store.metas.erase uploadId } }

section Handlers

variable {userId now : Int} {uploadId index : String} {body : Option Json} {content : Bytes} {answers : Answers}
variable {store : Store} {metadata : Metadata} {state next : State} {event : Event}

theorem metas_of_get (got : store.get answers uploadId = some metadata) :
    answers.get = true ∧ store.metas.lookup uploadId = some metadata := by
  unfold Store.get at got
  split at got
  · rename_i answered
    exact ⟨answered, got⟩
  · cases got

theorem valid_declared {fileName : String} {totalSize : Nat} (positive : 0 < totalSize) :
    (Metadata.declared fileName totalSize userId now).Valid where
  positive := positive
  totalChunks := rfl
  nodup := List.nodup_nil
  inRange := nofun

/-- Either nothing changes, or a new directory is made for declared metadata. -/
theorem handleUploadInit_cases :
    (handleUploadInit userId uploadId now body answers store).2 = store ∨
      ∃ metadata : Metadata, metadata.Valid ∧ metadata.received = [] ∧
        (handleUploadInit userId uploadId now body answers store).2 = { store with
          metas := store.put answers.set uploadId metadata
          directories := store.directories.insert uploadId ∅ } := by
  unfold handleUploadInit
  split
  · exact .inl rfl
  split
  · rename_i fileName totalSize _ _
    split
    · exact .inl rfl
    rename_i sized
    split
    · exact .inl rfl
    unfold Store.create
    split
    · exact .inl rfl
    have positive : 0 < totalSize.toNat := by omega
    exact .inr ⟨_, valid_declared positive, rfl, rfl⟩
  · exact .inl rfl

/-- Either nothing changes and the answer is no success, or the chunk is
written and recorded. -/
theorem handleUploadChunk_cases :
    (∃ response : Response, response.success = false ∧
        handleUploadChunk userId uploadId index content answers store = (response, store)) ∨
      ∃ chunk files, readChunk userId uploadId index content answers store = .ok chunk ∧
        store.directories.lookup chunk.uploadId = some files ∧
        handleUploadChunk userId uploadId index content answers store =
          (.chunkStored chunk.index chunk.recorded.received.length chunk.metadata.totalChunks, { store with
            metas := store.put answers.set chunk.uploadId chunk.recorded
            directories := store.directories.insert chunk.uploadId (files.insert chunk.index chunk.body) }) := by
  unfold handleUploadChunk
  cases read : readChunk userId uploadId index content answers store with
  | error response => exact .inl ⟨response, readChunk_error read, rfl⟩
  | ok chunk =>
      dsimp only
      cases wrote : writeChunk chunk answers store with
      | none => exact .inl ⟨_, rfl, rfl⟩
      | some written =>
          refine .inr ⟨chunk, ?_⟩
          unfold writeChunk at wrote
          split at wrote
          · cases wrote
          rename_i files directory
          obtain ⟨_, same⟩ := Option.ite_none_right_eq_some.mp wrote
          cases same
          refine ⟨files, rfl, directory, ?_⟩
          dsimp only [recordChunk, Store.put]
          split <;> rfl

/-- The request passes all checks before the merge. -/
structure Reaches (userId : Int) (body : Option Json) (answers : Answers) (store : Store) (uploadId : String)
    (metadata : Metadata) : Prop where
  named : uploadIdOf body = some uploadId
  got : answers.get = true
  found : store.metas.lookup uploadId = some metadata
  owner : metadata.uid = userId
  all : metadata.received.length = metadata.totalChunks

theorem handleUploadComplete_cases :
    (∃ response : Response, response.success = false ∧
        handleUploadComplete userId body answers store = (response, store)) ∨
      ∃ uploadId metadata, Reaches userId body answers store uploadId metadata ∧
        handleUploadComplete userId body answers store = store.merge answers uploadId metadata := by
  unfold handleUploadComplete
  split
  · exact .inl ⟨_, rfl, rfl⟩
  rename_i json
  split
  · exact .inl ⟨_, rfl, rfl⟩
  rename_i uploadId named
  split
  · exact .inl ⟨_, rfl, rfl⟩
  split
  · exact .inl ⟨_, rfl, rfl⟩
  rename_i metadata got
  split
  · exact .inl ⟨_, rfl, rfl⟩
  rename_i owner
  split
  · exact .inl ⟨_, rfl, rfl⟩
  rename_i all
  obtain ⟨answered, found⟩ := metas_of_get got
  exact .inr ⟨uploadId, metadata, ⟨named, answered, found, not_not.mp owner, not_not.mp all⟩, rfl⟩

theorem handleUploadComplete_of_reaches (given : uploadId ≠ "")
    (reaches : Reaches userId body answers store uploadId metadata) :
    handleUploadComplete userId body answers store = store.merge answers uploadId metadata := by
  obtain ⟨json, rfl, named⟩ := Option.bind_eq_some_iff.mp reaches.named
  have got : store.get answers uploadId = some metadata := by
    rw [Store.get, if_pos reaches.got]
    exact reaches.found
  unfold handleUploadComplete
  simp only [named, if_neg given, got, reaches.owner, reaches.all, ne_eq, not_true_eq_false, if_false]

end Handlers

/-! ## Each step has an effect -/

section Effects

variable {userId now : Int} {uploadId index : String} {body : Option Json} {content : Bytes} {answers : Answers}
variable {state next : State} {event : Event}

theorem effect_init (shape : uploadId.length = 36) (fresh : uploadId ∉ state.issued) :
    Effect state (state.answered (.init userId uploadId now body)
      (handleUploadInit userId uploadId now body answers state.store)) := by
  have answered : state.answered (.init userId uploadId now body)
      (handleUploadInit userId uploadId now body answers state.store) = { state with
        store := (handleUploadInit userId uploadId now body answers state.store).2
        issued := uploadId :: state.issued } := rfl
  rw [answered]
  rcases @handleUploadInit_cases userId now uploadId body answers state.store with same | began
  · rw [same]
    exact .drawn uploadId shape
  · obtain ⟨metadata, valid, empty, changed⟩ := began
    rw [changed]
    exact .began uploadId metadata answers.set shape fresh valid empty

theorem effect_chunk :
    Effect state (state.answered (.chunk userId uploadId index content)
      (handleUploadChunk userId uploadId index content answers state.store)) := by
  rcases @handleUploadChunk_cases userId uploadId index content answers state.store with refused | stored
  · obtain ⟨response, noSuccess, same⟩ := refused
    rw [same]
    have answered : state.answered (.chunk userId uploadId index content) (response, state.store) = state := by
      cases response with
      | chunkStored position count total => exact nomatch noSuccess
      | _ => rfl
    rw [answered]
    exact .same
  · obtain ⟨chunk, files, read, directory, changed⟩ := stored
    obtain ⟨rfl, found, _, inRange, rfl, small⟩ := readChunk_ok read
    rw [changed]
    exact .stored chunk files answers.set found inRange small directory

theorem effect_complete :
    Effect state (state.answered (.complete userId body)
      (handleUploadComplete userId body answers state.store)) := by
  rcases @handleUploadComplete_cases userId body answers state.store with refused | merged
  · obtain ⟨response, noSuccess, same⟩ := refused
    rw [same]
    have answered : state.answered (.complete userId body) (response, state.store) = state := by
      cases response with
      | completed result => exact nomatch noSuccess
      | _ => rfl
    rw [answered]
    exact .same
  · obtain ⟨uploadId, metadata, reaches, merged⟩ := merged
    rw [merged]
    unfold Store.merge
    dsimp only
    split
    · exact .same
    split
    · rename_i index missing
      exact .spoiled uploadId metadata index reaches.found reaches.all missing
    · rename_i bodies collected
      have finish (metas : Table String Metadata) (directories : Table String (Table Nat Bytes)) (bytes : Bytes) :
          state.finish body
            { metas, directories, finals := state.store.finals.insert (metadata.finalName uploadId) bytes } =
              some ⟨uploadId, metadata, bytes⟩ := by
        simp only [State.finish, reaches.named, reaches.found, Option.bind_eq_bind, Option.bind_some,
          AList.lookup_insert]
      unfold State.answered
      dsimp only
      rw [finish]
      exact .merged uploadId metadata bodies answers.set reaches.found reaches.all collected

theorem effect_step (stepped : step state event = some next) : Effect state next := by
  cases event with
  | expire uploadId =>
      cases stepped
      exact .expired uploadId
  | request request answers =>
      obtain ⟨drawn, same⟩ := Option.ite_none_right_eq_some.mp stepped
      cases same
      cases request with
      | init userId uploadId now body =>
          obtain ⟨fresh, shape⟩ := of_decide_eq_true drawn
          exact effect_init shape fresh
      | chunk userId uploadId index body => exact effect_chunk
      | status userId uploadId => exact .same
      | complete userId body => exact effect_complete

end Effects

end MuduoIm.Server.Uploads
