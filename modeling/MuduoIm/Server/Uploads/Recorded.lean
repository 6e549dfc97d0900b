import MuduoIm.Server.Uploads
import MuduoIm.Transition.Machine

namespace MuduoIm.Server.Uploads.Recorded

open MuduoIm.Transition MuduoIm.Data

/-! # Chunks of one upload that are sent at the same time

A request reads the metadata, writes its file and sets the metadata that it has
read, with its own index.  Between these steps other requests do the same.
-/

inductive Stage where
  | read (chunk : Chunk)
  | written (chunk : Chunk)
deriving DecidableEq, Repr

def Stage.chunk : Stage → Chunk
  | .read chunk => chunk
  | .written chunk => chunk

/-- `succeeded` are the indexes of the requests that have answered with success,
and `recorded` those that `received` has ever held. -/
structure State where
  store : Store
  requests : Nat → Option Stage := fun _ => none
  succeeded : List Nat := []
  recorded : List Nat

inductive Event where
  | get (request : Nat) (userId : Int) (index : String) (body : Bytes)
  | write (request : Nat)
  | set (request : Nat)
deriving DecidableEq, Repr

def received (uploadId : String) (store : Store) : List Nat :=
  ((store.metas.lookup uploadId).map Metadata.received).getD []

namespace State

variable (state : State)

def proceed (request : Nat) (stage : Option Stage) : State :=
  { state with requests := Function.update state.requests request stage }

def get (request : Nat) (read : Except Response Chunk) : State :=
  match read with
  | .error _ => state
  | .ok chunk => state.proceed request (some (.read chunk))

def write (request : Nat) (chunk : Chunk) : State :=
  match writeChunk chunk {} state.store with
  | none => state.proceed request none
  | some written => ({ state with store := written } : State).proceed request (some (.written chunk))

def set (request : Nat) (chunk : Chunk) : State :=
  ({ state with
    store := (recordChunk chunk {} state.store).2
    succeeded := chunk.index :: state.succeeded
    recorded := chunk.recorded.received ++ state.recorded } : State).proceed request none

end State

def step (uploadId : String) (state : State) : Event → Option State
  | .get request userId index body =>
      if state.requests request = none then
        some (state.get request (readChunk userId uploadId index body {} state.store))
      else none
  | .write request =>
      match state.requests request with
      | some (.read chunk) => some (state.write request chunk)
      | _ => none
  | .set request =>
      match state.requests request with
      | some (.written chunk) => some (state.set request chunk)
      | _ => none

def machine (uploadId : String) : Machine State Event := ⟨step uploadId⟩

def start (uploadId : String) (store : Store) : State := { store, recorded := received uploadId store }

/-- Each request that has succeeded is in `received` once, and nothing that has
been there is removed. -/
def AllRecorded (uploadId : String) (state : State) : Prop :=
  (∀ index ∈ state.succeeded, (received uploadId state.store).count index = 1) ∧
    ∀ index ∈ state.recorded, index ∈ received uploadId state.store

/-- The request that sets the metadata has read all indexes that are in them
now, apart from its own. -/
def UpToDate (uploadId : String) (state : State) : Event → Prop
  | .set request =>
      ∀ chunk, state.requests request = some (.written chunk) →
        ∀ index ∈ received uploadId state.store, index ∈ chunk.metadata.received ∨ index = chunk.index
  | _ => True

/-- What every run keeps. -/
structure Kept (uploadId : String) (state : State) : Prop where
  nodup : (received uploadId state.store).Nodup
  recorded : ∀ index ∈ received uploadId state.store, index ∈ state.recorded
  succeeded : ∀ index ∈ state.succeeded, index ∈ state.recorded
  requests : ∀ request stage, state.requests request = some stage →
    stage.chunk.uploadId = uploadId ∧ stage.chunk.metadata.received.Nodup

variable {uploadId index : String} {userId : Int} {body : Bytes} {store written : Store} {chunk : Chunk}
variable {state next : State} {event : Event} {events : List Event} {request : Nat} {stage : Stage}

/-! ## One step -/

theorem received_recordChunk : received chunk.uploadId (recordChunk chunk {} store).2 = chunk.recorded.received := by
  have stored : (recordChunk chunk {} store).2.metas = store.metas.insert chunk.uploadId chunk.recorded := rfl
  rw [received, stored, AList.lookup_insert]
  rfl

theorem Kept.proceed {position : Option Stage} (kept : Kept uploadId state)
    (given : ∀ stage, position = some stage →
      stage.chunk.uploadId = uploadId ∧ stage.chunk.metadata.received.Nodup) :
    Kept uploadId (state.proceed request position) where
  nodup := kept.nodup
  recorded := kept.recorded
  succeeded := kept.succeeded
  requests := (Function.forall_update_iff state.requests fun _ position => ∀ stage, position = some stage →
      stage.chunk.uploadId = uploadId ∧ stage.chunk.metadata.received.Nodup).mpr
    ⟨given, fun other _ => kept.requests other⟩

theorem Kept.get (kept : Kept uploadId state) :
    Kept uploadId (state.get request (readChunk userId uploadId index body {} state.store)) := by
  cases read : readChunk userId uploadId index body {} state.store with
  | error response => exact kept
  | ok chunk =>
      obtain ⟨same, found, _⟩ := readChunk_ok read
      refine kept.proceed fun stage given => ?_
      cases given
      have nodup := kept.nodup
      rw [received, found] at nodup
      exact ⟨same, nodup⟩

theorem received_write : received uploadId (state.write request chunk).store = received uploadId state.store := by
  unfold State.write
  split
  · rfl
  · rename_i written wrote
    exact congrArg (fun metas => ((AList.lookup uploadId metas).map Metadata.received).getD []) (metas_writeChunk wrote)

theorem Kept.write (kept : Kept uploadId state) (running : state.requests request = some (.read chunk)) :
    Kept uploadId (state.write request chunk) := by
  have same := @received_write uploadId chunk state request
  unfold State.write at same ⊢
  split
  · exact kept.proceed nofun
  · rename_i written wrote
    simp only [wrote, State.proceed] at same
    have moved : Kept uploadId { state with store := written } := {
      nodup := same ▸ kept.nodup
      recorded := fun index member => kept.recorded index (same ▸ member)
      succeeded := kept.succeeded
      requests := kept.requests }
    refine moved.proceed fun stage given => ?_
    cases given
    have given := kept.requests request _ running
    exact given

theorem received_set (running : state.requests request = some stage) (kept : Kept uploadId state) :
    received uploadId (state.set request stage.chunk).store = stage.chunk.recorded.received := by
  obtain ⟨same, _⟩ := kept.requests request stage running
  rw [← same]
  exact received_recordChunk

theorem Kept.set (kept : Kept uploadId state) (running : state.requests request = some stage) :
    Kept uploadId (state.set request stage.chunk) := by
  have now := received_set running kept
  have own : stage.chunk.index ∈ stage.chunk.recorded.received := mem_recorded.mpr (.inr rfl)
  refine Kept.proceed ?_ nofun
  constructor
  · exact (congrArg List.Nodup now).mpr (nodup_recorded (kept.requests request stage running).2)
  · intro index member
    exact List.mem_append_left _ (now ▸ member)
  · intro index member
    rcases List.mem_cons.mp member with rfl | earlier
    · exact List.mem_append_left _ own
    · exact List.mem_append_right _ (kept.succeeded index earlier)
  · exact kept.requests

/-- Setting the metadata keeps all that was recorded exactly if the request has
read it. -/
theorem allRecorded_set (kept : Kept uploadId state) (all : AllRecorded uploadId state)
    (running : state.requests request = some stage) :
    AllRecorded uploadId (state.set request stage.chunk) ↔
      ∀ index ∈ received uploadId state.store, index ∈ stage.chunk.metadata.received ∨ index = stage.chunk.index := by
  have now := received_set running kept
  have after := kept.set running
  constructor
  · intro allAfter index member
    have held := allAfter.2 index (List.mem_append_right _ (kept.recorded index member))
    rw [now] at held
    exact mem_recorded.mp held
  · intro seen
    have holds : ∀ index ∈ (state.set request stage.chunk).recorded,
        index ∈ received uploadId (state.set request stage.chunk).store := by
      intro index member
      rw [now]
      rcases List.mem_append.mp member with own | earlier
      · exact own
      · exact mem_recorded.mpr (seen index (all.2 index earlier))
    refine ⟨fun index success => ?_, holds⟩
    exact List.count_eq_one_of_mem after.nodup (holds index (after.succeeded index success))

theorem step_cases (stepped : step uploadId state event = some next) :
    (∃ request userId index body, event = .get request userId index body ∧
        next = state.get request (readChunk userId uploadId index body {} state.store)) ∨
      (∃ request chunk, event = .write request ∧ state.requests request = some (.read chunk) ∧
        next = state.write request chunk) ∨
      ∃ request chunk, event = .set request ∧ state.requests request = some (.written chunk) ∧
        next = state.set request chunk := by
  cases event with
  | get request userId index body =>
      obtain ⟨_, same⟩ := Option.ite_none_right_eq_some.mp stepped
      exact .inl ⟨request, userId, index, body, rfl, (Option.some.inj same).symm⟩
  | write request =>
      rw [step] at stepped
      split at stepped
      · rename_i chunk running
        exact .inr (.inl ⟨request, chunk, rfl, running, (Option.some.inj stepped).symm⟩)
      · cases stepped
  | set request =>
      rw [step] at stepped
      split at stepped
      · rename_i chunk running
        exact .inr (.inr ⟨request, chunk, rfl, running, (Option.some.inj stepped).symm⟩)
      · cases stepped

theorem kept_step (kept : Kept uploadId state) (stepped : step uploadId state event = some next) :
    Kept uploadId next := by
  obtain ⟨request, userId, index, body, rfl, rfl⟩ | ⟨request, chunk, rfl, running, rfl⟩ |
    ⟨request, chunk, rfl, running, rfl⟩ := step_cases stepped
  · exact kept.get
  · exact kept.write running
  · have after := kept.set running
    exact after

theorem allRecorded_get {read : Except Response Chunk} (all : AllRecorded uploadId state) :
    AllRecorded uploadId (state.get request read) := by
  unfold State.get
  split
  · exact all
  · exact all

theorem allRecorded_write (all : AllRecorded uploadId state) : AllRecorded uploadId (state.write request chunk) := by
  have recorded : (state.write request chunk).recorded = state.recorded := by
    unfold State.write
    split <;> rfl
  have succeeded : (state.write request chunk).succeeded = state.succeeded := by
    unfold State.write
    split <;> rfl
  rw [AllRecorded, received_write, recorded, succeeded]
  exact all

/-- Only setting the metadata can lose an index. -/
theorem allRecorded_step (kept : Kept uploadId state) (all : AllRecorded uploadId state)
    (stepped : step uploadId state event = some next) :
    AllRecorded uploadId next ↔ UpToDate uploadId state event := by
  obtain ⟨request, userId, index, body, rfl, rfl⟩ | ⟨request, chunk, rfl, running, rfl⟩ |
    ⟨request, chunk, rfl, running, rfl⟩ := step_cases stepped
  · exact iff_of_true (allRecorded_get all) trivial
  · exact iff_of_true (allRecorded_write all) trivial
  · have exact_set := allRecorded_set kept all running
    refine exact_set.trans ⟨fun seen other given => ?_, fun upToDate => upToDate chunk running⟩
    cases running.symm.trans given
    exact seen

/-- All chunks are recorded throughout exactly if every request that sets the
metadata has read what the others have recorded. -/
theorem allRecorded_iff_upToDate (nodup : (received uploadId store).Nodup) :
    (machine uploadId).Always (AllRecorded uploadId) (start uploadId store) events ↔
      (machine uploadId).Meets (UpToDate uploadId) (start uploadId store) events := by
  refine Machine.always_iff_meets (Kept uploadId) ⟨nofun, fun _ => id⟩ ?_
    (fun _ _ _ kept stepped => kept_step kept stepped) (fun _ _ _ kept all stepped => allRecorded_step kept all stepped)
  exact { nodup, recorded := fun _ => id, succeeded := nofun, requests := nofun }

/-! ## Two requests at the same time -/

/-- An upload of two chunks, as `handleUploadInit` leaves it. -/
def twoChunks : Store :=
  (handleUploadInit 1 "id" 0
    (some (.object [("file_name", .string "notes.txt"), ("total_size", .integer (1024 * 1024 + 1))])) {} {}).2

def inTurn : List Event :=
  [.get 0 1 "0" [65], .write 0, .set 0, .get 1 1 "1" [66], .write 1, .set 1]

def overlapping : List Event :=
  [.get 0 1 "0" [65], .get 1 1 "1" [66], .write 0, .write 1, .set 0, .set 1]

theorem recorded_inTurn : (machine "id").Always (AllRecorded "id") (start "id" twoChunks) inTurn := by
  refine (allRecorded_iff_upToDate (by decide)).mpr ?_
  refine .cons rfl trivial (.cons rfl trivial (.cons rfl ?_ ?_))
  · intro chunk running
    cases running
    decide
  refine .cons rfl trivial (.cons rfl trivial (.cons rfl ?_ trivial))
  intro chunk running
  cases running
  decide

theorem lost_overlapping :
    (∃ state, (machine "id").run (start "id" twoChunks) overlapping = some state ∧
      (∀ request < 2, state.requests request = none) ∧ state.succeeded = [1, 0] ∧ received "id" state.store = [1] ∧
      (handleUploadComplete 1 (some (.object [("upload_id", .string "id")])) {} state.store).1 =
        .badRequest "not all chunks received") ∧
      ¬(machine "id").Always (AllRecorded "id") (start "id" twoChunks) overlapping := by
  have ends : ∃ state, (machine "id").run (start "id" twoChunks) overlapping = some state ∧
      (∀ request < 2, state.requests request = none) ∧ state.succeeded = [1, 0] ∧ received "id" state.store = [1] ∧
      (handleUploadComplete 1 (some (.object [("upload_id", .string "id")])) {} state.store).1 =
        .badRequest "not all chunks received" :=
    ⟨_, rfl, by decide, rfl, by decide, by decide⟩
  refine ⟨ends, fun always => ?_⟩
  obtain ⟨state, completed, _, succeeded, left, _⟩ := ends
  have once := (always.atEnd completed).1 0 (by rw [succeeded]; decide)
  rw [left] at once
  revert once
  decide

end MuduoIm.Server.Uploads.Recorded
