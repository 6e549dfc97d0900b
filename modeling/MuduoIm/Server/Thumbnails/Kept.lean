import MuduoIm.Server.Thumbnails.Names

namespace MuduoIm.Server.Thumbnails

open MuduoIm.Data MuduoIm.Data.FileName MuduoIm.Transition
open MuduoIm.Server.Uploads (Answers Effect Finished Metadata Response Sound Store lower)

/-! # The directory in a run

The files are the accepted ones, each under its own name, and thumbnails of these.
-/

namespace Upload

variable (upload : Upload)

def path : String := "../uploads/" ++ upload.savedName

def thumbName (size : ℕ) : String := Thumbnails.thumbName upload.msgId upload.ext size

/-- The answer announces the names that the other parts use. -/
structure Good : Prop where
  plain : Plain upload.msgId
  accepted : Accepted upload.ext
  url : upload.answer.url = "/uploads/" ++ upload.savedName
  thumbs : upload.answer.thumbs =
    if isImage upload.ext then some ("/uploads/" ++ upload.thumbName 200, "/uploads/" ++ upload.thumbName 600) else none

end Upload

def State.finals (state : State) : Table String Bytes := state.uploads.store.finals

variable {render : String → Bytes → ℕ → Option Bytes} {state next : State} {upload other : Upload} {size : ℕ}

structure Kept (render : String → Bytes → ℕ → Option Bytes) (state : State) : Prop where
  sound : Sound state.uploads
  uuids : ∀ msgId ∈ state.uploads.issued, Plain msgId
  metas : ∀ uploadId metadata, state.uploads.store.metas.lookup uploadId = some metadata → Accepted metadata.ext
  apart : ∀ upload ∈ state.stored, state.uploads.store.metas.lookup upload.msgId = none
  issued : ∀ upload ∈ state.accepted, upload.msgId ∈ state.uploads.issued
  good : ∀ upload ∈ state.accepted, upload.Good
  once : ∀ first ∈ state.accepted, ∀ second ∈ state.accepted, first.msgId = second.msgId → first = second
  jobs : ∀ queued ∈ state.thumbQueue,
    ∃ upload ∈ state.accepted, isImage upload.ext = true ∧ queued = job upload.savedName
  workers : ∀ worker ∈ state.workers, ∃ upload ∈ state.accepted, isImage upload.ext = true ∧ worker.1 = upload.path
  made : ∀ entry ∈ state.made, ∃ upload ∈ state.accepted, isImage upload.ext = true ∧ entry.1 = upload.path ∧
    ∃ thumb, render upload.ext upload.content entry.2 = some thumb ∧
      state.finals.lookup (upload.thumbName entry.2) = some thumb
  present : ∀ upload ∈ state.stored, state.finals.lookup upload.savedName = some upload.content
  files : ∀ name bytes, state.finals.lookup name = some bytes →
    (∃ upload ∈ state.accepted, name = upload.savedName ∧ bytes = upload.content) ∨
      ∃ upload ∈ state.accepted, ∃ size, (upload.path, size) ∈ state.made ∧ name = upload.thumbName size

/-! ## Names of files of one run -/

theorem dotted_of_image (image : isImage upload.ext = true) : Dotted upload.ext :=
  dotted_of_lower (allowed_of_image image)

theorem Upload.Good.savedName_ne (good : upload.Good) (goodOther : other.Good) :
    upload.savedName ≠ other.thumbName size :=
  good.plain.savedName_ne_thumbName goodOther.plain good.accepted

theorem Upload.Good.savedName_inj (good : upload.Good) (goodOther : other.Good)
    (same : upload.savedName = other.savedName) : upload.msgId = other.msgId :=
  (good.plain.append_inj goodOther.plain same).1

theorem path_inj (same : upload.path = other.path) : upload.savedName = other.savedName :=
  (String.append_right_inj _).mp same

/-- Behind the directory is the name. -/
theorem file_append (state : State) (name : String) :
    state.file ("../uploads/" ++ name) = state.finals.lookup name := by
  rw [State.file, String.toList_append, Web.Handlers.behind_append, Option.bind_some, String.ofList_toList]
  rfl

theorem served_append (state : State) (name : String) :
    state.served ("/uploads/" ++ name) = state.finals.lookup name := by
  rw [State.served, String.toList_append, Web.Handlers.behind_append, Option.bind_some, String.ofList_toList]
  rfl

/-- The file of an upload is its own, while it is there. -/
theorem Kept.original (kept : Kept render state) (member : upload ∈ state.accepted) {bytes : Bytes}
    (found : state.finals.lookup upload.savedName = some bytes) : bytes = upload.content := by
  have good := kept.good upload member
  obtain ⟨other, memberOther, name, same⟩ | ⟨other, memberOther, size, _, name⟩ := kept.files _ _ found
  · have ids := good.savedName_inj (kept.good other memberOther) name
    rw [kept.once upload member other memberOther ids]
    exact same
  · exact absurd name (good.savedName_ne (kept.good other memberOther))

/-- A thumbnail is there exactly if it was made. -/
theorem Kept.thumbnail (kept : Kept render state) (member : upload ∈ state.accepted) (size : ℕ) :
    state.finals.lookup (upload.thumbName size) =
      if (upload.path, size) ∈ state.made then render upload.ext upload.content size else none := by
  have good := kept.good upload member
  split
  · rename_i made
    obtain ⟨other, memberOther, _, path, thumb, rendered, found⟩ := kept.made _ made
    have ids := good.savedName_inj (kept.good other memberOther) (path_inj path)
    obtain rfl := kept.once upload member other memberOther ids
    rw [rendered]
    exact found
  · rename_i unmade
    cases found : state.finals.lookup (upload.thumbName size) with
    | none => rfl
    | some bytes =>
        obtain ⟨other, memberOther, name, _⟩ | ⟨other, memberOther, otherSize, made, name⟩ := kept.files _ _ found
        · exact absurd name.symm ((kept.good other memberOther).savedName_ne good)
        · obtain ⟨ids, sizes⟩ := good.plain.thumbName_inj (kept.good other memberOther).plain name
          obtain rfl := kept.once upload member other memberOther ids
          rw [sizes rfl] at unmade
          exact absurd made unmade

/-! ## What keeps it -/

/-- Another accepted file. -/
theorem Kept.add (kept : Kept render state) (upload : Upload) (good : upload.Good)
    (fresh : ∀ old ∈ state.accepted, old.msgId ≠ upload.msgId)
    (members : ∀ other, other ∈ next.accepted ↔ other = upload ∨ other ∈ state.accepted)
    (stored : ∀ other ∈ next.stored, other = upload ∨ other ∈ state.stored)
    (finals : next.finals = state.finals.insert upload.savedName upload.content)
    (sound : Sound next.uploads) (uuids : ∀ msgId ∈ next.uploads.issued, Plain msgId)
    (metas : ∀ uploadId metadata, next.uploads.store.metas.lookup uploadId = some metadata → Accepted metadata.ext)
    (apart : ∀ upload ∈ next.stored, next.uploads.store.metas.lookup upload.msgId = none)
    (own : upload.msgId ∈ next.uploads.issued) (issued : ∀ msgId ∈ state.uploads.issued, msgId ∈ next.uploads.issued)
    (queue : next.thumbQueue = state.thumbQueue) (workers : next.workers = state.workers)
    (made : next.made = state.made) : Kept render next where
  sound := sound
  uuids := uuids
  metas := metas
  apart := apart
  issued other member := by
    obtain rfl | old := (members other).mp member
    · exact own
    · exact issued _ (kept.issued other old)
  good other member := by
    obtain rfl | old := (members other).mp member
    · exact good
    · exact kept.good other old
  once first memberFirst second memberSecond same := by
    obtain rfl | oldFirst := (members first).mp memberFirst
    · obtain rfl | oldSecond := (members second).mp memberSecond
      · rfl
      · exact absurd same.symm (fresh second oldSecond)
    · obtain rfl | oldSecond := (members second).mp memberSecond
      · exact absurd same (fresh first oldFirst)
      · exact kept.once first oldFirst second oldSecond same
  jobs queued member := by
    obtain ⟨old, present, rest⟩ := kept.jobs queued (queue ▸ member)
    exact ⟨old, (members old).mpr (.inr present), rest⟩
  workers worker member := by
    obtain ⟨old, present, rest⟩ := kept.workers worker (workers ▸ member)
    exact ⟨old, (members old).mpr (.inr present), rest⟩
  made entry member := by
    obtain ⟨old, present, image, path, thumb, rendered, found⟩ := kept.made entry (made ▸ member)
    refine ⟨old, (members old).mpr (.inr present), image, path, thumb, rendered, ?_⟩
    rw [finals, AList.lookup_insert_ne (good.savedName_ne (kept.good old present)).symm]
    exact found
  present other member := by
    rw [finals, Table.lookup_insert_ite]
    obtain rfl | old := stored other member
    · rw [if_pos rfl]
    · have accepted : other ∈ state.accepted := List.mem_append_left _ old
      rw [if_neg, kept.present other old]
      intro same
      exact fresh other accepted ((kept.good other accepted).savedName_inj good same)
  files name bytes found := by
    rw [finals, Table.lookup_insert_ite] at found
    split at found
    · rename_i same
      exact .inl ⟨upload, (members upload).mpr (.inl rfl), same, (Option.some.inj found).symm⟩
    · rw [made]
      obtain ⟨old, present, rest⟩ | ⟨old, present, rest⟩ := kept.files name bytes found
      · exact .inl ⟨old, (members old).mpr (.inr present), rest⟩
      · exact .inr ⟨old, (members old).mpr (.inr present), rest⟩

/-- No other accepted file, and no other file. -/
theorem Kept.withUploads (kept : Kept render state) {after : Uploads.State}
    (finished : after.finished = state.uploads.finished)
    (fewer : ∀ name bytes, after.store.finals.lookup name = some bytes → state.finals.lookup name = some bytes)
    (thumbs : ∀ upload ∈ state.accepted, ∀ size,
      after.store.finals.lookup (upload.thumbName size) = state.finals.lookup (upload.thumbName size))
    (stored : ∀ upload ∈ state.stored,
      after.store.finals.lookup upload.savedName = state.finals.lookup upload.savedName)
    (sound : Sound after) (uuids : ∀ msgId ∈ after.issued, Plain msgId)
    (metas : ∀ uploadId metadata, after.store.metas.lookup uploadId = some metadata → Accepted metadata.ext)
    (apart : ∀ upload ∈ state.stored, after.store.metas.lookup upload.msgId = none)
    (issued : ∀ msgId ∈ state.uploads.issued, msgId ∈ after.issued) :
    Kept render { state with uploads := after } := by
  have same : State.accepted { state with uploads := after } = state.accepted := by
    rw [State.accepted, finished]
    rfl
  constructor
  · exact sound
  · exact uuids
  · exact metas
  · exact apart
  · rw [same]
    exact fun upload member => issued _ (kept.issued upload member)
  · rw [same]
    exact kept.good
  · rw [same]
    exact kept.once
  · rw [same]
    exact kept.jobs
  · rw [same]
    exact kept.workers
  · rw [same]
    intro entry member
    obtain ⟨upload, present, image, path, thumb, rendered, found⟩ := kept.made entry member
    exact ⟨upload, present, image, path, thumb, rendered, (thumbs upload present entry.2).trans found⟩
  · exact fun upload member => (stored upload member).trans (kept.present upload member)
  · rw [same]
    intro name bytes found
    exact kept.files name bytes (fewer name bytes found)

theorem Kept.push (kept : Kept render state) (member : upload ∈ state.accepted) (redis : Bool) :
    Kept render (state.push redis upload.ext upload.savedName) := by
  unfold State.push
  split
  · rename_i wanted
    have image := (Bool.and_eq_true_iff.mp wanted).1
    exact { kept with jobs := List.forall_mem_cons.mpr ⟨⟨upload, member, image, rfl⟩, kept.jobs⟩ }
  · exact kept

end MuduoIm.Server.Thumbnails
