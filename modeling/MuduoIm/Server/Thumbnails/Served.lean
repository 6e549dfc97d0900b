import MuduoIm.Server.Thumbnails.Kept

namespace MuduoIm.Server.Thumbnails

open MuduoIm.Data MuduoIm.Data.FileName MuduoIm.Transition
open MuduoIm.Server.Uploads (Answers Effect Finished Metadata Response Sound Store allowedExts extension lower)

/-! # What is under the announced addresses

The chunked uploads are taken from their own runs, and one request and the workers
are added to them.
-/

variable {render : String → Bytes → ℕ → Option Bytes} {state next : State} {upload other : Upload} {size : ℕ}
variable {after : Uploads.State} {request : Uploads.Request} {answers : Answers} {event : Uploads.Event}

/-! ## Requests for chunked uploads -/

section Chunked

variable {userId now : Int} {uploadId drawn index msgId : String} {body : Option Json} {content : Bytes} {store : Store}
variable {metadata : Metadata} {ext : String}

theorem accepted_of_checked (checked : ¬(lower ext ≠ "" ∧ lower ext ∉ allowedExts)) : Accepted ext := by
  by_cases empty : lower ext = ""
  · exact .inl (lower_eq_empty empty)
  · by_contra refused
    exact checked ⟨empty, fun member => refused (.inr (dotted_of_lower member))⟩

theorem metas_init (found : (Uploads.handleUploadInit userId drawn now body answers store).2.metas.lookup uploadId =
      some metadata) : store.metas.lookup uploadId = some metadata ∨ Accepted metadata.ext := by
  unfold Uploads.handleUploadInit at found
  split at found
  · exact .inl found
  split at found
  · rename_i fileName totalSize _ _
    split at found
    · exact .inl found
    split at found
    · exact .inl found
    rename_i checked
    unfold Store.create at found
    split at found
    · exact .inl found
    obtain new | old := @Uploads.lookup_put store answers.set drawn uploadId _ metadata found
    · rw [new.2]
      exact .inr (accepted_of_checked checked)
    · exact .inl old
  · exact .inl found

theorem metas_chunk (found : (Uploads.handleUploadChunk userId drawn index content answers store).2.metas.lookup
      uploadId = some metadata) :
    ∃ before, store.metas.lookup uploadId = some before ∧ before.ext = metadata.ext := by
  obtain refused | written := @Uploads.handleUploadChunk_cases userId drawn index content answers store
  · obtain ⟨response, _, same⟩ := refused
    rw [same] at found
    exact ⟨metadata, found, rfl⟩
  · obtain ⟨chunk, files, read, _, same⟩ := written
    rw [same] at found
    obtain new | old := Uploads.lookup_put found
    · obtain ⟨named, held, _⟩ := Uploads.readChunk_ok read
      rw [new.1, new.2, named]
      exact ⟨chunk.metadata, held, rfl⟩
    · exact ⟨metadata, old, rfl⟩

theorem metas_complete (found : (Uploads.handleUploadComplete userId body answers store).2.metas.lookup uploadId =
      some metadata) : ∃ before, store.metas.lookup uploadId = some before ∧ before.ext = metadata.ext := by
  obtain refused | merged := @Uploads.handleUploadComplete_cases userId body answers store
  · obtain ⟨response, _, same⟩ := refused
    rw [same] at found
    exact ⟨metadata, found, rfl⟩
  · obtain ⟨completed, before, reaches, same⟩ := merged
    rw [same] at found
    unfold Store.merge at found
    dsimp only at found
    split at found
    · exact ⟨metadata, found, rfl⟩
    split at found
    · exact ⟨metadata, found, rfl⟩
    · obtain new | old := @Uploads.lookup_put store answers.set completed uploadId _ metadata found
      · rw [new.1, new.2]
        exact ⟨before, reaches.found, rfl⟩
      · exact ⟨metadata, old, rfl⟩

/-- Extensions of declared uploads have passed the check. -/
theorem metas_step {before : Uploads.State} (stepped : Uploads.step before event = some after)
    (accepted : ∀ uploadId metadata, before.store.metas.lookup uploadId = some metadata → Accepted metadata.ext)
    (uploadId : String) (metadata : Metadata) (found : after.store.metas.lookup uploadId = some metadata) :
    Accepted metadata.ext := by
  cases event with
  | expire expired =>
      cases stepped
      dsimp only at found
      rw [Table.lookup_erase_ite] at found
      split at found
      · cases found
      · exact accepted uploadId metadata found
  | request request answers =>
      obtain ⟨_, same⟩ := Option.ite_none_right_eq_some.mp stepped
      cases same
      rw [Uploads.store_answered] at found
      cases request with
      | init userId drawn now body =>
          obtain old | new := metas_init found
          · exact accepted uploadId metadata old
          · exact new
      | chunk userId drawn index body =>
          obtain ⟨earlier, held, same⟩ := metas_chunk found
          exact same ▸ accepted uploadId earlier held
      | status userId asked => exact accepted uploadId metadata found
      | complete userId body =>
          obtain ⟨earlier, held, same⟩ := metas_complete found
          exact same ▸ accepted uploadId earlier held

/-- The only new identifier is the one that is drawn. -/
theorem issued_step {before : Uploads.State} (stepped : Uploads.step before event = some after)
    (issued : msgId ∈ after.issued) :
    msgId ∈ before.issued ∨ ∃ request answers, event = .request request answers ∧ request.draws = some msgId := by
  cases event with
  | expire expired =>
      cases stepped
      exact .inl issued
  | request request answers =>
      obtain ⟨_, same⟩ := Option.ite_none_right_eq_some.mp stepped
      cases same
      cases request with
      | init userId drawn now body =>
          obtain own | old := List.mem_cons.mp issued
          · exact .inr ⟨_, _, rfl, own ▸ rfl⟩
          · exact .inl old
      | chunk userId drawn index body =>
          refine .inl ?_
          unfold Uploads.State.answered at issued
          split at issued <;> first | exact issued | contradiction
      | status userId asked => exact .inl issued
      | complete userId body =>
          refine .inl ?_
          unfold Uploads.State.answered at issued
          split at issued <;> first | exact issued | contradiction

theorem good_of_finished {finished : Finished} (plain : Plain finished.uploadId)
    (accepted : Accepted finished.metadata.ext) : (acceptedOf finished).Good where
  plain := plain
  accepted := accepted
  url := rfl
  thumbs := by
    simp only [acceptedOf, Metadata.result, isImage, decide_eq_true_eq, Upload.thumbName, thumbName,
      String.append_assoc]
    rfl

theorem apart_put {set : Bool} (apart : ∀ upload ∈ state.stored, store.metas.lookup upload.msgId = none)
    (different : ∀ upload ∈ state.stored, upload.msgId ≠ uploadId) :
    ∀ upload ∈ state.stored, (store.put set uploadId metadata).lookup upload.msgId = none := by
  intro upload member
  cases found : (store.put set uploadId metadata).lookup upload.msgId with
  | none => rfl
  | some given => exact (Uploads.lookup_of_put_ne found (different upload member)).symm.trans (apart upload member)

theorem Kept.chunked (kept : Kept render state) (stepped : Uploads.step state.uploads event = some after)
    (drawn : ∀ request answers msgId, event = .request request answers → request.draws = some msgId →
      isUuid msgId = true) : Kept render { state with uploads := after } := by
  have effect := Uploads.effect_step stepped
  have sound := Uploads.sound_effect kept.sound effect
  have metas := metas_step stepped kept.metas
  have uuids : ∀ msgId ∈ after.issued, Plain msgId := by
    intro msgId issued
    obtain old | new := issued_step stepped issued
    · exact kept.uuids msgId old
    · obtain ⟨request, answers, same, draws⟩ := new
      exact plain_of_isUuid (drawn request answers msgId same draws)
  have apart_of_issued {uploadId : String} (fresh : uploadId ∉ state.uploads.issued) :
      ∀ upload ∈ state.stored, upload.msgId ≠ uploadId := by
    intro upload member same
    exact fresh (same ▸ kept.issued upload (List.mem_append_left _ member))
  have apart_of_found {uploadId : String} {metadata : Metadata}
      (found : state.uploads.store.metas.lookup uploadId = some metadata) :
      ∀ upload ∈ state.stored, upload.msgId ≠ uploadId := by
    intro upload member same
    have absent := kept.apart upload member
    rw [same, found] at absent
    cases absent
  cases effect with
  | same => exact kept
  | drawn uploadId shape =>
      exact kept.withUploads rfl (fun _ _ found => found) (fun _ _ _ => rfl) (fun _ _ => rfl) sound uuids metas
        kept.apart fun _ issued => List.mem_cons_of_mem _ issued
  | began uploadId metadata set shape fresh valid empty =>
      exact kept.withUploads rfl (fun _ _ found => found) (fun _ _ _ => rfl) (fun _ _ => rfl) sound uuids metas
        (apart_put kept.apart (apart_of_issued fresh)) fun _ issued => List.mem_cons_of_mem _ issued
  | stored chunk files set found inRange small directory =>
      exact kept.withUploads rfl (fun _ _ found => found) (fun _ _ _ => rfl) (fun _ _ => rfl) sound uuids metas
        (apart_put kept.apart (apart_of_found found)) fun _ issued => issued
  | expired uploadId =>
      refine kept.withUploads rfl (fun _ _ found => found) (fun _ _ _ => rfl) (fun _ _ => rfl) sound uuids metas ?_
        fun _ issued => issued
      intro upload member
      dsimp only
      rw [Table.lookup_erase_ite, kept.apart upload member, ite_self]
  | spoiled uploadId metadata index found all missing =>
      have plain := kept.uuids uploadId (kept.sound.valid uploadId metadata found).1
      refine kept.withUploads rfl ?_ ?_ ?_ sound uuids metas kept.apart fun _ issued => issued
      · intro name bytes present
        dsimp only at present
        rw [Table.lookup_erase_ite] at present
        split at present
        · cases present
        · exact present
      · intro upload member size
        have other : metadata.finalName uploadId ≠ upload.thumbName size :=
          plain.savedName_ne_thumbName (kept.good upload member).plain (kept.metas uploadId metadata found)
        exact AList.lookup_erase_ne other.symm
      · intro upload member
        refine AList.lookup_erase_ne fun same => ?_
        exact apart_of_found found upload member
          ((kept.good upload (List.mem_append_left _ member)).plain.append_inj plain same).1
  | merged uploadId metadata bodies set found all collected =>
      have issued := (kept.sound.valid uploadId metadata found).1
      have unfinished := kept.sound.unfinished found collected
      refine kept.add (acceptedOf ⟨uploadId, metadata, Pieces.streamed bodies⟩)
        (good_of_finished (kept.uuids uploadId issued) (kept.metas uploadId metadata found)) ?_ ?_
        (fun _ member => .inr member) rfl sound uuids metas
        (apart_put kept.apart (apart_of_found found)) issued (fun _ earlier => earlier) rfl rfl rfl
      · intro old member
        obtain one | chunked := List.mem_append.mp member
        · exact apart_of_found found old one
        · obtain ⟨finished, present, same⟩ := List.mem_map.mp chunked
          rw [← same]
          exact unfinished finished present
      · intro other
        simp only [State.accepted, List.map_cons, List.mem_append, List.mem_cons]
        tauto

end Chunked

/-! ## Uploads in one request -/

section OneRequest

variable {msgId : String} {parts : Option (List Part)} {created redis : Bool}

theorem good_of_readUpload (plain : Plain msgId) (read : readUpload msgId parts created = .ok upload) :
    upload.msgId = msgId ∧ upload.Good := by
  unfold readUpload at read
  split at read
  · cases read
  · cases read
  · split at read
    · cases read
    · dsimp only at read
      split at read
      · cases read
      · split at read
        · cases read
        · rename_i checked
          split at read
          · cases read
            refine ⟨rfl, plain, accepted_of_checked checked, rfl, ?_⟩
            dsimp only
            split
            · rename_i image
              rw [thumbs_eq (dotted_of_lower (allowed_of_image image))]
              rfl
            · rfl
          · cases read

theorem sound_finals {uploads : Uploads.State} (sound : Sound uploads) (finals : Table String Bytes) :
    Sound { uploads with store := { uploads.store with finals } } :=
  ⟨sound.shapes, sound.valid, sound.held, sound.small, sound.finished⟩

theorem Kept.handleUpload (kept : Kept render state) (uuid : isUuid msgId = true)
    (fresh : msgId ∉ state.uploads.issued) : Kept render (state.handleUpload msgId parts created redis) := by
  have plain := plain_of_isUuid uuid
  have sound := Uploads.sound_drawn kept.sound (String.length_toList.symm.trans plain.length)
  have uuids : ∀ drawn ∈ msgId :: state.uploads.issued, Plain drawn := List.forall_mem_cons.mpr ⟨plain, kept.uuids⟩
  unfold State.handleUpload
  cases read : readUpload msgId parts created with
  | error response =>
      exact kept.withUploads rfl (fun _ _ found => found) (fun _ _ _ => rfl) (fun _ _ => rfl) sound uuids kept.metas
        kept.apart fun _ issued => List.mem_cons_of_mem _ issued
  | ok upload =>
      obtain ⟨named, good⟩ := good_of_readUpload plain read
      have absent : state.uploads.store.metas.lookup upload.msgId = none := by
        cases found : state.uploads.store.metas.lookup upload.msgId with
        | none => rfl
        | some metadata => exact absurd (named ▸ (kept.sound.valid _ metadata found).1) fresh
      dsimp only
      refine Kept.push ?_ (List.mem_append_left _ List.mem_cons_self) redis
      refine kept.add upload good ?_ ?_ (fun _ => List.mem_cons.mp) rfl (sound_finals sound _) uuids kept.metas
        (List.forall_mem_cons.mpr ⟨absent, kept.apart⟩) (named ▸ List.mem_cons_self)
        (fun _ issued => List.mem_cons_of_mem _ issued) rfl rfl rfl
      · intro old member same
        exact fresh (named ▸ same ▸ kept.issued old member)
      · intro other
        exact List.mem_cons

end OneRequest

/-! ## Workers -/

section Workers

variable {workers : List (String × List ℕ)} {worker : ℕ} {path : String} {sizes : List ℕ} {thumb : Bytes}

theorem Kept.withWorkers (kept : Kept render state) (fewer : ∀ worker ∈ workers, worker ∈ state.workers) :
    Kept render { state with workers } :=
  { kept with workers := fun worker member => kept.workers worker (fewer worker member) }

/-- A thumbnail of an accepted picture is written. -/
theorem Kept.make (kept : Kept render state) (member : upload ∈ state.accepted) (image : isImage upload.ext = true)
    (rendered : render upload.ext upload.content size = some thumb)
    (paths : ∀ worker ∈ workers, worker.1 = upload.path ∨ worker ∈ state.workers) :
    Kept render { state.write (upload.thumbName size) thumb with
      workers, made := (upload.path, size) :: state.made } where
  sound := sound_finals kept.sound _
  uuids := kept.uuids
  metas := kept.metas
  apart := kept.apart
  issued := kept.issued
  good := kept.good
  once := kept.once
  jobs := kept.jobs
  workers worker present := by
    obtain own | old := paths worker present
    · exact ⟨upload, member, image, own⟩
    · exact kept.workers worker old
  made := by
    refine List.forall_mem_cons.mpr ⟨⟨upload, member, image, rfl, thumb, rendered, AList.lookup_insert _⟩, ?_⟩
    intro entry present
    obtain ⟨other, memberOther, imageOther, same, earlier, renderedOther, found⟩ := kept.made entry present
    refine ⟨other, memberOther, imageOther, same, earlier, renderedOther, ?_⟩
    refine Table.lookup_insert_ite.trans ?_
    split
    · rename_i names
      obtain ⟨ids, same_size⟩ :=
        (kept.good other memberOther).plain.thumbName_inj (kept.good upload member).plain names
      obtain rfl := kept.once other memberOther upload member ids
      rw [← rendered, ← same_size rfl]
      exact renderedOther
    · exact found
  present other memberOther := by
    have goodOther := kept.good other (List.mem_append_left _ memberOther)
    refine Table.lookup_insert_ite.trans ?_
    rw [if_neg (goodOther.savedName_ne (kept.good upload member))]
    exact kept.present other memberOther
  files name bytes found := by
    have either : (if name = upload.thumbName size then some thumb else state.finals.lookup name) = some bytes :=
      Table.lookup_insert_ite.symm.trans found
    split at either
    · rename_i same
      exact .inr ⟨upload, member, size, List.mem_cons_self, same⟩
    · obtain own | ⟨other, memberOther, otherSize, present, same⟩ := kept.files name bytes either
      · exact .inl own
      · exact .inr ⟨other, memberOther, otherSize, List.mem_cons_of_mem _ present, same⟩

theorem Kept.genThumb (kept : Kept render state) (working : state.workers[worker]? = some (path, size :: sizes)) :
    Kept render (state.genThumb render worker path size sizes) := by
  obtain ⟨upload, member, image, same⟩ := kept.workers _ (List.mem_of_getElem? working)
  obtain rfl : path = upload.path := same
  have good := kept.good upload member
  have dotted := dotted_of_image image
  have ext : String.ofList (splitext upload.path.toList).2 = upload.ext := by
    rw [Upload.path, Upload.savedName, splitext_path good.plain dotted, String.ofList_toList]
  have out : outPath upload.path size = "../uploads/" ++ upload.thumbName size := outPath_eq good.plain dotted
  have name : Web.Handlers.behind "../uploads/".toList (outPath upload.path size).toList =
      some (upload.thumbName size).toList := by
    rw [out, String.toList_append, Web.Handlers.behind_append]
  have dropped : Kept render { state with workers := state.workers.eraseIdx worker } :=
    kept.withWorkers fun _ present => List.mem_of_mem_eraseIdx present
  unfold State.genThumb
  rw [ext, name]
  split
  · rename_i thumb written rendered named
    obtain rfl := Option.some.inj named
    obtain ⟨bytes, found, made⟩ := Option.bind_eq_some_iff.mp rendered
    rw [Upload.path, file_append] at found
    rw [kept.original member found] at made
    rw [String.ofList_toList]
    refine kept.make member image made fun other present => ?_
    obtain old | own := List.mem_or_eq_of_mem_set present
    · exact .inr old
    · exact .inl (congrArg Prod.fst own)
  · rename_i absent
    cases absent
  · exact dropped

end Workers

/-! ## Runs -/

theorem mem_completes {finished : Finished} (completes : state.completes request answers = some finished)
    (stepped : Uploads.step state.uploads (.request request answers) = some after) : finished ∈ after.finished := by
  unfold State.completes at completes
  obtain ⟨_, same⟩ := Option.ite_none_right_eq_some.mp stepped
  obtain rfl := Option.some.inj same
  cases request with
  | complete userId body =>
      dsimp only at completes
      split at completes
      · rename_i result store merged
        rw [Uploads.Request.handle, merged]
        unfold Uploads.State.answered
        dsimp only
        rw [completes]
        exact List.mem_append_left _ List.mem_cons_self
      · cases completes
  | _ => cases completes

theorem Kept.step {event : Event} (kept : Kept render state) (stepped : step render state event = some next) :
    Kept render next := by
  cases event with
  | handleUpload msgId parts created redis =>
      obtain ⟨drawn, same⟩ := Option.ite_none_right_eq_some.mp stepped
      cases same
      rw [Bool.and_eq_true, Bool.not_eq_true', List.contains_eq_mem, decide_eq_false_iff_not] at drawn
      exact kept.handleUpload drawn.1 drawn.2
  | request request answers redis =>
      obtain ⟨drawn, mapped⟩ := Option.ite_none_right_eq_some.mp stepped
      obtain ⟨after, chunked, same⟩ := Option.map_eq_some_iff.mp mapped
      have keeps : Kept render { state with uploads := after } := by
        refine kept.chunked chunked fun other given msgId equal draws => ?_
        cases equal
        rw [draws] at drawn
        exact drawn
      cases completes : state.completes request answers with
      | none =>
          rw [completes] at same
          cases same
          exact keeps
      | some finished =>
          rw [completes] at same
          cases same
          have member : acceptedOf finished ∈ State.accepted { state with uploads := after } :=
            List.mem_append_right _ (List.mem_map_of_mem (mem_completes completes chunked))
          exact keeps.push member redis
  | expire uploadId =>
      cases stepped
      have chunked : Uploads.step state.uploads (.expire uploadId) = some _ := rfl
      exact kept.chunked chunked fun _ _ _ equal => by cases equal
  | brpop =>
      obtain ⟨queued, last, same⟩ := Option.map_eq_some_iff.mp stepped
      have popped : Kept render { state with thumbQueue := state.thumbQueue.dropLast } :=
        { kept with jobs := fun other member => kept.jobs other (List.dropLast_subset _ member) }
      obtain ⟨upload, member, image, rfl⟩ := kept.jobs queued (List.mem_of_getLast? last)
      dsimp only at same
      split at same
      · cases same
        refine { popped with workers := fun worker present => ?_ }
        obtain old | own := List.mem_append.mp present
        · exact kept.workers worker old
        · obtain rfl := List.mem_singleton.mp own
          exact ⟨upload, member, image, rfl⟩
      · cases same
        exact popped
  | genThumb worker =>
      simp only [Thumbnails.step] at stepped
      split at stepped
      · rename_i path size sizes working
        cases stepped
        exact kept.genThumb working
      · cases stepped
        exact kept.withWorkers fun _ present => List.mem_of_mem_eraseIdx present
      · cases stepped
  | stop worker =>
      obtain ⟨_, same⟩ := Option.ite_none_right_eq_some.mp stepped
      cases same
      exact kept.withWorkers fun _ present => List.mem_of_mem_eraseIdx present

/-- An upload in one request stays under its address, one in chunks is the only file that
is ever under its address, and under the addresses of the thumbnails, of which the page
asks for the second, are these once they are made. -/
structure Served (render : String → Bytes → ℕ → Option Bytes) (state : State) : Prop where
  stored : ∀ upload ∈ state.stored, state.served upload.answer.url = some upload.content
  original : ∀ upload ∈ state.accepted, ∀ bytes, state.served upload.answer.url = some bytes → bytes = upload.content
  thumbnails : ∀ upload ∈ state.accepted, ∀ small large, upload.answer.thumbs = some (small, large) →
    state.served small = (if (upload.path, 200) ∈ state.made then render upload.ext upload.content 200 else none) ∧
      state.served large = (if (upload.path, 600) ∈ state.made then render upload.ext upload.content 600 else none) ∧
      large = pageThumbnail upload.answer.url

theorem Kept.served (kept : Kept render state) : Served render state where
  stored upload member := by
    rw [(kept.good upload (List.mem_append_left _ member)).url, served_append]
    exact kept.present upload member
  original upload member bytes found := by
    rw [(kept.good upload member).url, served_append] at found
    exact kept.original member found
  thumbnails upload member small large announced := by
    have good := kept.good upload member
    rw [good.thumbs] at announced
    obtain ⟨image, same⟩ := Option.ite_none_right_eq_some.mp announced
    cases same
    rw [served_append, served_append, kept.thumbnail member, kept.thumbnail member, good.url]
    exact ⟨rfl, rfl, (pageThumbnail_eq (dotted_of_image image)).symm⟩

theorem kept_init : Kept render {} where
  sound := Uploads.sound_init
  uuids _ issued := by cases issued
  metas _ _ found := by cases found
  apart _ member := by cases member
  issued _ member := by cases member
  good _ member := by cases member
  once _ member := by cases member
  jobs _ member := by cases member
  workers _ member := by cases member
  made _ member := by cases member
  present _ member := by cases member
  files _ _ found := by cases found

/-- In every order of uploads and of the workers' steps. -/
theorem files_served (render : String → Bytes → ℕ → Option Bytes) (events : List Event) :
    (machine render).Always (Served render) {} events := by
  have always : (machine render).Always (Kept render) {} events :=
    Machine.always_of_step (Kept render) kept_init fun _ _ _ kept stepped => Kept.step kept stepped
  exact always.mono fun _ kept => kept.served

end MuduoIm.Server.Thumbnails
