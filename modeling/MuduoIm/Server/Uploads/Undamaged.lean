import MuduoIm.Server.Uploads.Declared

namespace MuduoIm.Server.Uploads

open MuduoIm.Data MuduoIm.Transition

/-! # When finished uploads stay as they are

Completion removes the chunks and keeps the metadata, so a second completion
passes the checks, truncates the final file and then finds no chunk.
-/

/-- The owner completes an upload that is finished and still has metadata. -/
structure Repeats (state : State) (userId : Int) (body : Option Json) (finished : Finished) : Prop where
  member : finished ∈ state.finished
  named : uploadIdOf body = some finished.uploadId
  owner : userId = finished.metadata.uid
  found : (state.store.metas.lookup finished.uploadId).isSome = true

/-- Finished uploads keep their files, a repeated completion is answered with
the same URL if all operations are successful, and one that is answered with an
error leaves all files as they are. -/
structure Undamaged (state : State) (event : Event) : Prop where
  kept : ∀ next, step state event = some next → ∀ finished ∈ state.finished,
    next.store.finals.lookup finished.name = some finished.content
  repeated : ∀ userId body, event = .request (.complete userId body) {} →
    ∀ finished, Repeats state userId body finished → ∃ result,
      (handleUploadComplete userId body {} state.store).1 = .completed result ∧
        result.url = "/uploads/" ++ finished.name
  failed : ∀ userId body answers, event = .request (.complete userId body) answers →
    (handleUploadComplete userId body answers state.store).1.success = false →
    ∀ name content, state.store.finals.lookup name = some content →
      (handleUploadComplete userId body answers state.store).2.finals.lookup name = some content

/-- The owner of a finished upload does not complete it again, unless Redis
does not answer or the final file cannot be opened. -/
def NotRepeated (state : State) : Event → Prop
  | .request (.complete userId body) answers =>
      answers.get = true → answers.create = true → ∀ finished, ¬Repeats state userId body finished
  | _ => True

/-- The files of the finished uploads are those of their completions. -/
def Intact (state : State) : Prop :=
  ∀ finished ∈ state.finished, state.store.finals.lookup finished.name = some finished.content

variable {state next : State} {event : Event} {events : List Event} {userId now : Int} {body : Option Json}
variable {answers : Answers} {finished : Finished} {store : Store} {uploadId index : String} {content : Bytes}

theorem finals_handleUploadInit :
    (handleUploadInit userId uploadId now body answers store).2.finals = store.finals := by
  rcases @handleUploadInit_cases userId now uploadId body answers store with same | began
  · rw [same]
  · obtain ⟨metadata, _, _, changed⟩ := began
    rw [changed]

theorem finals_handleUploadChunk :
    (handleUploadChunk userId uploadId index content answers store).2.finals = store.finals := by
  rcases @handleUploadChunk_cases userId uploadId index content answers store with refused | stored
  · obtain ⟨response, _, same⟩ := refused
    rw [same]
  · obtain ⟨chunk, files, _, _, changed⟩ := stored
    rw [changed]

theorem store_answered {request : Request} {answer : Response × Store} :
    (state.answered request answer).store = answer.2 := by
  unfold State.answered
  split <;> rfl

/-- Files of different uploads have different names. -/
theorem name_ne {metadata : Metadata} (sound : Sound state) (member : finished ∈ state.finished)
    (issued : uploadId ∈ state.issued) (different : finished.uploadId ≠ uploadId) :
    finished.name ≠ metadata.finalName uploadId := by
  intro same
  have lengths := sound.shapes _ (sound.finished finished member).1
  rw [← sound.shapes _ issued, ← String.length_toList, ← String.length_toList] at lengths
  have lists := congrArg String.toList same
  rw [Finished.name, Metadata.finalName, Metadata.finalName, String.toList_append, String.toList_append] at lists
  exact different (String.toList_inj.mp (List.append_inj_left lists lengths))

/-- The second completion removes the final file. -/
theorem complete_of_repeats (sound : Sound state) (repeats : Repeats state userId body finished)
    (got : answers.get = true) (created : answers.create = true) :
    handleUploadComplete userId body answers state.store = (.serverError "missing chunk 0",
      { state.store with finals := state.store.finals.erase finished.name }) := by
  obtain ⟨metadata, found⟩ := Option.isSome_iff_exists.mp repeats.found
  obtain ⟨issued, removed, describes⟩ := sound.finished finished repeats.member
  obtain ⟨uid, ext, all⟩ := describes metadata found
  have given : finished.uploadId ≠ "" := by
    intro empty
    have shape := sound.shapes _ issued
    rw [empty] at shape
    cases shape
  have missing : Pieces.collect (state.store.chunks finished.uploadId) metadata.totalChunks = .error 0 := by
    refine Pieces.collect_eq_error (sound.valid _ metadata found).2.totalChunks_pos ?_
    rw [Store.chunks, removed]
    rfl
  have name : metadata.finalName finished.uploadId = finished.name := congrArg (finished.uploadId ++ ·) ext
  rw [handleUploadComplete_of_reaches given ⟨repeats.named, got, found, uid.trans repeats.owner.symm, all⟩,
    Store.merge, created, missing, name]
  rfl

/-- What a completion can do: nothing, the same as a second one, or the merge of
an upload that is not finished. -/
theorem complete_cases (sound : Sound state) :
    (∃ response : Response, response.success = false ∧
        handleUploadComplete userId body answers state.store = (response, state.store)) ∨
      (answers.get = true ∧ answers.create = true ∧ ∃ finished, Repeats state userId body finished) ∨
      ∃ (uploadId : String) (metadata : Metadata) (bytes : Bytes), uploadId ∈ state.issued ∧
        (∀ finished ∈ state.finished, finished.uploadId ≠ uploadId) ∧
        (handleUploadComplete userId body answers state.store).1 = .completed (metadata.result uploadId) ∧
        (handleUploadComplete userId body answers state.store).2.finals =
          state.store.finals.insert (metadata.finalName uploadId) bytes := by
  rcases @handleUploadComplete_cases userId body answers state.store with refused | merged
  · exact .inl refused
  obtain ⟨uploadId, metadata, reaches, merged⟩ := merged
  rw [merged]
  unfold Store.merge
  dsimp only
  split
  · exact .inl ⟨_, rfl, rfl⟩
  rename_i created
  rw [Bool.not_eq_true', Bool.not_eq_false] at created
  by_cases unfinished : ∀ finished ∈ state.finished, finished.uploadId ≠ uploadId
  · obtain ⟨issued, valid⟩ := sound.valid uploadId metadata reaches.found
    obtain ⟨files, directory, held⟩ := sound.held uploadId metadata reaches.found unfinished
    rw [Store.chunks, directory, Option.getD_some, (held.collect valid reaches.all).2]
    exact .inr (.inr ⟨uploadId, metadata, _, issued, unfinished, rfl, rfl⟩)
  · push Not at unfinished
    obtain ⟨finished, member, rfl⟩ := unfinished
    obtain ⟨uid, _, _⟩ := (sound.finished finished member).2.2 metadata reaches.found
    exact .inr (.inl ⟨reaches.got, created, finished, member, reaches.named, reaches.owner.symm.trans uid,
      Option.isSome_of_eq_some reaches.found⟩)

theorem undamaged_complete_iff (sound : Sound state) (intact : Intact state) :
    Undamaged state (.request (.complete userId body) answers) ↔
      NotRepeated state (.request (.complete userId body) answers) := by
  have stepped : step state (.request (.complete userId body) answers) =
      some (state.answered (.complete userId body) (handleUploadComplete userId body answers state.store)) := rfl
  constructor
  · intro undamaged got created finished repeats
    have left := undamaged.kept _ stepped finished repeats.member
    rw [store_answered, complete_of_repeats sound repeats got created, AList.lookup_erase] at left
    cases left
  · intro notRepeated
    have notAgain : ∀ user json, Event.request (.complete userId body) answers = .request (.complete user json) {} →
        ∀ finished, ¬Repeats state user json finished := by
      intro user json same
      cases same
      exact notRepeated rfl rfl
    rcases @complete_cases state userId body answers sound with refused | repeated | merged
    · obtain ⟨response, _, same⟩ := refused
      constructor
      · intro next taken finished member
        cases stepped.symm.trans taken
        rw [store_answered, same]
        exact intact finished member
      · exact fun user json given finished repeats => absurd repeats (notAgain user json given finished)
      · intro user json given sameEvent _ name bytes found
        cases sameEvent
        rw [same]
        exact found
    · obtain ⟨got, created, finished, repeats⟩ := repeated
      exact absurd repeats (notRepeated got created finished)
    · obtain ⟨uploadId, metadata, bytes, issued, unfinished, success, finals⟩ := merged
      constructor
      · intro next taken finished member
        cases stepped.symm.trans taken
        rw [store_answered, finals, AList.lookup_insert_ne (name_ne sound member issued (unfinished finished member))]
        exact intact finished member
      · exact fun user json given finished repeats => absurd repeats (notAgain user json given finished)
      · intro user json given sameEvent failed
        cases sameEvent
        rw [success] at failed
        cases failed

/-- Other requests leave the final files alone. -/
theorem undamaged_of_finals (intact : Intact state)
    (other : ∀ userId body answers, event ≠ .request (.complete userId body) answers)
    (same : ∀ next, step state event = some next → next.store.finals = state.store.finals) :
    Undamaged state event where
  kept := by
    intro next stepped finished member
    rw [same next stepped]
    exact intact finished member
  repeated := fun userId body given => absurd given (other userId body {})
  failed := fun userId body answers given => absurd given (other userId body answers)

theorem undamaged_iff (sound : Sound state) (intact : Intact state) :
    Undamaged state event ↔ NotRepeated state event := by
  cases event with
  | expire uploadId =>
      refine iff_of_true (undamaged_of_finals intact (fun _ _ _ => nofun) fun next stepped => ?_) trivial
      cases stepped
      rfl
  | request request answers =>
      cases request with
      | init userId uploadId now body =>
          refine iff_of_true (undamaged_of_finals intact (fun _ _ _ => nofun) fun next stepped => ?_) trivial
          obtain ⟨_, same⟩ := Option.ite_none_right_eq_some.mp stepped
          cases same
          rw [store_answered]
          exact finals_handleUploadInit
      | chunk userId uploadId index body =>
          refine iff_of_true (undamaged_of_finals intact (fun _ _ _ => nofun) fun next stepped => ?_) trivial
          cases stepped
          rw [store_answered]
          exact finals_handleUploadChunk
      | status userId uploadId =>
          refine iff_of_true (undamaged_of_finals intact (fun _ _ _ => nofun) fun next stepped => ?_) trivial
          cases stepped
          rfl
      | complete userId body => exact undamaged_complete_iff sound intact

theorem intact_effect (effect : Effect state next)
    (kept : ∀ finished ∈ state.finished, next.store.finals.lookup finished.name = some finished.content) :
    Intact next := by
  cases effect with
  | merged uploadId metadata bodies set found all collected =>
      exact List.forall_mem_cons.mpr ⟨AList.lookup_insert _, kept⟩
  | _ => exact kept

/-- Finished uploads are never damaged exactly if their owners do not complete
them again. -/
theorem undamaged_iff_notRepeated :
    machine.Meets Undamaged {} events ↔ machine.Meets NotRepeated {} events := by
  refine Machine.meets_iff_meets (fun state => Sound state ∧ Intact state) ⟨sound_init, nofun⟩ ?_ ?_
  · intro state event next assumed notRepeated stepped
    obtain ⟨sound, intact⟩ := assumed
    have undamaged := (undamaged_iff sound intact).mpr notRepeated
    have effect := effect_step stepped
    exact ⟨sound_effect sound effect, intact_effect effect (undamaged.kept next stepped)⟩
  · intro state event next assumed _
    exact undamaged_iff assumed.1 assumed.2

/-! ## Completing twice -/

def completedOnce : List Event := twoBytes [65, 66] ++ [.request (.complete 1 completion) {}]

/-- The owner of a file of two bytes completes it again. -/
theorem damaged_twice :
    (∃ state, machine.run {} completedOnce = some state ∧
      state.store.finals.lookup (uuid ++ ".txt") = some [65, 66] ∧
      handleUploadComplete 1 completion {} state.store =
        (.serverError "missing chunk 0", { state.store with finals := state.store.finals.erase (uuid ++ ".txt") })) ∧
      ¬machine.Meets Undamaged {} (completedOnce ++ [.request (.complete 1 completion) {}]) := by
  have twice : ∃ state, machine.run {} completedOnce = some state ∧
      state.store.finals.lookup (uuid ++ ".txt") = some [65, 66] ∧
      handleUploadComplete 1 completion {} state.store =
        (.serverError "missing chunk 0", { state.store with finals := state.store.finals.erase (uuid ++ ".txt") }) :=
    ⟨_, rfl, by decide, rfl⟩
  refine ⟨twice, fun met => ?_⟩
  obtain ⟨state, reached, present, removed⟩ := twice
  have undamaged := met.atEnd reached rfl
  have left := undamaged.failed 1 completion {} rfl (by rw [removed]; rfl) _ _ present
  rw [removed, AList.lookup_erase] at left
  cases left

end MuduoIm.Server.Uploads
