import Mathlib.Data.List.Perm.Subperm
import Mathlib.Data.List.Range
import MuduoIm.Server.Uploads.Runs

namespace MuduoIm.Server.Uploads

open MuduoIm.Data MuduoIm.Transition

/-! # What all runs of upload requests keep

Until an upload is finished its directory holds the last accepted body of each
index that is recorded.  Completion removes the directory, and no request makes
it again.
-/

/-- The files of an unfinished upload. -/
structure Held (files : Table Nat Bytes) (accepted : Nat → Option Bytes) (metadata : Metadata) : Prop where
  inRange : ∀ index body, files.lookup index = some body → index < metadata.totalChunks
  recorded : ∀ index ∈ metadata.received, ∃ body, files.lookup index = some body ∧ accepted index = some body

/-- The stored metadata are still those of the finished upload. -/
structure Finished.Describes (finished : Finished) (metadata : Metadata) : Prop where
  uid : metadata.uid = finished.metadata.uid
  ext : metadata.ext = finished.metadata.ext
  all : metadata.received.length = metadata.totalChunks

structure Sound (state : State) : Prop where
  shapes : ∀ uploadId ∈ state.issued, uploadId.length = 36
  valid : ∀ uploadId metadata, state.store.metas.lookup uploadId = some metadata →
    uploadId ∈ state.issued ∧ metadata.Valid
  held : ∀ uploadId metadata, state.store.metas.lookup uploadId = some metadata →
    (∀ finished ∈ state.finished, finished.uploadId ≠ uploadId) →
    ∃ files, state.store.directories.lookup uploadId = some files ∧ Held files (state.accepted uploadId) metadata
  small : ∀ uploadId index body, state.accepted uploadId index = some body → body.length ≤ kChunkSize
  finished : ∀ finished ∈ state.finished, finished.uploadId ∈ state.issued ∧
    state.store.directories.lookup finished.uploadId = none ∧
    ∀ metadata, state.store.metas.lookup finished.uploadId = some metadata → finished.Describes metadata

/-! ## The parts of the store -/

section Parts

variable {store : Store} {set : Bool} {uploadId other : String} {metadata given : Metadata} {total index : Nat}
variable {files : Table Nat Bytes} {bodies : List Bytes}

theorem lookup_put (found : (store.put set uploadId metadata).lookup other = some given) :
    other = uploadId ∧ given = metadata ∨ store.metas.lookup other = some given := by
  unfold Store.put at found
  split at found
  · rw [Table.lookup_insert_ite] at found
    split at found
    · rename_i same
      exact .inl ⟨same, (Option.some.inj found).symm⟩
    · exact .inr found
  · exact .inr found

/-- The metadata of other uploads stay. -/
theorem lookup_of_put_ne (found : (store.put set uploadId metadata).lookup other = some given)
    (different : other ≠ uploadId) : store.metas.lookup other = some given :=
  (lookup_put found).resolve_left fun new => different new.1

theorem lookup_foldl_erase (indexes : List Nat) :
    (indexes.foldl (fun files index => AList.erase index files) files).lookup index =
      if index ∈ indexes then none else files.lookup index := by
  induction indexes generalizing files with
  | nil => rfl
  | cons first rest ih =>
      rw [List.foldl_cons, ih, Table.lookup_erase_ite]
      by_cases later : index ∈ rest
      · rw [if_pos later, if_pos (List.mem_cons_of_mem _ later)]
      · by_cases same : index = first
        · rw [if_neg later, if_pos same, if_pos (same ▸ List.mem_cons_self)]
        · rw [if_neg later, if_neg same, if_neg (List.not_mem_cons_of_ne_of_not_mem same later)]

theorem lookup_cleaned_ne (different : other ≠ uploadId) :
    (store.cleaned uploadId total).lookup other = store.directories.lookup other := by
  unfold Store.cleaned
  split
  · rfl
  dsimp only
  split
  · exact AList.lookup_erase_ne different
  · exact AList.lookup_insert_ne different

/-- Nothing is left of a directory in which all files are chunks. -/
theorem lookup_cleaned (inRange : ∀ index body, (store.chunks uploadId).lookup index = some body → index < total) :
    (store.cleaned uploadId total).lookup uploadId = none := by
  unfold Store.cleaned
  split
  · assumption
  · rename_i files directory
    rw [Store.chunks, directory, Option.getD_some] at inRange
    dsimp only
    rw [if_pos]
    · exact AList.lookup_erase uploadId _
    rw [List.isEmpty_iff, List.eq_nil_iff_forall_not_mem]
    intro index member
    rw [← AList.mem_keys, ← AList.lookup_isSome, lookup_foldl_erase] at member
    split at member
    · cases member
    · rename_i beyond
      obtain ⟨body, found⟩ := Option.isSome_iff_exists.mp member
      exact beyond (List.mem_range.mpr (inRange index body found))

/-- A list of as many indexes as there are has all of them. -/
theorem Metadata.Valid.mem_received (valid : metadata.Valid) (all : metadata.received.length = metadata.totalChunks)
    (inRange : index < metadata.totalChunks) : index ∈ metadata.received := by
  have inside : metadata.received.Subperm (List.range metadata.totalChunks) :=
    valid.nodup.subperm fun index member => List.mem_range.mpr (valid.inRange index member)
  have same := inside.perm_of_length_le (by rw [List.length_range, all])
  exact same.mem_iff.mpr (List.mem_range.mpr inRange)

theorem Metadata.Valid.totalChunks_pos (valid : metadata.Valid) : 0 < metadata.totalChunks := by
  rw [valid.totalChunks]
  exact Pieces.count_pos valid.positive (by decide)

theorem Chunk.valid_recorded {chunk : Chunk} (valid : chunk.metadata.Valid)
    (inRange : chunk.index < chunk.metadata.totalChunks) : chunk.recorded.Valid where
  positive := valid.positive
  totalChunks := valid.totalChunks
  nodup := nodup_recorded valid.nodup
  inRange := by
    intro index member
    rcases mem_recorded.mp member with earlier | own
    · exact valid.inRange index earlier
    · exact own ▸ inRange

theorem Metadata.Valid.marked (valid : metadata.Valid) : ({ metadata with completed := true } : Metadata).Valid :=
  ⟨valid.positive, valid.totalChunks, valid.nodup, valid.inRange⟩

end Parts

/-! ## Each effect keeps it -/

section Step

variable {state next : State} {uploadId : String} {metadata : Metadata} {chunk : Chunk} {files : Table Nat Bytes}
variable {bodies : List Bytes} {set : Bool} {index : Nat} {event : Event} {events : List Event}

/-- An accepted body is the one that is added, or an earlier one. -/
theorem State.accept_eq_some {other : String} {position : Nat} {body given : Bytes}
    (accepted : state.accept uploadId index body other position = some given) :
    given = body ∨ state.accepted other position = some given := by
  rw [State.accept, Function.update_apply] at accepted
  split at accepted
  · rename_i same
    rw [Function.update_apply] at accepted
    split at accepted
    · exact .inl (Option.some.inj accepted).symm
    · exact .inr (same ▸ accepted)
  · exact .inr accepted

/-- The chunks can be read only before the upload is finished. -/
theorem Sound.unfinished (sound : Sound state) (found : state.store.metas.lookup uploadId = some metadata)
    (collected : Pieces.collect (state.store.chunks uploadId) metadata.totalChunks = .ok bodies) :
    ∀ finished ∈ state.finished, finished.uploadId ≠ uploadId := by
  intro finished member same
  obtain ⟨_, removed, _⟩ := sound.finished finished member
  have missing : Pieces.collect (state.store.chunks uploadId) metadata.totalChunks = .error 0 := by
    refine Pieces.collect_eq_error (sound.valid uploadId metadata found).2.totalChunks_pos ?_
    rw [← same, Store.chunks, removed]
    rfl
  rw [missing] at collected
  cases collected

theorem sound_drawn (sound : Sound state) (shape : uploadId.length = 36) :
    Sound { state with issued := uploadId :: state.issued } where
  shapes := List.forall_mem_cons.mpr ⟨shape, sound.shapes⟩
  valid := by
    intro other given found
    obtain ⟨issued, valid⟩ := sound.valid other given found
    exact ⟨List.mem_cons_of_mem _ issued, valid⟩
  held := sound.held
  small := sound.small
  finished := by
    intro finished member
    obtain ⟨issued, rest⟩ := sound.finished finished member
    exact ⟨List.mem_cons_of_mem _ issued, rest⟩

theorem sound_began (sound : Sound state) (shape : uploadId.length = 36) (fresh : uploadId ∉ state.issued)
    (valid : metadata.Valid) (empty : metadata.received = []) :
    Sound { state with
      store := { state.store with
        metas := state.store.put set uploadId metadata
        directories := state.store.directories.insert uploadId ∅ }
      issued := uploadId :: state.issued } where
  shapes := List.forall_mem_cons.mpr ⟨shape, sound.shapes⟩
  valid := by
    intro other given found
    rcases lookup_put found with new | old
    · obtain ⟨rfl, rfl⟩ := new
      exact ⟨List.mem_cons_self, valid⟩
    · obtain ⟨issued, validGiven⟩ := sound.valid other given old
      exact ⟨List.mem_cons_of_mem _ issued, validGiven⟩
  held := by
    intro other given found unfinished
    rcases lookup_put found with new | old
    · obtain ⟨rfl, rfl⟩ := new
      refine ⟨∅, AList.lookup_insert _, nofun, fun index member => ?_⟩
      rw [empty] at member
      cases member
    · have different : other ≠ uploadId := fun same => fresh (same ▸ (sound.valid other given old).1)
      obtain ⟨files, directory, held⟩ := sound.held other given old unfinished
      exact ⟨files, (AList.lookup_insert_ne different).trans directory, held⟩
  small := sound.small
  finished := by
    intro finished member
    obtain ⟨issued, removed, describes⟩ := sound.finished finished member
    have different : finished.uploadId ≠ uploadId := fun same => fresh (same ▸ issued)
    exact ⟨List.mem_cons_of_mem _ issued, (AList.lookup_insert_ne different).trans removed,
      fun given found => describes given (lookup_of_put_ne found different)⟩

theorem Held.write {accepted : Nat → Option Bytes} {given : Metadata} {body : Bytes}
    (held : Held files accepted metadata) (inRange : index < metadata.totalChunks) (total : given.totalChunks = metadata.totalChunks)
    (received : ∀ position ∈ given.received, position ∈ metadata.received ∨ position = index) :
    Held (files.insert index body) (Function.update accepted index (some body)) given where
  inRange := by
    intro position content found
    rw [total]
    rw [Table.lookup_insert_ite] at found
    split at found
    · rename_i same
      exact same ▸ inRange
    · exact held.inRange position content found
  recorded := by
    intro position member
    rw [Table.lookup_insert_ite, Function.update_apply]
    split
    · exact ⟨body, rfl, rfl⟩
    · rename_i different
      exact held.recorded position ((received position member).resolve_right different)

theorem sound_stored (sound : Sound state)
    (found : state.store.metas.lookup chunk.uploadId = some chunk.metadata)
    (inRange : chunk.index < chunk.metadata.totalChunks) (small : chunk.body.length ≤ kChunkSize)
    (directory : state.store.directories.lookup chunk.uploadId = some files) :
    Sound { state with
      store := { state.store with
        metas := state.store.put set chunk.uploadId chunk.recorded
        directories := state.store.directories.insert chunk.uploadId (files.insert chunk.index chunk.body) }
      accepted := state.accept chunk.uploadId chunk.index chunk.body } where
  shapes := sound.shapes
  valid := by
    intro other given put
    rcases lookup_put put with new | old
    · obtain ⟨rfl, rfl⟩ := new
      obtain ⟨issued, valid⟩ := sound.valid _ _ found
      exact ⟨issued, chunk.valid_recorded valid inRange⟩
    · exact sound.valid other given old
  held := by
    intro other given put unfinished
    by_cases same : other = chunk.uploadId
    · subst same
      obtain ⟨before, present, held⟩ := sound.held _ _ found unfinished
      rw [directory] at present
      cases present
      refine ⟨_, AList.lookup_insert _, ?_⟩
      dsimp only [State.accept]
      rw [Function.update_self]
      rcases lookup_put put with new | old
      · rw [new.2]
        exact held.write inRange rfl fun position member => mem_recorded.mp member
      · rw [found] at old
        cases old
        exact held.write inRange rfl fun position => .inl
    · obtain ⟨before, present, held⟩ := sound.held other given (lookup_of_put_ne put same) unfinished
      refine ⟨before, (AList.lookup_insert_ne same).trans present, ?_⟩
      dsimp only [State.accept]
      rw [Function.update_of_ne same]
      exact held
  small := by
    intro other index body accepted
    rcases state.accept_eq_some accepted with rfl | earlier
    · exact small
    · exact sound.small other index body earlier
  finished := by
    intro finished member
    obtain ⟨issued, removed, describes⟩ := sound.finished finished member
    have different : finished.uploadId ≠ chunk.uploadId := by
      intro same
      rw [same, directory] at removed
      cases removed
    exact ⟨issued, (AList.lookup_insert_ne different).trans removed,
      fun given put => describes given (lookup_of_put_ne put different)⟩

theorem sound_merged {bytes : Bytes} (sound : Sound state)
    (found : state.store.metas.lookup uploadId = some metadata)
    (all : metadata.received.length = metadata.totalChunks)
    (collected : Pieces.collect (state.store.chunks uploadId) metadata.totalChunks = .ok bodies) :
    Sound { state with
      store := {
        metas := state.store.put set uploadId { metadata with completed := true }
        directories := state.store.cleaned uploadId metadata.totalChunks
        finals := state.store.finals.insert (metadata.finalName uploadId) bytes }
      finished := ⟨uploadId, metadata, bytes⟩ :: state.finished } := by
  have unfinished := sound.unfinished found collected
  obtain ⟨issued, valid⟩ := sound.valid uploadId metadata found
  constructor
  · exact sound.shapes
  · intro other given put
    rcases lookup_put put with new | old
    · obtain ⟨rfl, rfl⟩ := new
      exact ⟨issued, valid.marked⟩
    · exact sound.valid other given old
  · intro other given put left
    obtain ⟨different, others⟩ := List.forall_mem_cons.mp left
    obtain ⟨files, directory, held⟩ := sound.held other given (lookup_of_put_ne put (Ne.symm different)) others
    exact ⟨files, (lookup_cleaned_ne (Ne.symm different)).trans directory, held⟩
  · exact sound.small
  · refine List.forall_mem_cons.mpr ⟨⟨issued, ?_, fun given put => ?_⟩, fun finished member => ?_⟩
    · obtain ⟨files, directory, held⟩ := sound.held uploadId metadata found unfinished
      refine lookup_cleaned fun index body stored => ?_
      rw [Store.chunks, directory, Option.getD_some] at stored
      exact held.inRange index body stored
    · rcases lookup_put put with new | old
      · obtain ⟨_, rfl⟩ := new
        exact ⟨rfl, rfl, all⟩
      · have same := Option.some.inj (found.symm.trans old)
        exact same ▸ ⟨rfl, rfl, all⟩
    · obtain ⟨earlier, removed, describes⟩ := sound.finished finished member
      have different := unfinished finished member
      exact ⟨earlier, (lookup_cleaned_ne different).trans removed,
        fun given put => describes given (lookup_of_put_ne put different)⟩

theorem sound_expired (sound : Sound state) :
    Sound { state with store := { state.store with metas := state.store.metas.erase uploadId } } := by
  have earlier : ∀ other given, (AList.erase uploadId state.store.metas).lookup other = some given →
      state.store.metas.lookup other = some given := by
    intro other given found
    rw [Table.lookup_erase_ite] at found
    split at found
    · cases found
    · exact found
  constructor
  · exact sound.shapes
  · exact fun other given found => sound.valid other given (earlier other given found)
  · exact fun other given found => sound.held other given (earlier other given found)
  · exact sound.small
  · intro finished member
    obtain ⟨issued, removed, describes⟩ := sound.finished finished member
    exact ⟨issued, removed, fun given found => describes given (earlier _ given found)⟩

theorem sound_effect (sound : Sound state) (effect : Effect state next) : Sound next := by
  cases effect with
  | same => exact sound
  | drawn uploadId shape => exact sound_drawn sound shape
  | began uploadId metadata set shape fresh valid empty => exact sound_began sound shape fresh valid empty
  | stored chunk files set found inRange small directory => exact sound_stored sound found inRange small directory
  | merged uploadId metadata bodies set found all collected => exact sound_merged sound found all collected
  | spoiled uploadId metadata index found all missing =>
      exact ⟨sound.shapes, sound.valid, sound.held, sound.small, sound.finished⟩
  | expired uploadId => exact sound_expired sound

theorem sound_init : Sound {} where
  shapes := nofun
  valid := nofun
  held := nofun
  small := nofun
  finished := nofun

theorem sound_run (reached : machine.run {} events = some state) : Sound state :=
  Machine.Always.atEnd (Machine.always_of_step Sound sound_init fun _ _ _ sound stepped =>
    sound_effect sound (effect_step stepped)) reached

end Step

end MuduoIm.Server.Uploads
