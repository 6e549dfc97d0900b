import Std.Data.String.ToNat
import MuduoIm.Server.Thumbnails

namespace MuduoIm.Server.Thumbnails

open MuduoIm.Data MuduoIm.Data.FileName
open MuduoIm.Server.Uploads (Metadata allowedExts imageExts lower)

/-! # The names of the files

An identifier has neither dots nor slashes, and an accepted extension has one dot, in
front.  So the server, the workers and the page split a name at the same place.
-/

/-- A dot with something after it that has neither dots nor slashes. -/
def Dotted (ext : String) : Prop :=
  ∃ letters, ext.toList = '.' :: letters ∧ '.' ∉ letters ∧ '/' ∉ letters ∧ letters ≠ []

def Accepted (ext : String) : Prop := ext = "" ∨ Dotted ext

def thumbName (msgId ext : String) (size : ℕ) : String := msgId ++ ("_thumb_" ++ (toString size ++ ext))

variable {msgId other ext last : String} {char : Char} {size : ℕ}

theorem eq_of_toLower {stop : Char} (low : stop.toNat < 97) (same : char.toLower = stop) : char = stop := by
  unfold Char.toLower at same
  split at same
  · rename_i upper
    have value : (char.val + ('a'.val - 'A'.val)).toNat = stop.toNat := congrArg Char.toNat same
    have first : ('A'.val).toNat ≤ char.val.toNat := upper.1
    have bound : char.val.toNat ≤ ('Z'.val).toNat := upper.2
    rw [UInt32.toNat_add] at value
    simp at first bound value
    omega
  · exact same

theorem dotted_of_lower (member : lower ext ∈ allowedExts) : Dotted ext := by
  have shapes : allowedExts.all (fun allowed => allowed.toList.head? == some '.' &&
      !allowed.toList.tail.contains '.' && !allowed.toList.tail.contains '/' && !allowed.toList.tail.isEmpty) = true := by
    decide
  have shape := List.all_eq_true.mp shapes _ member
  rw [lower, String.toList_ofList] at shape
  cases letters : ext.toList with
  | nil => simp [letters] at shape
  | cons first rest =>
      rw [letters, List.map_cons] at shape
      simp only [List.head?_cons, List.tail_cons, Bool.and_eq_true, beq_iff_eq, Option.some.injEq, Bool.not_eq_true',
        List.contains_eq_mem, decide_eq_false_iff_not, List.isEmpty_eq_false_iff] at shape
      obtain ⟨⟨⟨dot, noDot⟩, noSlash⟩, some⟩ := shape
      refine ⟨rest, by rw [letters, eq_of_toLower (by decide) dot], ?_, ?_, ?_⟩
      · intro present
        exact noDot (List.mem_map.mpr ⟨'.', present, by decide⟩)
      · intro present
        exact noSlash (List.mem_map.mpr ⟨'/', present, by decide⟩)
      · intro empty
        exact some (by rw [empty]; rfl)

theorem lower_eq_empty (empty : lower ext = "") : ext = "" := by
  have letters := congrArg String.toList empty
  rw [lower, String.toList_ofList] at letters
  exact String.toList_inj.mp (List.map_eq_nil_iff.mp letters)

theorem allowed_of_image (image : isImage ext = true) : lower ext ∈ allowedExts := by
  have inside : ∀ name ∈ imageExts, name ∈ allowedExts := by decide
  exact inside _ (of_decide_eq_true image)

/-! ## Identifiers -/

structure Plain (msgId : String) : Prop where
  length : msgId.toList.length = 36
  noDot : '.' ∉ msgId.toList
  noSlash : '/' ∉ msgId.toList

theorem plain_of_isUuid (uuid : isUuid msgId = true) : Plain msgId := by
  rw [isUuid, Bool.and_eq_true, decide_eq_true_eq] at uuid
  obtain ⟨length, letters⟩ := uuid
  have absent (other : Char) (foreign : uuidLetters.contains other = false) : other ∉ msgId.toList := by
    intro present
    rw [List.all_eq_true.mp letters other present] at foreign
    cases foreign
  exact ⟨by rw [String.length_toList]; exact length, absent '.' (by decide), absent '/' (by decide)⟩

theorem Plain.named (plain : Plain msgId) : ∃ char ∈ msgId.toList, char ≠ '.' := by
  cases letters : msgId.toList with
  | nil =>
      have length := plain.length
      rw [letters] at length
      cases length
  | cons first rest =>
      refine ⟨first, List.mem_cons_self, ?_⟩
      intro dot
      exact plain.noDot (by rw [letters, dot]; exact List.mem_cons_self)

/-- Names with identifiers in front are equal in both parts. -/
theorem Plain.append_inj (plain : Plain msgId) (plainOther : Plain other) {rest : String}
    (same : msgId ++ ext = other ++ rest) : msgId = other ∧ ext = rest := by
  have lists := congrArg String.toList same
  rw [String.toList_append, String.toList_append] at lists
  obtain ⟨front, back⟩ := List.append_inj lists (plain.length.trans plainOther.length.symm)
  exact ⟨String.toList_inj.mp front, String.toList_inj.mp back⟩

theorem Plain.savedName_ne_thumbName (plain : Plain msgId) (plainOther : Plain other) (accepted : Accepted ext) :
    msgId ++ ext ≠ thumbName other last size := by
  intro same
  have tails := congrArg String.toList (plain.append_inj plainOther same).2
  rw [String.toList_append] at tails
  obtain rfl | dotted := accepted
  · cases tails
  · obtain ⟨letters, shape, _⟩ := dotted
    rw [shape] at tails
    cases tails

theorem Plain.thumbName_inj (plain : Plain msgId) (plainOther : Plain other) {otherSize : ℕ}
    (same : thumbName msgId ext size = thumbName other last otherSize) :
    msgId = other ∧ (ext = last → size = otherSize) := by
  obtain ⟨ids, tails⟩ := plain.append_inj plainOther same
  refine ⟨ids, fun exts => ?_⟩
  rw [exts] at tails
  exact Nat.repr_injective (String.append_left_inj _ |>.mp (String.append_right_inj _ |>.mp tails))

/-! ## The same split everywhere -/

theorem thumbs_eq (dotted : Dotted ext) :
    thumbs (msgId ++ ext) = ("/uploads/" ++ thumbName msgId ext 200, "/uploads/" ++ thumbName msgId ext 600) := by
  obtain ⟨letters, shape, noDot, _⟩ := dotted
  rw [thumbs, String.toList_append, shape, splitLast_append noDot]
  dsimp only
  rw [String.ofList_toList, ← shape, String.ofList_toList, thumbName, thumbName]
  simp only [String.append_assoc]
  rfl

theorem splitext_path (plain : Plain msgId) (dotted : Dotted ext) :
    splitext ("../uploads/" ++ (msgId ++ ext)).toList = (("../uploads/" ++ msgId).toList, ext.toList) := by
  obtain ⟨letters, shape, noDot, noSlash, _⟩ := dotted
  have slashless : '/' ∉ msgId.toList ++ '.' :: letters := by
    rw [List.mem_append, List.mem_cons]
    intro either
    obtain front | dot | back := either
    · exact plain.noSlash front
    · cases dot
    · exact noSlash back
  have split := splitext_append "../uploads".toList slashless noDot plain.named
  rw [String.toList_append, String.toList_append, String.toList_append, shape]
  exact split

theorem outPath_eq (plain : Plain msgId) (dotted : Dotted ext) :
    outPath ("../uploads/" ++ (msgId ++ ext)) size = "../uploads/" ++ thumbName msgId ext size := by
  rw [outPath, splitext_path plain dotted]
  dsimp only
  rw [String.ofList_toList, String.ofList_toList, thumbName]
  simp only [String.append_assoc]

theorem thumbnail_append {stem letters : List Char} (noDot : '.' ∉ letters) (some : letters ≠ []) :
    Web.Handlers.thumbnail (stem ++ '.' :: letters) = stem ++ ("_thumb_600".toList ++ '.' :: letters) := by
  have turned : (stem ++ '.' :: letters).reverse = letters.reverse ++ '.' :: stem.reverse := by simp
  rw [Web.Handlers.thumbnail, turned, List.dropWhile_append_of_pos (passed_of_absent noDot),
    List.takeWhile_append_of_pos (passed_of_absent noDot)]
  simp [some]

theorem pageThumbnail_eq (dotted : Dotted ext) :
    pageThumbnail ("/uploads/" ++ (msgId ++ ext)) = "/uploads/" ++ thumbName msgId ext 600 := by
  obtain ⟨letters, shape, noDot, _, some⟩ := dotted
  have stem : ("/uploads/" ++ (msgId ++ ext)).toList = ("/uploads/" ++ msgId).toList ++ '.' :: letters := by
    rw [String.toList_append, String.toList_append, shape, String.toList_append, List.append_assoc]
  rw [pageThumbnail, stem, thumbnail_append noDot some]
  apply String.toList_inj.mp
  rw [String.toList_ofList, thumbName]
  simp only [String.toList_append, shape, List.append_assoc]
  rfl

end MuduoIm.Server.Thumbnails
