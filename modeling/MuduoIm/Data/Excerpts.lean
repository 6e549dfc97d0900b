import Mathlib.Data.List.Basic

namespace MuduoIm.Data.Excerpts

/-! # Texts that are cut at a fixed byte

A string is the UTF-8 encoding of its characters.  A cut keeps the first bytes,
which need not be whole characters.
-/

/-- `text.size() > limit ? text.substr(0, limit) + mark : text`. -/
def cut (limit : Nat) (mark text : String) : ByteArray :=
  if limit < text.utf8ByteSize then text.toByteArray.extract 0 limit ++ mark.toByteArray else text.toByteArray

/-- The bytes are a prefix of the text that consists of characters, and the mark
if the text is longer than the limit. -/
def IsExcerpt (limit : Nat) (mark text : String) (bytes : ByteArray) : Prop :=
  ∃ start : String, start.toList <+: text.toList ∧
    bytes = start.toByteArray ++ if limit < text.utf8ByteSize then mark.toByteArray else "".toByteArray

/-- The text is not longer than the limit, or a character starts there. -/
def Uncut (limit : Nat) (text : String) : Prop :=
  text.utf8ByteSize ≤ limit ∨
    ∃ inside : (⟨limit⟩ : String.Pos.Raw) < text.rawEndPos, (text.getUTF8Byte ⟨limit⟩ inside).IsUTF8FirstByte

variable {limit : Nat} {mark text : String} {bytes : ByteArray}

/-- A cut inside the text is valid exactly where a character starts. -/
theorem valid_extract_iff (longer : limit < text.utf8ByteSize) :
    (text.toByteArray.extract 0 limit).IsValidUTF8 ↔ Uncut limit text := by
  have inside : (⟨limit⟩ : String.Pos.Raw) ≤ text.rawEndPos := Nat.le_of_lt longer
  have notEnd : (⟨limit⟩ : String.Pos.Raw) ≠ text.rawEndPos := by
    intro same
    have sizes : limit = text.utf8ByteSize := congrArg String.Pos.Raw.byteIdx same
    omega
  have boundary := @String.Pos.Raw.isValid_iff_isValidUTF8_extract_zero text ⟨limit⟩
  have starts := @String.Pos.Raw.isValid_iff_isUTF8FirstByte text ⟨limit⟩
  rw [and_iff_right inside] at boundary
  rw [or_iff_right notEnd] at starts
  rw [Uncut, or_iff_right (by omega), ← starts, boundary]

/-- A prefix that consists of characters is completed to the text by characters. -/
theorem exists_start (longer : limit < text.utf8ByteSize)
    (valid : (text.toByteArray.extract 0 limit).IsValidUTF8) :
    ∃ start : String, start.toList <+: text.toList ∧ text.toByteArray.extract 0 limit = start.toByteArray := by
  have inside : (⟨limit⟩ : String.Pos.Raw) ≤ text.rawEndPos := Nat.le_of_lt longer
  have boundary : (⟨limit⟩ : String.Pos.Raw).IsValid text :=
    String.Pos.Raw.isValid_iff_isValidUTF8_extract_zero.mpr ⟨inside, valid⟩
  have rest := boundary.isValidUTF8_extract_utf8ByteSize
  refine ⟨String.ofByteArray _ valid, ?_, rfl⟩
  have whole : text = String.ofByteArray _ valid ++ String.ofByteArray _ rest := by
    apply String.toByteArray_inj.mp
    rw [String.toByteArray_append, ← ByteArray.extract_eq_extract_append_extract limit (Nat.zero_le _) (Nat.le_of_lt longer)]
    exact ByteArray.extract_zero_size.symm
  have lists := congrArg String.toList whole
  rw [String.toList_append] at lists
  exact ⟨_, lists.symm⟩

/-- Characters that follow do not make a cut valid. -/
theorem valid_left (valid : (bytes ++ mark.toByteArray).IsValidUTF8) : bytes.IsValidUTF8 := by
  have size : (String.ofByteArray _ valid).utf8ByteSize = bytes.size + mark.utf8ByteSize := ByteArray.size_append
  have boundary : (⟨bytes.size⟩ : String.Pos.Raw).IsValid (String.ofByteArray _ valid) := by
    rw [String.Pos.Raw.isValid_iff_isUTF8FirstByte]
    rcases Nat.eq_zero_or_pos mark.utf8ByteSize with empty | follows
    · left
      rw [String.Pos.Raw.ext_iff, String.byteIdx_rawEndPos, size, empty, Nat.add_zero]
    · right
      have inside : (⟨bytes.size⟩ : String.Pos.Raw) < (String.ofByteArray _ valid).rawEndPos := by
        rw [String.Pos.Raw.lt_iff, String.byteIdx_rawEndPos, size]
        exact Nat.lt_add_of_pos_right follows
      refine ⟨inside, ?_⟩
      have first := @String.isUTF8FirstByte_getUTF8Byte_zero mark follows
      simp only [String.getUTF8Byte] at first ⊢
      rw [ByteArray.getElem_append_right (Nat.le_refl _)]
      simpa using first
  have start := boundary.isValidUTF8_extract_zero
  rwa [ByteArray.extract_append_eq_left rfl] at start

theorem cut_isExcerpt_iff : IsExcerpt limit mark text (cut limit mark text) ↔ Uncut limit text := by
  by_cases longer : limit < text.utf8ByteSize
  · simp only [IsExcerpt, cut, if_pos longer, ByteArray.append_left_inj]
    rw [← valid_extract_iff longer]
    constructor
    · intro given
      obtain ⟨start, _, same⟩ := given
      rw [same]
      exact start.isValidUTF8
    · exact exists_start longer
  · simp only [IsExcerpt, cut, if_neg longer]
    exact iff_of_true ⟨text, List.prefix_rfl, (ByteArray.append_empty).symm⟩ (.inl (by omega))

/-- The cut and its mark are valid UTF-8 exactly where they are an excerpt. -/
theorem cut_valid_iff : (cut limit mark text).IsValidUTF8 ↔ Uncut limit text := by
  constructor
  · intro valid
    by_cases longer : limit < text.utf8ByteSize
    · rw [cut, if_pos longer] at valid
      exact (valid_extract_iff longer).mp (valid_left valid)
    · exact .inl (by omega)
  · intro uncut
    obtain ⟨start, _, same⟩ := cut_isExcerpt_iff.mpr uncut
    rw [same]
    refine start.isValidUTF8.append ?_
    split
    · exact mark.isValidUTF8
    · exact "".isValidUTF8

end MuduoIm.Data.Excerpts
