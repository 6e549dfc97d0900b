import Mathlib.Data.Nat.Bitwise
import MuduoIm.Data.Base64

namespace MuduoIm.Data.Base64

/-! Decoding undoes encoding, for a byte string of any length. -/

/-- The indices of the symbols that stand for a byte string. -/
def sextets : Bytes → Bytes
  | first :: second :: third :: rest => indices first second third ++ sextets rest
  | [first, second] => (indices first second 0).take 3
  | [first] => (indices first 0 0).take 2
  | [] => []

theorem base64UrlEncode_eq (input : Bytes) : base64UrlEncode input = symbols (sextets input) := by
  induction input using base64UrlEncode.induct with
  | case1 first second third rest ih =>
      rw [base64UrlEncode, sextets, ih, symbols, symbols, symbols, List.map_append]
  | case2 first second => rfl
  | case3 first => rfl
  | case4 => rfl

section Fields

variable (value : UInt8) {mask shift : UInt8} {width : ℕ}

/-- A mask and a shift cut a field of bits out of a byte. -/
private theorem toNat_field (low : mask.toNat >>> (shift.toNat % 8) = 2 ^ width - 1) :
    ((value &&& mask) >>> shift).toNat = value.toNat / 2 ^ (shift.toNat % 8) % 2 ^ width := by
  rw [UInt8.toNat_shiftRight, UInt8.toNat_and, Nat.shiftRight_and_distrib, low,
    Nat.and_two_pow_sub_one_eq_mod, Nat.shiftRight_eq_div_pow]

private theorem toNat_low (low : mask.toNat = 2 ^ width - 1) :
    (value &&& mask).toNat = value.toNat % 2 ^ width := by
  rw [UInt8.toNat_and, low, Nat.and_two_pow_sub_one_eq_mod]

private theorem toNat_raised : (value <<< shift).toNat = value.toNat * 2 ^ (shift.toNat % 8) % 256 := by
  rw [UInt8.toNat_shiftLeft, Nat.shiftLeft_eq]

end Fields

private theorem toNat_index0 (first : UInt8) : ((first &&& 0xfc) >>> 2).toNat = first.toNat / 4 := by
  have field := toNat_field first (show (0xfc : UInt8).toNat >>> ((2 : UInt8).toNat % 8) = 2 ^ 6 - 1 by decide)
  have bound := first.toNat_lt
  change _ = first.toNat / 4 % 64 at field
  omega

private theorem toNat_index1 (first second : UInt8) :
    (((first &&& 0x03) <<< 4) + ((second &&& 0xf0) >>> 4)).toNat =
      first.toNat % 4 * 16 + second.toNat / 16 := by
  have low := toNat_low first (show (0x03 : UInt8).toNat = 2 ^ 2 - 1 by decide)
  have raised := @toNat_raised (first &&& 0x03) 4
  have field := toNat_field second (show (0xf0 : UInt8).toNat >>> ((4 : UInt8).toNat % 8) = 2 ^ 4 - 1 by decide)
  have bound := second.toNat_lt
  change _ = _ * 16 % 256 at raised
  change _ = second.toNat / 16 % 16 at field
  rw [UInt8.toNat_add, raised, field, low]
  omega

private theorem toNat_index2 (second third : UInt8) :
    (((second &&& 0x0f) <<< 2) + ((third &&& 0xc0) >>> 6)).toNat =
      second.toNat % 16 * 4 + third.toNat / 64 := by
  have low := toNat_low second (show (0x0f : UInt8).toNat = 2 ^ 4 - 1 by decide)
  have raised := @toNat_raised (second &&& 0x0f) 2
  have field := toNat_field third (show (0xc0 : UInt8).toNat >>> ((6 : UInt8).toNat % 8) = 2 ^ 2 - 1 by decide)
  have bound := third.toNat_lt
  change _ = _ * 4 % 256 at raised
  change _ = third.toNat / 64 % 4 at field
  rw [UInt8.toNat_add, raised, field, low]
  omega

private theorem toNat_index3 (third : UInt8) : (third &&& 0x3f).toNat = third.toNat % 64 :=
  toNat_low third (show (0x3f : UInt8).toNat = 2 ^ 6 - 1 by decide)

private theorem toNat_octet0 (first second : UInt8) :
    ((first <<< 2) + ((second &&& 0x30) >>> 4)).toNat =
      (first.toNat * 4 + second.toNat / 16 % 4) % 256 := by
  have raised := @toNat_raised first 2
  have field := toNat_field second (show (0x30 : UInt8).toNat >>> ((4 : UInt8).toNat % 8) = 2 ^ 2 - 1 by decide)
  change _ = _ * 4 % 256 at raised
  change _ = second.toNat / 16 % 4 at field
  rw [UInt8.toNat_add, raised, field]
  omega

private theorem toNat_octet1 (second third : UInt8) :
    (((second &&& 0x0f) <<< 4) + ((third &&& 0x3c) >>> 2)).toNat =
      second.toNat % 16 * 16 + third.toNat / 4 % 16 := by
  have low := toNat_low second (show (0x0f : UInt8).toNat = 2 ^ 4 - 1 by decide)
  have raised := @toNat_raised (second &&& 0x0f) 4
  have field := toNat_field third (show (0x3c : UInt8).toNat >>> ((2 : UInt8).toNat % 8) = 2 ^ 4 - 1 by decide)
  change _ = _ * 16 % 256 at raised
  change _ = third.toNat / 4 % 16 at field
  rw [UInt8.toNat_add, raised, field, low]
  omega

private theorem toNat_octet2 (third fourth : UInt8) :
    (((third &&& 0x03) <<< 6) + fourth).toNat = (third.toNat % 4 * 64 + fourth.toNat) % 256 := by
  have low := toNat_low third (show (0x03 : UInt8).toNat = 2 ^ 2 - 1 by decide)
  have raised := @toNat_raised (third &&& 0x03) 6
  change _ = _ * 64 % 256 at raised
  rw [UInt8.toNat_add, raised, low]
  omega

section Bytes

variable (first second third : UInt8)

private theorem octet0_indices :
    (((first &&& 0xfc) >>> 2) <<< 2) + (((((first &&& 0x03) <<< 4) + ((second &&& 0xf0) >>> 4)) &&& 0x30) >>> 4) =
      first := by
  apply UInt8.toNat_inj.mp
  have bound := first.toNat_lt
  have secondBound := second.toNat_lt
  rw [toNat_octet0, toNat_index0, toNat_index1]
  omega

private theorem octet1_indices :
    (((((first &&& 0x03) <<< 4) + ((second &&& 0xf0) >>> 4)) &&& 0x0f) <<< 4) +
      (((((second &&& 0x0f) <<< 2) + ((third &&& 0xc0) >>> 6)) &&& 0x3c) >>> 2) = second := by
  apply UInt8.toNat_inj.mp
  have bound := second.toNat_lt
  have thirdBound := third.toNat_lt
  rw [toNat_octet1, toNat_index1, toNat_index2]
  omega

private theorem octet2_indices :
    (((((second &&& 0x0f) <<< 2) + ((third &&& 0xc0) >>> 6)) &&& 0x03) <<< 6) + (third &&& 0x3f) = third := by
  apply UInt8.toNat_inj.mp
  have bound := third.toNat_lt
  rw [toNat_octet2, toNat_index2, toNat_index3]
  omega

theorem assemble_indices (rest : Bytes) :
    assemble (indices first second third ++ rest) = first :: second :: third :: assemble rest := by
  change octets _ _ _ _ ++ assemble rest = _
  rw [octets, octet0_indices, octet1_indices, octet2_indices]
  rfl

end Bytes

theorem assemble_sextets (input : Bytes) : assemble (sextets input) = input := by
  induction input using sextets.induct with
  | case1 first second third rest ih => rw [sextets, assemble_indices, ih]
  | case2 first second =>
      change [_, _] = [first, second]
      rw [octet0_indices, octet1_indices]
  | case3 first =>
      change [_] = [first]
      rw [octet0_indices]
  | case4 => rfl

theorem indices_lt {first second third index : UInt8} (listed : index ∈ indices first second third) :
    index.toNat < 64 := by
  have firstBound := first.toNat_lt
  have secondBound := second.toNat_lt
  have thirdBound := third.toNat_lt
  rw [indices] at listed
  rcases List.mem_cons.mp listed with rfl | listed
  · rw [toNat_index0]
    omega
  rcases List.mem_cons.mp listed with rfl | listed
  · rw [toNat_index1]
    omega
  rcases List.mem_cons.mp listed with rfl | listed
  · rw [toNat_index2]
    omega
  · cases List.mem_singleton.mp listed
    rw [toNat_index3]
    omega

theorem sextets_lt {input : Bytes} {index : UInt8} (listed : index ∈ sextets input) : index.toNat < 64 := by
  induction input using sextets.induct with
  | case1 first second third rest ih =>
      rw [sextets] at listed
      rcases List.mem_append.mp listed with here | later
      · exact indices_lt here
      · exact ih later
  | case2 first second => exact indices_lt (List.mem_of_mem_take listed)
  | case3 first => exact indices_lt (List.mem_of_mem_take listed)
  | case4 => cases listed

/-- What the decoder reads where the encoder wrote the symbol of an index. -/
def reread (index : UInt8) : UInt8 := urlUnsafe (urlSafe (chars.getD index.toNat 0))

private theorem reread_table : ∀ index < 64,
    reread (Nat.toUInt8 index) ≠ byte '=' ∧
      (chars.idxOf? (reread (Nat.toUInt8 index))).map Nat.toUInt8 = some (Nat.toUInt8 index) := by
  decide +kernel

theorem reread_spec {index : UInt8} (small : index.toNat < 64) :
    reread index ≠ byte '=' ∧ (chars.idxOf? (reread index)).map Nat.toUInt8 = some index := by
  have entry := reread_table index.toNat small
  have same : Nat.toUInt8 index.toNat = index := UInt8.toNat_inj.mp (UInt8.toNat_ofNat' ▸ Nat.mod_eq_of_lt index.toNat_lt)
  rwa [same] at entry

private theorem takeWhile_padded {text : Bytes} (unpadded : ∀ symbol ∈ text, symbol ≠ byte '=') :
    (padded text).takeWhile (fun symbol => decide (symbol ≠ byte '=')) = text := by
  rw [padded, List.takeWhile_append_of_pos (fun symbol listed => decide_eq_true (unpadded symbol listed))]
  cases (4 - text.length % 4) % 4 with
  | zero => simp
  | succ missing => simp [List.replicate_succ]

/-- Decoding undoes encoding. -/
theorem base64UrlDecode_base64UrlEncode (input : Bytes) : base64UrlDecode (base64UrlEncode input) = input := by
  have reads : (base64UrlEncode input).map urlUnsafe = (sextets input).map reread := by
    rw [base64UrlEncode_eq, symbols, List.map_map]
    rfl
  have unpadded : ∀ symbol ∈ (sextets input).map reread, symbol ≠ byte '=' := by
    intro symbol listed
    obtain ⟨index, found, same⟩ := List.mem_map.mp listed
    cases same
    exact (reread_spec (sextets_lt found)).1
  have found : ∀ index ∈ sextets input,
      ((fun symbol => (chars.idxOf? symbol).map Nat.toUInt8) ∘ reread) index = some index :=
    fun index listed => (reread_spec (sextets_lt listed)).2
  rw [base64UrlDecode, reads, takeWhile_padded unpadded, List.filterMap_map]
  rw [List.filterMap_congr found, List.filterMap_some, assemble_sextets]

end MuduoIm.Data.Base64
