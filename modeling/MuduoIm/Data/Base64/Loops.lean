import Mathlib.Algebra.Order.Floor.Div
import Mathlib.Data.Nat.Basic
import Mathlib.GroupTheory.GroupAction.Ring
import MuduoIm.Data.Base64.RoundTrip
import MuduoIm.Data.Gather

namespace MuduoIm.Data.Base64

/-! # The loops of the codec

Bytes are gathered by three and indices by four.  What the arrays hold before
the loop is not set by the code; it is a parameter here.
-/

namespace Loop

def symbolsOf (arr3 : Fin 3 → UInt8) : Bytes :=
  (indices (arr3 0) (arr3 1) (arr3 2)).map (fun index => chars.getD index.toNat 0)

/-- An incomplete group has one symbol more than bytes. -/
def finishEncoding (state : Gather UInt8 UInt8 3) : Bytes :=
  if state.i = 0 then state.result
  else state.result ++ (symbolsOf (state.cleared 0)).take (state.i + 1)

/-- `inLen` is an `int`.  A negative one is counted down past the end of the input,
which is undefined. -/
def base64UrlEncode (arr3 : Fin 3 → UInt8) (input : Bytes) : Option Bytes :=
  let inLen : Int := (input.length : Int).bmod (2 ^ 32)
  if inLen < 0 then none
  else
    let state := (input.take inLen.toNat).foldl (Gather.push symbolsOf) (Gather.start [] arr3)
    some ((finishEncoding state).map urlSafe)

def bytesOf (arr4 : Fin 4 → UInt8) : Bytes := octets (arr4 0) (arr4 1) (arr4 2) (arr4 3)

/-- The loop ends at padding and goes on after a symbol that is not in the alphabet. -/
def decodeFrom : Gather UInt8 UInt8 4 → Bytes → Gather UInt8 UInt8 4
  | state, [] => state
  | state, c :: rest =>
      if c = byte '=' then state
      else match chars.idxOf? c with
        | none => decodeFrom state rest
        | some pos => decodeFrom (state.push bytesOf pos.toUInt8) rest

/-- An incomplete group has one byte less than indices. -/
def finishDecoding (state : Gather UInt8 UInt8 4) : Bytes :=
  if state.i = 0 then state.result
  else state.result ++ (bytesOf (state.cleared 0)).take (state.i - 1)

def base64UrlDecode (arr4 : Fin 4 → UInt8) (input : Bytes) : Bytes :=
  finishDecoding (decodeFrom (Gather.start [] arr4) (padded (input.map urlUnsafe)))

variable {result : Bytes}

/-- The loop over the bytes writes the symbols of their indices. -/
theorem finishEncoding_foldl (arr3 : Fin 3 → UInt8) (input : Bytes) :
    finishEncoding (input.foldl (Gather.push symbolsOf) (Gather.start result arr3)) =
      result ++ (sextets input).map (fun index => chars.getD index.toNat 0) := by
  induction input using sextets.induct generalizing result arr3 with
  | case1 first second third rest ih =>
      have group : [first, second, third].foldl (Gather.push symbolsOf) (Gather.start result arr3) =
          Gather.start (result ++ symbolsOf (Gather.fill [first, second, third] arr3))
            (Gather.fill [first, second, third] arr3) := Gather.foldl_push_of_eq rfl
      rw [sextets, List.map_append, ← List.append_assoc]
      change finishEncoding (([first, second, third] ++ rest).foldl _ _) = _
      rw [List.foldl_append, group, ih]
      rfl
  | case2 first second =>
      rw [Gather.foldl_push_of_lt (by simp)]
      rfl
  | case3 first =>
      rw [Gather.foldl_push_of_lt (by simp)]
      rfl
  | case4 => exact (List.append_nil result).symm

/-- The loop over the symbols gathers the indices of those before the padding. -/
theorem decodeFrom_eq (state : Gather UInt8 UInt8 4) (text : Bytes) :
    decodeFrom state text =
      ((text.takeWhile (fun symbol => decide (symbol ≠ byte '='))).filterMap
        (fun symbol => (chars.idxOf? symbol).map Nat.toUInt8)).foldl (Gather.push bytesOf) state := by
  induction text generalizing state with
  | nil => rfl
  | cons c rest ih =>
      rw [decodeFrom]
      by_cases padding : c = byte '='
      · rw [if_pos padding, List.takeWhile_cons_of_neg (by simpa using padding)]
        rfl
      · rw [if_neg padding, List.takeWhile_cons_of_pos (by simpa using padding), List.filterMap_cons]
        cases found : chars.idxOf? c with
        | none => exact ih state
        | some pos => exact ih (state.push bytesOf pos.toUInt8)

/-- The loop over the indices assembles the bytes. -/
theorem finishDecoding_foldl (arr4 : Fin 4 → UInt8) (found : Bytes) :
    finishDecoding (found.foldl (Gather.push bytesOf) (Gather.start result arr4)) =
      result ++ assemble found := by
  induction found using assemble.induct generalizing result arr4 with
  | case1 first second third fourth rest ih =>
      have group : [first, second, third, fourth].foldl (Gather.push bytesOf) (Gather.start result arr4) =
          Gather.start (result ++ bytesOf (Gather.fill [first, second, third, fourth] arr4))
            (Gather.fill [first, second, third, fourth] arr4) := Gather.foldl_push_of_eq rfl
      rw [assemble, ← List.append_assoc]
      change finishDecoding (([first, second, third, fourth] ++ rest).foldl _ _) = _
      rw [List.foldl_append, group, ih]
      rfl
  | case2 first second third =>
      rw [Gather.foldl_push_of_lt (by simp)]
      rfl
  | case3 first second =>
      rw [Gather.foldl_push_of_lt (by simp)]
      rfl
  | case4 first =>
      rw [Gather.foldl_push_of_lt (by simp)]
      rfl
  | case5 => exact (List.append_nil result).symm

theorem base64UrlDecode_eq (arr4 : Fin 4 → UInt8) (input : Bytes) :
    base64UrlDecode arr4 input = Base64.base64UrlDecode input := by
  rw [base64UrlDecode, decodeFrom_eq, finishDecoding_foldl]
  rfl

theorem base64UrlEncode_eq (arr3 : Fin 3 → UInt8) {input : Bytes} (short : input.length < 2 ^ 31) :
    base64UrlEncode arr3 input = some (Base64.base64UrlEncode input) := by
  have width : (input.length : Int).bmod (2 ^ 32) = input.length :=
    Int.bmod_eq_of_le (by omega) (by omega)
  unfold base64UrlEncode
  simp only [width]
  rw [if_neg (by omega), Int.toNat_natCast, List.take_length, finishEncoding_foldl,
    Base64.base64UrlEncode_eq, symbols, List.nil_append, List.map_map]
  rfl

/-! ## The round trip -/

/-- A-Z, a-z, 0-9, minus and underscore. -/
def urlAlphabet : Bytes := ascii "ABCDEFGHIJKLMNOPQRSTUVWXYZabcdefghijklmnopqrstuvwxyz0123456789-_"

private theorem urlAlphabet_table : ∀ index < 64,
    urlSafe (chars.getD index 0) ∈ urlAlphabet := by
  decide +kernel

theorem mem_urlAlphabet {input : Bytes} {symbol : UInt8}
    (written : symbol ∈ Base64.base64UrlEncode input) : symbol ∈ urlAlphabet := by
  rw [Base64.base64UrlEncode_eq] at written
  obtain ⟨index, listed, rfl⟩ := List.mem_map.mp written
  exact urlAlphabet_table index.toNat (sextets_lt listed)

theorem length_sextets (input : Bytes) : (sextets input).length = (4 * input.length + 2) / 3 := by
  induction input using sextets.induct with
  | case1 first second third rest ih =>
      rw [sextets, List.length_append, ih]
      simp only [indices, List.length_cons, List.length_nil]
      omega
  | case2 first second => simp [sextets, indices]
  | case3 first => simp [sextets, indices]
  | case4 => rfl

theorem length_base64UrlEncode (input : Bytes) :
    (Base64.base64UrlEncode input).length = (4 * input.length) ⌈/⌉ 3 := by
  rw [Base64.base64UrlEncode_eq, symbols, List.length_map, length_sextets, Nat.ceilDiv_eq_add_pred_div]
  omega

/-- Whatever the arrays hold before, the decoder gives back what the encoder was
given, and the text is in the URL alphabet. -/
theorem base64UrlDecode_base64UrlEncode_loops (x : Bytes) (short : x.length < 2 ^ 31)
    (encoderArr3 : Fin 3 → UInt8) (decoderArr4 : Fin 4 → UInt8) :
    ∃ text, base64UrlEncode encoderArr3 x = some text ∧ base64UrlDecode decoderArr4 text = x ∧
      (∀ symbol ∈ text, symbol ∈ urlAlphabet) ∧ byte '.' ∉ text ∧ byte '=' ∉ text ∧
      text.length = (4 * x.length) ⌈/⌉ 3 := by
  have outside {symbol : UInt8} (foreign : symbol ∉ urlAlphabet) : symbol ∉ Base64.base64UrlEncode x :=
    fun written => foreign (mem_urlAlphabet written)
  refine ⟨Base64.base64UrlEncode x, base64UrlEncode_eq encoderArr3 short, ?_, fun _ => mem_urlAlphabet,
    outside (by decide +kernel), outside (by decide +kernel), length_base64UrlEncode x⟩
  rw [base64UrlDecode_eq, Base64.base64UrlDecode_base64UrlEncode]

/-- Four bytes, of which the first three take both of the replaced symbols. -/
theorem base64UrlDecode_base64UrlEncode_loops_replaced :
    ∃ text, base64UrlEncode (fun _ => 0) [0xfb, 0xff, 0xbf, 0x80] = some text ∧
      base64UrlDecode (fun _ => 0) text = [0xfb, 0xff, 0xbf, 0x80] := by
  obtain ⟨text, encoded, decoded, _⟩ :=
    base64UrlDecode_base64UrlEncode_loops [0xfb, 0xff, 0xbf, 0x80] (by decide) (fun _ => 0) (fun _ => 0)
  exact ⟨text, encoded, decoded⟩

end Loop

end MuduoIm.Data.Base64
