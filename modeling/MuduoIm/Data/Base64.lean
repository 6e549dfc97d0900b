import Mathlib.Data.List.Basic

namespace MuduoIm.Data

/-! # Base64URL

Byte strings in groups of three bytes and four symbols.  The encoder writes no
padding; the decoder skips what is not in the alphabet and stops at padding.
-/

abbrev Bytes := List UInt8

/-- The bytes of an ASCII text. -/
def ascii (text : String) : Bytes := text.toList.map (fun letter => letter.toNat.toUInt8)

def byte (letter : Char) : UInt8 := letter.toNat.toUInt8

namespace Base64

def chars : Bytes := ascii "ABCDEFGHIJKLMNOPQRSTUVWXYZabcdefghijklmnopqrstuvwxyz0123456789+/"

def urlSafe (symbol : UInt8) : UInt8 :=
  if symbol = byte '+' then byte '-' else if symbol = byte '/' then byte '_' else symbol

def urlUnsafe (symbol : UInt8) : UInt8 :=
  if symbol = byte '-' then byte '+' else if symbol = byte '_' then byte '/' else symbol

/-- The four indices of three bytes. -/
def indices (first second third : UInt8) : Bytes :=
  [(first &&& 0xfc) >>> 2,
    ((first &&& 0x03) <<< 4) + ((second &&& 0xf0) >>> 4),
    ((second &&& 0x0f) <<< 2) + ((third &&& 0xc0) >>> 6),
    third &&& 0x3f]

def symbols (indices : Bytes) : Bytes :=
  indices.map (fun index => urlSafe (chars.getD index.toNat 0))

def base64UrlEncode : Bytes → Bytes
  | first :: second :: third :: rest =>
      symbols (indices first second third) ++ base64UrlEncode rest
  | [first, second] => symbols ((indices first second 0).take 3)
  | [first] => symbols ((indices first 0 0).take 2)
  | [] => []

/-- The three bytes of four indices. -/
def octets (first second third fourth : UInt8) : Bytes :=
  [(first <<< 2) + ((second &&& 0x30) >>> 4),
    ((second &&& 0x0f) <<< 4) + ((third &&& 0x3c) >>> 2),
    ((third &&& 0x03) <<< 6) + fourth]

def assemble : Bytes → Bytes
  | first :: second :: third :: fourth :: rest => octets first second third fourth ++ assemble rest
  | [first, second, third] => (octets first second third 0).take 2
  | [first, second] => (octets first second 0 0).take 1
  | [_] => []
  | [] => []

def padded (input : Bytes) : Bytes :=
  input ++ List.replicate ((4 - input.length % 4) % 4) (byte '=')

def base64UrlDecode (input : Bytes) : Bytes :=
  let symbols := (padded (input.map urlUnsafe)).takeWhile (fun symbol => decide (symbol ≠ byte '='))
  assemble (symbols.filterMap (fun symbol => (chars.idxOf? symbol).map Nat.toUInt8))

/-- What is encoded is written in symbols of the URL alphabet. -/
theorem mem_base64UrlEncode {input : Bytes} {symbol : UInt8} (member : symbol ∈ base64UrlEncode input) :
    ∃ index : Nat, symbol = urlSafe (chars.getD index 0) := by
  have among (indices : Bytes) (listed : symbol ∈ symbols indices) :
      ∃ index : Nat, symbol = urlSafe (chars.getD index 0) := by
    obtain ⟨index, _, same⟩ := List.mem_map.mp listed
    exact ⟨index.toNat, same.symm⟩
  induction input using base64UrlEncode.induct with
  | case1 first second third rest ih =>
      rw [base64UrlEncode] at member
      rcases List.mem_append.mp member with listed | later
      · exact among _ listed
      · exact ih later
  | case2 first second => exact among _ member
  | case3 first => exact among _ member
  | case4 => cases member

/-- A symbol that no entry of the alphabet stands for does not occur. -/
theorem notMem_base64UrlEncode {input : Bytes} {symbol : UInt8}
    (foreign : (0 :: chars).all (fun entry => decide (urlSafe entry ≠ symbol)) = true) :
    symbol ∉ base64UrlEncode input := by
  intro member
  obtain ⟨index, same⟩ := mem_base64UrlEncode member
  have listed : chars.getD index 0 ∈ 0 :: chars := by
    rw [List.getD_eq_getElem?_getD]
    cases found : chars[index]? with
    | none => exact List.mem_cons_self
    | some entry => exact List.mem_cons_of_mem _ (List.mem_of_getElem? found)
  have differs := of_decide_eq_true (List.all_eq_true.mp foreign _ listed)
  exact differs same.symm

end Base64

end MuduoIm.Data
