import Mathlib.Algebra.Ring.Int.Defs
import Mathlib.Algebra.Ring.Nat
import Mathlib.Data.List.TakeWhile

namespace MuduoIm.Data

/-! # JSON values and the reads of a typed field

A parsed JSON text as nlohmann/json holds it, and the reads that the program
uses: `value(key, default)`, which throws when the receiver is no object or the
member has another type, and `std::stoll` for ids that arrive as strings.
-/

/-- A number with a fraction or an exponent is kept as the integer that
`static_cast<int64_t>` makes of it; nothing in the program reads more of it. -/
inductive Json where
  | null
  | boolean (value : Bool)
  | integer (value : Int)
  | float (truncated : Int)
  | string (value : String)
  | array (elements : List Json)
  | object (members : List (String × Json))
deriving Repr

namespace Json

/-- `value(key, default)` for a string; `none` when it throws. -/
def valueString (json : Json) (key default : String) : Option String :=
  match json with
  | .object members =>
      match members.lookup key with
      | none => some default
      | some (.string value) => some value
      | some _ => none
  | _ => none

/-- `value(key, default)` for an `int64_t`; a larger unsigned number wraps. -/
def valueInt (json : Json) (key : String) (default : Int) : Option Int :=
  match json with
  | .object members =>
      match members.lookup key with
      | none => some default
      | some (.integer value) => some (value.bmod (2 ^ 64))
      | some (.float truncated) => some truncated
      | some _ => none
  | _ => none

/-- An integer that an `int64_t` can hold is read back as it is. -/
theorem valueInt_integer {members : List (String × Json)} {key : String} {value default : Int}
    (found : members.lookup key = some (.integer value)) (lower : -2 ^ 63 ≤ value)
    (upper : value < 2 ^ 63) : (object members).valueInt key default = some value := by
  have exact_word : value.bmod (2 ^ 64) = value := Int.bmod_eq_of_le (by omega) (by omega)
  simp only [valueInt, found, exact_word]

/-- The member that `contains(key)` finds and `json[key]` reads. -/
def member (json : Json) (key : String) : Option Json :=
  match json with
  | .object members => members.lookup key
  | _ => none

/-- The member is a string. -/
def HasText (json : Json) (key : String) : Prop := ∃ text, json.member key = some (.string text)

/-- The member is a string, or there is none. -/
def TextOrAbsent (json : Json) (key : String) : Prop := json.member key = none ∨ json.HasText key

/-- The member is a number, or there is none. -/
def NumberOrAbsent (json : Json) (key : String) : Prop :=
  json.member key = none ∨ ∃ value, json.member key = some (.integer value) ∨ json.member key = some (.float value)

theorem valueString_absent {members : List (String × Json)} {key default : String}
    (absent : (object members).member key = none) : (object members).valueString key default = some default := by
  rw [member] at absent
  rw [valueString, absent]

theorem valueString_text {json : Json} {key text : String} (default : String)
    (found : json.member key = some (.string text)) : json.valueString key default = some text := by
  cases json with
  | object members =>
      rw [member] at found
      rw [valueString, found]
  | _ => contradiction

/-- A read as a string succeeds on the objects whose member, if any, is one. -/
theorem valueString_isSome {json : Json} {key default : String} :
    (json.valueString key default).isSome ↔ (∃ members, json = object members) ∧ json.TextOrAbsent key := by
  cases json with
  | object members =>
      rw [TextOrAbsent, HasText, member, valueString]
      cases members.lookup key with
      | none => simp
      | some found => cases found <;> simp
  | _ => simp [valueString]

/-- A read as a number succeeds on the objects whose member, if any, is one. -/
theorem valueInt_isSome {json : Json} {key : String} {default : Int} :
    (json.valueInt key default).isSome ↔ (∃ members, json = object members) ∧ json.NumberOrAbsent key := by
  cases json with
  | object members =>
      rw [NumberOrAbsent, member, valueInt]
      cases members.lookup key with
      | none => simp
      | some found => cases found <;> simp
  | _ => simp [valueInt]

/-- `get<std::string>()`; `none` when it throws. -/
def asString : Json → Option String
  | .string value => some value
  | _ => none

/-- `get<int64_t>()`; `none` when it throws. -/
def asInt : Json → Option Int
  | .integer value => some (value.bmod (2 ^ 64))
  | .float truncated => some truncated
  | _ => none

/-- The elements of an array member; a missing or other member counts as an
empty array. -/
def arrayMember (json : Json) (key : String) : List Json :=
  match json with
  | .object members =>
      match members.lookup key with
      | some (.array elements) => elements
      | _ => []
  | _ => []

/-- `json[key] = value` for a new key; an object keeps its keys in order. -/
def addMember (members : List (String × Json)) (key : String) (value : Json) : List (String × Json) :=
  members.takeWhile (fun entry => decide (entry.1 < key)) ++
    (key, value) :: members.dropWhile (fun entry => decide (entry.1 < key))

end Json

/-- The parser of JSON texts, which fails with the text of its exception, and
the writer. -/
structure JsonCodec where
  parse : String → Except String Json
  dump : Json → String

/-- A dumped value is parsed to an object with the same members. -/
def JsonCodec.Lossless (codec : JsonCodec) (json : Json) : Prop :=
  ∃ members, codec.parse (codec.dump json) = .ok (.object members) ∧ ∀ key, members.lookup key = json.member key

/-- The reads of a typed member agree on objects with the same members. -/
theorem Json.values_of_same_members {members : List (String × Json)} {json : Json} (isObject : ∃ own, json = .object own)
    (same : ∀ key, members.lookup key = json.member key) :
    (∀ key default, (Json.object members).valueString key default = json.valueString key default) ∧
      ∀ key default, (Json.object members).valueInt key default = json.valueInt key default := by
  obtain ⟨own, rfl⟩ := isObject
  constructor <;> intro key default
  · rw [valueString, valueString, same key]
    rfl
  · rw [valueInt, valueInt, same key]
    rfl

private def digitsValue (digits : List Char) : Nat :=
  digits.foldl (fun value digit => 10 * value + (digit.toNat - '0'.toNat)) 0

/-- `std::stoll`: leading blanks, a sign, then the longest run of digits; the
rest of the text is ignored.  It throws without a digit and outside `int64_t`. -/
def stoll (text : String) : Option Int :=
  let unpadded := text.toList.dropWhile
    (fun letter => letter = ' ' ∨ (9 ≤ letter.toNat ∧ letter.toNat ≤ 13))
  let (negative, unsigned) := match unpadded with
    | '-' :: rest => (true, rest)
    | '+' :: rest => (false, rest)
    | rest => (false, rest)
  let digits := unsigned.takeWhile Char.isDigit
  let value : Int := if negative then -(digitsValue digits : Int) else digitsValue digits
  if digits = [] ∨ value < -2 ^ 63 ∨ 2 ^ 63 ≤ value then none else some value

theorem stoll_range {text : String} {value : Int} (read : stoll text = some value) :
    -2 ^ 63 ≤ value ∧ value < 2 ^ 63 := by
  obtain ⟨inside, same⟩ := Option.ite_none_left_eq_some.mp read
  rw [Option.some.inj same, not_or, not_or] at inside
  omega

/-- A digit is neither a blank nor a sign. -/
private theorem digit_plain {letter : Char} (digit : letter.isDigit = true) :
    ¬ (letter = ' ' ∨ (9 ≤ letter.toNat ∧ letter.toNat ≤ 13)) ∧ letter ≠ '-' ∧ letter ≠ '+' := by
  have lower : 48 ≤ letter.toNat := by
    simp only [Char.isDigit, Bool.and_eq_true, decide_eq_true_eq] at digit
    exact digit.1
  have other : ∀ sign : Char, sign.toNat < 48 → letter ≠ sign := by
    intro sign below same
    rw [same] at lower
    omega
  refine ⟨?_, other '-' (by decide), other '+' (by decide)⟩
  intro blank
  rcases blank with space | ⟨_, upper⟩
  · exact other ' ' (by decide) space
  · omega

/-- A text of digits is read as the number that they are. -/
private theorem stoll_digits {text : String} (nonempty : text.toList ≠ [])
    (digits : ∀ letter ∈ text.toList, letter.isDigit = true)
    (bounded : (digitsValue text.toList : Int) < 2 ^ 63) :
    stoll text = some (digitsValue text.toList : Int) := by
  have all : text.toList.takeWhile Char.isDigit = text.toList :=
    List.takeWhile_eq_self_iff.mpr digits
  rw [stoll]
  generalize text.toList = letters at *
  cases letters with
  | nil => contradiction
  | cons first rest =>
      obtain ⟨blank, minus, plus⟩ := digit_plain (digits first List.mem_cons_self)
      have unpadded : (first :: rest).dropWhile
          (fun letter => decide (letter = ' ' ∨ (9 ≤ letter.toNat ∧ letter.toNat ≤ 13))) = first :: rest :=
        List.dropWhile_cons_of_neg (by simpa using blank)
      have unsigned : (match first :: rest with
          | '-' :: rest => (true, rest)
          | '+' :: rest => (false, rest)
          | rest => (false, rest)) = (false, first :: rest) := by
        split
        · rename_i same
          exact absurd (List.cons.inj same).1 minus
        · rename_i same
          exact absurd (List.cons.inj same).1 plus
        · rfl
      dsimp only
      rw [unpadded, unsigned]
      dsimp only
      rw [all, if_neg]
      · rfl
      · intro outside
        rcases outside with empty | low | high
        · cases empty
        · simp only [Bool.false_eq_true, if_false] at low
          omega
        · simp only [Bool.false_eq_true, if_false] at high
          omega

/-- An id that was written by `std::to_string` is read back. -/
theorem stoll_toString {value : Int} (lower : 0 ≤ value) (upper : value < 2 ^ 63) :
    stoll (toString value) = some value := by
  obtain ⟨number, rfl⟩ := Int.eq_ofNat_of_zero_le lower
  have chars : (toString (number : Int)).toList = Nat.toDigits 10 number := Nat.toList_repr
  have read : digitsValue (toString (number : Int)).toList = number := by
    rw [chars]
    exact Nat.ofDigitChars_ten_toDigits
  have nonempty : (toString (number : Int)).toList ≠ [] := by
    rw [chars]
    exact Nat.toDigits_ne_nil
  have digits : ∀ letter ∈ (toString (number : Int)).toList, letter.isDigit = true := by
    rw [chars]
    intro letter member
    exact Nat.isDigit_of_mem_toDigits (by decide) (by decide) member
  have bounded : (digitsValue (toString (number : Int)).toList : Int) < 2 ^ 63 := by
    rw [read]
    exact upper
  rw [stoll_digits nonempty digits bounded, read]

theorem ne_empty_of_stoll {text : String} {value : Int} (read : stoll text = some value) : text ≠ "" := by
  intro empty
  rw [empty] at read
  cases read

end MuduoIm.Data
