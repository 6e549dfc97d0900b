import MuduoIm.Data.JsonText

namespace MuduoIm.Common

open MuduoIm.Data MuduoIm.Data.JsonText

/-! # Structured log records

A record is one line of JSON.  A `std::string` is its bytes; read as a `char`, a
byte is signed.
-/

namespace LogJson

/-- What `gmtime_r` makes of the system clock, which counts nanoseconds in 64 bits
and so ends in the year 2262. -/
structure Tm where
  year : Fin 10000
  month : Fin 12
  day : Fin 32
  hour : Fin 24
  minute : Fin 60
  second : Fin 61
deriving DecidableEq, Repr

def digit (number : Nat) : UInt8 := byte '0' + (number % 10).toUInt8

def twoDigits (number : Nat) : Bytes := [digit (number / 10), digit number]

/-- The months of a `struct tm` count from zero. -/
def nowIso8601 (tm : Tm) : Bytes :=
  twoDigits (tm.year / 100) ++ twoDigits (tm.year % 100) ++ [byte '-'] ++ twoDigits (tm.month + 1) ++
    [byte '-'] ++ twoDigits tm.day ++ [byte 'T'] ++ twoDigits tm.hour ++ [byte ':'] ++ twoDigits tm.minute ++
    [byte ':'] ++ twoDigits tm.second ++ [byte 'Z']

def char (letter : Char) : Int8 := (byte letter).toInt8

/-- `\u%04x` of an `unsigned int`, as far as a buffer of the size holds it with its
terminator. -/
def snprintf (size : Nat) (value : UInt32) : Bytes :=
  (ascii "\\u" ++ ((Nat.toDigits 16 value.toNat).leftpad 4 '0').map byte).take (size - 1)

/-- One turn of the loop; what is widened to an `unsigned int` keeps its sign. -/
def escaped (c : Int8) : Bytes :=
  if c = char '"' then ascii "\\\""
  else if c = char '\\' then ascii "\\\\"
  else if c = char '\n' then ascii "\\n"
  else if c = char '\r' then ascii "\\r"
  else if c = char '\t' then ascii "\\t"
  else if c.toUInt8 < 0x20 then snprintf 8 c.toInt32.toUInt32
  else [c.toUInt8]

def escapeJson (s : Bytes) : Bytes := s.foldl (fun out c => out ++ escaped c.toInt8) []

/-- The levels that the macros log at. -/
inductive Level where
  | info
  | warn
  | error
deriving DecidableEq, Repr

def Level.text : Level → Bytes
  | .info => ascii "info"
  | .warn => ascii "warn"
  | .error => ascii "error"

/-- The record that is handed to the logger; `detail` is left out if it is empty. -/
def logKV (now : Tm) (levelText event detail : Bytes) : Bytes :=
  ascii "\x7b\"ts\":\"" ++ nowIso8601 now ++ ascii "\"," ++
    ascii "\"level\":\"" ++ levelText ++ ascii "\"," ++
    ascii "\"event\":\"" ++ escapeJson event ++ ascii "\"" ++
    (if detail = [] then [] else ascii ",\"detail\":\"" ++ escapeJson detail ++ ascii "\"") ++
    ascii "\x7d"

/-! ## Escapes -/

private theorem control_table : ∀ number < 32,
    let text := snprintf 8 number.toUInt8.toInt8.toInt32.toUInt32
    text = [backslash, byte 'u', text.getD 2 0, text.getD 3 0, text.getD 4 0, text.getD 5 0] ∧
      codeUnit (text.getD 2 0) (text.getD 3 0) (text.getD 4 0) (text.getD 5 0) = some number ∧
      ¬ High number ∧ ¬ Low number ∧ utf8 number = [number.toUInt8] := by
  decide +kernel

/-- A control character is written with its four digits, for the buffer is long enough. -/
theorem character_control {c : UInt8} (control : c < 0x20) :
    Character (snprintf 8 c.toInt8.toInt32.toUInt32) [c] := by
  have entry := control_table c.toNat (by simpa [UInt8.lt_iff_toNat_lt] using control)
  have same : c.toNat.toUInt8 = c := UInt8.ofNat_toNat
  rw [same] at entry
  obtain ⟨text, digits, notHigh, notLow, value⟩ := entry
  rw [text, ← value]
  exact .unit digits notHigh notLow

/-- Every byte is written as one whole character. -/
theorem character_escaped (c : UInt8) : Character (escaped c.toInt8) [c] := by
  have named {letter : Char} (same : c.toInt8 = char letter) : c = byte letter := by
    simpa [char] using congrArg Int8.toUInt8 same
  unfold escaped
  split_ifs with quoted slash newline carriage tab control
  · exact named quoted ▸ .short rfl
  · exact named slash ▸ .short rfl
  · exact named newline ▸ .short rfl
  · exact named carriage ▸ .short rfl
  · exact named tab ▸ .short rfl
  · exact character_control (by simpa using control)
  · rw [UInt8.toUInt8_toInt8] at control ⊢
    refine .plain (by simpa using control) (fun same => quoted ?_) (fun same => slash ?_) <;>
      exact congrArg UInt8.toInt8 same

theorem escapeJson_eq (s : Bytes) : escapeJson s = s.flatMap fun c => escaped c.toInt8 :=
  List.flatMap_eq_foldl.symm

/-- The text is a sequence of whole characters that stand for the bytes. -/
theorem body_escapeJson (s : Bytes) : Body (escapeJson s) s := by
  rw [escapeJson_eq]
  induction s with
  | nil => exact .nil
  | cons c rest ih => exact .cons (character_escaped c) ih

/-! ## Records -/

theorem digit_plain (number : Nat) : 0x20 ≤ digit number ∧ digit number ≠ quote ∧ digit number ≠ backslash := by
  have table : ∀ last < 10, 0x20 ≤ digit last ∧ digit last ≠ quote ∧ digit last ≠ backslash := by decide
  have same : digit number = digit (number % 10) := by rw [digit, digit, Nat.mod_mod]
  exact same ▸ table _ (Nat.mod_lt _ (by decide))

theorem body_nowIso8601 (now : Tm) : Body (nowIso8601 now) (nowIso8601 now) := by
  refine body_of_plain ?_
  have marks : ∀ c ∈ [byte '-', byte 'T', byte ':', byte 'Z'],
      0x20 ≤ c ∧ c ≠ quote ∧ c ≠ backslash := by decide +kernel
  simp only [List.forall_mem_cons] at marks
  simp [nowIso8601, twoDigits, digit_plain, marks]

theorem body_text (level : Level) : Body level.text level.text := by
  refine body_of_plain ?_
  cases level <;> decide +kernel

/-- A member under a name of the source. -/
def field (name : Bytes) (plain : ∀ c ∈ name, 0x20 ≤ c ∧ c ≠ quote ∧ c ≠ backslash) {body value : Bytes}
    (written : Body body value) : Field :=
  { name, body, value, nameWritten := body_of_plain plain, bodyWritten := written }

/-- The fields that a record is meant to have. -/
def fields (now : Tm) (level : Level) (event detail : Bytes) : List Field :=
  [field (ascii "ts") (by decide +kernel) (body_nowIso8601 now), field (ascii "level") (by decide +kernel) (body_text level),
    field (ascii "event") (by decide +kernel) (body_escapeJson event)] ++
  if detail = [] then [] else [field (ascii "detail") (by decide +kernel) (body_escapeJson detail)]

/-- What is assembled piece by piece is the object of the fields. -/
theorem logKV_eq (now : Tm) (level : Level) (event detail : Bytes) :
    logKV now level.text event detail = objectText (fields now level event detail) := by
  have opening : ascii "\x7b\"ts\":\"" = openBrace :: quote :: ascii "ts" ++ [quote, colon, quote] := by decide
  have levelName : ascii "\"level\":\"" = quote :: ascii "level" ++ [quote, colon, quote] := by decide
  have eventName : ascii "\"event\":\"" = quote :: ascii "event" ++ [quote, colon, quote] := by decide
  have detailName : ascii ",\"detail\":\"" = comma :: quote :: ascii "detail" ++ [quote, colon, quote] := by decide
  have next : ascii "\"," = [quote, comma] := by decide
  have last : ascii "\"" = [quote] := by decide
  have closing : ascii "\x7d" = [closeBrace] := by decide
  rw [logKV, opening, levelName, eventName, detailName, next, last, closing, objectText, fields]
  split_ifs <;> simp [membersText, Field.written, field]

/-- Escaping loses nothing, whatever the bytes, and a record is one line that is read as its
fields, whatever they say. -/
theorem logKV_lossless :
    (∀ s : Bytes, Body (escapeJson s) s ∧ (∀ c ∈ escapeJson s, 0x20 ≤ c) ∧ unescape (escapeJson s) = some s) ∧
    ∀ (now : Tm) (level : Level) (event detail : Bytes),
      (∀ c ∈ logKV now level.text event detail, 0x20 ≤ c) ∧
      parse (logKV now level.text event detail) = some (.object (
        [(ascii "ts", .string (nowIso8601 now)), (ascii "level", .string level.text), (ascii "event", .string event)] ++
        if detail = [] then [] else [(ascii "detail", .string detail)])) := by
  refine ⟨fun s => ⟨body_escapeJson s, (body_escapeJson s).printed, unescape_body (body_escapeJson s)⟩, ?_⟩
  intro now level event detail
  have filled : fields now level event detail ≠ [] := by simp [fields]
  rw [logKV_eq]
  refine ⟨objectText_printed _, ?_⟩
  rw [parse_objectText filled, fields]
  split_ifs <;> rfl

/-- Quotation marks, a backslash, a line end, a NUL and a byte above 127. -/
example : escapeJson (ascii "\"\\\n" ++ [0, 0xe9]) = ascii "\\\"\\\\\\n\\u0000" ++ [0xe9] := by decide

end LogJson

end MuduoIm.Common
