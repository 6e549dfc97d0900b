import MuduoIm.Data.Base64

namespace MuduoIm.Data.JsonText

/-! # JSON texts, byte by byte

The grammar of JSON over bytes.  Whether a string is UTF-8 is not asked, and a
number is kept as its text.
-/

inductive Value where
  | null
  | boolean (value : Bool)
  | number (text : Bytes)
  | string (text : Bytes)
  | array (elements : List Value)
  | object (members : List (Bytes × Value))

def quote : UInt8 := byte '"'

def backslash : UInt8 := byte '\\'

/-! ## Strings -/

def hexDigit (digit : UInt8) : Option Nat :=
  if byte '0' ≤ digit ∧ digit ≤ byte '9' then some (digit.toNat - 48)
  else if byte 'a' ≤ digit ∧ digit ≤ byte 'f' then some (digit.toNat - 87)
  else if byte 'A' ≤ digit ∧ digit ≤ byte 'F' then some (digit.toNat - 55)
  else none

def codeUnit (first second third fourth : UInt8) : Option Nat := do
  let first ← hexDigit first
  let second ← hexDigit second
  let third ← hexDigit third
  let fourth ← hexDigit fourth
  some (((first * 16 + second) * 16 + third) * 16 + fourth)

/-- What the character after a backslash stands for; `u` is not among them. -/
def shortEscape (kind : UInt8) : Option UInt8 :=
  if kind = quote ∨ kind = backslash ∨ kind = byte '/' then some kind
  else if kind = byte 'b' then some 8
  else if kind = byte 'f' then some 12
  else if kind = byte 'n' then some 10
  else if kind = byte 'r' then some 13
  else if kind = byte 't' then some 9
  else none

def utf8 (code : Nat) : Bytes :=
  if code < 0x80 then [code.toUInt8]
  else if code < 0x800 then [(0xc0 + code / 64).toUInt8, (0x80 + code % 64).toUInt8]
  else if code < 0x10000 then
    [(0xe0 + code / 4096).toUInt8, (0x80 + code / 64 % 64).toUInt8, (0x80 + code % 64).toUInt8]
  else
    [(0xf0 + code / 262144).toUInt8, (0x80 + code / 4096 % 64).toUInt8, (0x80 + code / 64 % 64).toUInt8,
      (0x80 + code % 64).toUInt8]

def High (unit : Nat) : Prop := 0xd800 ≤ unit ∧ unit < 0xdc00

def Low (unit : Nat) : Prop := 0xdc00 ≤ unit ∧ unit < 0xe000

instance (unit : Nat) : Decidable (High unit) := inferInstanceAs (Decidable (_ ∧ _))

instance (unit : Nat) : Decidable (Low unit) := inferInstanceAs (Decidable (_ ∧ _))

/-- The code point of a pair of surrogates. -/
def paired (high low : Nat) : Nat := 0x10000 + (high - 0xd800) * 0x400 + (low - 0xdc00)

def takeUnit : Bytes → Option (Nat × Bytes)
  | lead :: letter :: first :: second :: third :: fourth :: rest =>
      if lead = backslash ∧ letter = byte 'u' then
        (codeUnit first second third fourth).map fun unit => (unit, rest)
      else none
  | _ => none

/-- The bytes that the first character of a string stands for, and what is after it. -/
def takeCharacter (text : Bytes) : Option (Bytes × Bytes) :=
  match takeUnit text with
  | some (unit, rest) =>
      if High unit then
        match takeUnit rest with
        | some (low, rest) => if Low low then some (utf8 (paired unit low), rest) else none
        | none => none
      else if Low unit then none
      else some (utf8 unit, rest)
  | none =>
      match text with
      | c :: rest =>
          if c = backslash then
            match rest with
            | kind :: rest => (shortEscape kind).map fun value => ([value], rest)
            | [] => none
          else if 0x20 ≤ c ∧ c ≠ quote then some ([c], rest)
          else none
      | [] => none

def parseCharacters : Nat → Bytes → Option (Bytes × Bytes)
  | 0, _ => none
  | _ + 1, [] => none
  | fuel + 1, c :: rest =>
      if c = quote then some ([], rest)
      else
        match takeCharacter (c :: rest) with
        | some (value, rest) =>
            (parseCharacters fuel rest).map fun result => (value ++ result.1, result.2)
        | none => none

/-- Reads on from the opening quotation mark: the value of the string, and what
is after the closing one. -/
def parseString (text : Bytes) : Option (Bytes × Bytes) := parseCharacters (text.length + 1) text

/-- Undoes the escapes of a whole text; none where a quotation mark is not
escaped or an escape is not complete. -/
def unescape (text : Bytes) : Option Bytes :=
  match parseString (text ++ [quote]) with
  | some (value, []) => some value
  | _ => none

/-- One character of a string, as it is written, and the bytes that it stands for. -/
inductive Character : Bytes → Bytes → Prop where
  | plain {c : UInt8} (printed : 0x20 ≤ c) (unquoted : c ≠ quote) (unescaped : c ≠ backslash) :
      Character [c] [c]
  | short {kind value : UInt8} (known : shortEscape kind = some value) : Character [backslash, kind] [value]
  | unit {first second third fourth : UInt8} {unit : Nat} (digits : codeUnit first second third fourth = some unit)
      (notHigh : ¬ High unit) (notLow : ¬ Low unit) :
      Character [backslash, byte 'u', first, second, third, fourth] (utf8 unit)
  | pair {first second third fourth fifth sixth seventh eighth : UInt8} {high low : Nat}
      (digits : codeUnit first second third fourth = some high) (isHigh : High high)
      (lowDigits : codeUnit fifth sixth seventh eighth = some low) (isLow : Low low) :
      Character [backslash, byte 'u', first, second, third, fourth,
        backslash, byte 'u', fifth, sixth, seventh, eighth] (utf8 (paired high low))

/-- A sequence of whole characters: every quotation mark in it is escaped, and no
escape is broken off. -/
inductive Body : Bytes → Bytes → Prop where
  | nil : Body [] []
  | cons {text value more rest : Bytes} (character : Character text value) (body : Body more rest) :
      Body (text ++ more) (value ++ rest)

variable {text value more rest : Bytes}

theorem takeCharacter_character (character : Character text value) (rest : Bytes) :
    takeCharacter (text ++ rest) = some (value, rest) := by
  cases character with
  | @plain c printed unquoted unescaped =>
      have whole : takeUnit (c :: rest) = none := by
        unfold takeUnit
        split
        · next same =>
            injection same with same
            rw [if_neg fun both => unescaped (same.trans both.1)]
        · rfl
      simp [takeCharacter, whole, unescaped, unquoted, printed]
  | @short kind value known =>
      have notUnit : kind ≠ byte 'u' := by
        intro same
        rw [same] at known
        contradiction
      have whole : takeUnit (backslash :: kind :: rest) = none := by
        unfold takeUnit
        split
        · next same =>
            injection same with _ same
            injection same with same
            rw [if_neg fun both => notUnit (same.trans both.2)]
        · rfl
      simp [takeCharacter, whole, known]
  | unit digits notHigh notLow => simp [takeCharacter, takeUnit, digits, notHigh, notLow]
  | pair digits isHigh lowDigits isLow => simp [takeCharacter, takeUnit, digits, isHigh, lowDigits, isLow]

/-- A character begins with a byte that is no quotation mark. -/
theorem Character.head (character : Character text value) : ∃ c more, text = c :: more ∧ c ≠ quote := by
  cases character with
  | plain printed unquoted unescaped => exact ⟨_, [], rfl, unquoted⟩
  | short known => exact ⟨_, _, rfl, by decide⟩
  | unit digits notHigh notLow => exact ⟨_, _, rfl, by decide⟩
  | pair digits isHigh lowDigits isLow => exact ⟨_, _, rfl, by decide⟩

theorem parseCharacters_body (body : Body text value) (rest : Bytes) {fuel : Nat} (enough : text.length < fuel) :
    parseCharacters fuel (text ++ quote :: rest) = some (value, rest) := by
  induction body generalizing fuel with
  | nil =>
      obtain ⟨fuel, rfl⟩ := Nat.exists_eq_succ_of_ne_zero (Nat.ne_of_gt enough)
      simp [parseCharacters]
  | @cons first firstValue more moreValue character body ih =>
      obtain ⟨fuel, rfl⟩ := Nat.exists_eq_succ_of_ne_zero (Nat.ne_of_gt (Nat.zero_lt_of_lt enough))
      have taken := takeCharacter_character character (more ++ quote :: rest)
      obtain ⟨c, others, rfl, unquoted⟩ := character.head
      rw [List.length_append, List.length_cons] at enough
      rw [List.append_assoc, List.cons_append, parseCharacters, if_neg unquoted]
      rw [List.cons_append] at taken
      have read := @ih fuel (by omega)
      simp only [taken, read, Option.map_some]

theorem parseString_body (body : Body text value) (rest : Bytes) :
    parseString (text ++ quote :: rest) = some (value, rest) :=
  parseCharacters_body body rest (by rw [List.length_append]; omega)

theorem unescape_body (body : Body text value) : unescape text = some value := by
  rw [unescape, parseString_body body]

theorem hexDigit_printed {digit : UInt8} {number : Nat} (read : hexDigit digit = some number) : 0x20 ≤ digit := by
  have lower : (0x20 : UInt8) ≤ byte '0' ∧ (0x20 : UInt8) ≤ byte 'a' ∧ (0x20 : UInt8) ≤ byte 'A' := by decide
  rw [hexDigit] at read
  split at read
  · next within => exact UInt8.le_trans lower.1 within.1
  split at read
  · next within => exact UInt8.le_trans lower.2.1 within.1
  split at read
  · next within => exact UInt8.le_trans lower.2.2 within.1
  · contradiction

theorem codeUnit_printed {first second third fourth : UInt8} {unit : Nat}
    (digits : codeUnit first second third fourth = some unit) :
    ∀ c ∈ [first, second, third, fourth], 0x20 ≤ c := by
  simp only [codeUnit, Option.bind_eq_bind, Option.bind_eq_some_iff] at digits
  obtain ⟨_, firstRead, _, secondRead, _, thirdRead, _, fourthRead, _⟩ := digits
  simp only [List.forall_mem_cons, List.not_mem_nil, false_implies, implies_true, and_true]
  exact ⟨hexDigit_printed firstRead, hexDigit_printed secondRead, hexDigit_printed thirdRead,
    hexDigit_printed fourthRead⟩

theorem shortEscape_printed {kind value : UInt8} (known : shortEscape kind = some value) : 0x20 ≤ kind := by
  rw [shortEscape] at known
  split at known
  · next same => rcases same with rfl | rfl | rfl <;> decide
  iterate 5
    split at known
    · next same =>
        subst same
        decide
  contradiction

theorem Character.printed (character : Character text value) : ∀ c ∈ text, 0x20 ≤ c := by
  have ends : (0x20 : UInt8) ≤ backslash ∧ (0x20 : UInt8) ≤ byte 'u' := by decide
  cases character with
  | plain printed unquoted unescaped => simpa using printed
  | short known => simpa [ends] using shortEscape_printed known
  | unit digits notHigh notLow => simpa [ends] using codeUnit_printed digits
  | pair digits isHigh lowDigits isLow =>
      have first := codeUnit_printed digits
      have last := codeUnit_printed lowDigits
      simp only [List.forall_mem_cons] at first last ⊢
      simp [ends, first, last]

/-- No byte of a body is a control character. -/
theorem Body.printed (body : Body text value) : ∀ c ∈ text, 0x20 ≤ c := by
  induction body with
  | nil => simp
  | cons character body ih =>
      intro c member
      rcases List.mem_append.mp member with first | later
      · exact character.printed c first
      · exact ih c later

/-! ## Values -/

def skipSpace (text : Bytes) : Bytes := text.dropWhile fun c => c = 0x20 ∨ c = 0x09 ∨ c = 0x0a ∨ c = 0x0d

def comma : UInt8 := byte ','

def colon : UInt8 := byte ':'

def openBrace : UInt8 := byte '\x7b'

def closeBrace : UInt8 := byte '\x7d'

def isDigit (c : UInt8) : Bool := decide (byte '0' ≤ c ∧ c ≤ byte '9')

/-- At least one digit. -/
def takeDigits (text : Bytes) : Option (Bytes × Bytes) :=
  if text.takeWhile isDigit = [] then none else some (text.takeWhile isDigit, text.dropWhile isDigit)

/-- A part that is written or left out: a leading symbol with what it leads to. -/
def takeOptional (lead : UInt8 → Bool) (part : Bytes → Option (Bytes × Bytes)) : Bytes → Option (Bytes × Bytes)
  | [] => some ([], [])
  | c :: rest =>
      if lead c then (part rest).map fun taken => (c :: taken.1, taken.2) else some ([], c :: rest)

/-- Without a zero before other digits. -/
def takeInteger (text : Bytes) : Option (Bytes × Bytes) :=
  match text with
  | c :: rest => if c = byte '0' then some ([c], rest) else takeDigits text
  | [] => none

def parseNumber (text : Bytes) : Option (Value × Bytes) := do
  let (sign, rest) ← takeOptional (· = byte '-') (fun rest => some ([], rest)) text
  let (integer, rest) ← takeInteger rest
  let (fraction, rest) ← takeOptional (· = byte '.') takeDigits rest
  let (exponent, rest) ← takeOptional (fun c => c = byte 'e' ∨ c = byte 'E')
    (fun rest => do
      let (sign, rest) ← takeOptional (fun c => c = byte '+' ∨ c = byte '-') (fun rest => some ([], rest)) rest
      let (digits, rest) ← takeDigits rest
      some (sign ++ digits, rest)) rest
  some (.number (sign ++ integer ++ fraction ++ exponent), rest)

def parseLiteral (text : Bytes) : Option (Value × Bytes) :=
  let literals := [(ascii "null", Value.null), (ascii "true", .boolean true), (ascii "false", .boolean false)]
  (literals.find? fun literal => literal.1.isPrefixOf text).map
    fun literal => (literal.2, text.drop literal.1.length)

/-- The name of a member, up to its colon. -/
def parseKey (text : Bytes) : Option (Bytes × Bytes) :=
  match skipSpace text with
  | [] => none
  | c :: rest =>
      if c = quote then do
        let (key, rest) ← parseString rest
        match skipSpace rest with
        | [] => none
        | d :: rest => if d = colon then some (key, rest) else none
      else none

mutual

/-- The fuel bounds the nesting and the number of elements. -/
def parseValue : Nat → Bytes → Option (Value × Bytes)
  | 0, _ => none
  | fuel + 1, text =>
      match skipSpace text with
      | [] => none
      | c :: rest =>
          if c = quote then (parseString rest).map fun parsed => (.string parsed.1, parsed.2)
          else if c = openBrace then
            if (skipSpace rest).head? = some closeBrace then some (.object [], (skipSpace rest).tail)
            else (parseMembers fuel rest).map fun parsed => (.object parsed.1, parsed.2)
          else if c = byte '[' then
            if (skipSpace rest).head? = some (byte ']') then some (.array [], (skipSpace rest).tail)
            else (parseElements fuel rest).map fun parsed => (.array parsed.1, parsed.2)
          else (parseLiteral (c :: rest)).or (parseNumber (c :: rest))

def parseMembers : Nat → Bytes → Option (List (Bytes × Value) × Bytes)
  | 0, _ => none
  | fuel + 1, text => do
      let (key, rest) ← parseKey text
      let (value, rest) ← parseValue fuel rest
      match skipSpace rest with
      | [] => none
      | c :: rest =>
          if c = comma then (parseMembers fuel rest).map fun parsed => ((key, value) :: parsed.1, parsed.2)
          else if c = closeBrace then some ([(key, value)], rest)
          else none

def parseElements : Nat → Bytes → Option (List Value × Bytes)
  | 0, _ => none
  | fuel + 1, text => do
      let (value, rest) ← parseValue fuel text
      match skipSpace rest with
      | [] => none
      | c :: rest =>
          if c = comma then (parseElements fuel rest).map fun parsed => (value :: parsed.1, parsed.2)
          else if c = byte ']' then some ([value], rest)
          else none

end

/-- The value of a whole text. -/
def parse (text : Bytes) : Option Value :=
  match parseValue (text.length + 1) text with
  | some (value, rest) => if skipSpace rest = [] then some value else none
  | none => none

/-! ## Objects of strings -/

/-- A member with a string for its value: both as they are written and as they are read. -/
structure Field where
  name : Bytes
  body : Bytes
  value : Bytes
  nameWritten : Body name name
  bodyWritten : Body body value

namespace Field

def written (field : Field) : Bytes := quote :: field.name ++ [quote, colon, quote] ++ field.body ++ [quote]

def member (field : Field) : Bytes × Value := (field.name, .string field.value)

end Field

def membersText : List Field → Bytes
  | [] => []
  | [field] => field.written
  | field :: rest => field.written ++ comma :: membersText rest

/-- An object, written without spaces. -/
def objectText (fields : List Field) : Bytes := openBrace :: membersText fields ++ [closeBrace]

variable {field : Field} {fields : List Field} {fuel : Nat}

theorem parseKey_body (body : Body text value) (rest : Bytes) :
    parseKey (quote :: (text ++ quote :: colon :: rest)) = some (value, rest) := by
  have spaced : skipSpace (quote :: (text ++ quote :: colon :: rest)) = quote :: (text ++ quote :: colon :: rest) := rfl
  have colonNext : skipSpace (colon :: rest) = colon :: rest := rfl
  simp [parseKey, spaced, parseString_body body, colonNext]

theorem parseValue_body (body : Body text value) (rest : Bytes) :
    parseValue (fuel + 1) (quote :: (text ++ quote :: rest)) = some (.string value, rest) := by
  have spaced : skipSpace (quote :: (text ++ quote :: rest)) = quote :: (text ++ quote :: rest) := rfl
  simp [parseValue, spaced, parseString_body body]

theorem parseMembers_field (field : Field) (rest : Bytes) (c : UInt8) (visible : skipSpace (c :: rest) = c :: rest) :
    parseMembers (fuel + 2) (field.written ++ c :: rest) =
      if c = comma then
        (parseMembers (fuel + 1) rest).map fun parsed => (field.member :: parsed.1, parsed.2)
      else if c = closeBrace then some ([field.member], rest) else none := by
  have split : field.written ++ c :: rest =
      quote :: (field.name ++ quote :: colon :: (quote :: (field.body ++ quote :: c :: rest))) := by
    simp [Field.written]
  rw [split, parseMembers, parseKey_body field.nameWritten]
  simp only [Option.bind_eq_bind, Option.bind_some, parseValue_body field.bodyWritten, visible]
  rfl

theorem parseMembers_fields (filled : fields ≠ []) (enough : fields.length < fuel) (rest : Bytes) :
    parseMembers fuel (membersText fields ++ closeBrace :: rest) = some (fields.map Field.member, rest) := by
  induction fields using membersText.induct generalizing fuel with
  | case1 => exact absurd rfl filled
  | case2 field =>
      obtain ⟨fuel, rfl⟩ : ∃ more, fuel = more + 2 := ⟨fuel - 2, by simp at enough; omega⟩
      rw [membersText, parseMembers_field field rest closeBrace rfl, if_neg (by decide), if_pos rfl]
      rfl
  | case3 field others more ih =>
      obtain ⟨fuel, rfl⟩ : ∃ more, fuel = more + 2 := ⟨fuel - 2, by simp at enough; omega⟩
      have read := @ih (fuel + 1) more (by simpa using enough)
      rw [membersText.eq_3 field others more, List.append_assoc, List.cons_append,
        parseMembers_field field _ comma rfl, if_pos rfl, read]
      rfl

theorem length_le_membersText (fields : List Field) : fields.length ≤ (membersText fields).length := by
  induction fields using membersText.induct with
  | case1 => exact Nat.zero_le _
  | case2 field => simp [membersText, Field.written]
  | case3 field others more ih =>
      rw [membersText.eq_3 field others more, List.length_append, List.length_cons, List.length_cons]
      omega

/-- The first member begins the text. -/
theorem membersText_head (filled : fields ≠ []) : ∃ tail, membersText fields = quote :: tail := by
  cases fields using membersText.fun_cases with
  | case1 => exact absurd rfl filled
  | case2 field => exact ⟨_, rfl⟩
  | case3 field others more =>
      rw [membersText.eq_3 field others more]
      exact ⟨_, rfl⟩

/-- The text of an object is read as the object. -/
theorem parse_objectText (filled : fields ≠ []) :
    parse (objectText fields) = some (.object (fields.map Field.member)) := by
  have enough : fields.length < (objectText fields).length := by
    have length := length_le_membersText fields
    simp only [objectText, List.length_cons, List.length_append]
    omega
  have read := parseMembers_fields filled enough []
  obtain ⟨tail, starts⟩ := membersText_head filled
  have spaced : skipSpace (objectText fields) = openBrace :: (membersText fields ++ [closeBrace]) := rfl
  have notClosed : (skipSpace (membersText fields ++ [closeBrace])).head? ≠ some closeBrace := by
    rw [starts]
    change some quote ≠ some closeBrace
    decide
  rw [parse, parseValue, spaced]
  simp only [show openBrace ≠ quote by decide, if_false, if_true, notClosed, read, Option.map_some]
  rfl

theorem Field.written_printed (field : Field) : ∀ c ∈ field.written, 0x20 ≤ c := by
  have marks : (0x20 : UInt8) ≤ quote ∧ (0x20 : UInt8) ≤ colon := by decide
  simp only [Field.written, List.forall_mem_append, List.forall_mem_cons, List.not_mem_nil, false_implies,
    implies_true, and_true]
  exact ⟨⟨⟨⟨marks.1, field.nameWritten.printed⟩, marks.1, marks.2, marks.1⟩, field.bodyWritten.printed⟩, marks.1⟩

/-- The object is on one line. -/
theorem objectText_printed (fields : List Field) : ∀ c ∈ objectText fields, 0x20 ≤ c := by
  have members : ∀ c ∈ membersText fields, 0x20 ≤ c := by
    induction fields using membersText.induct with
    | case1 => exact fun c member => absurd member List.not_mem_nil
    | case2 field => exact field.written_printed
    | case3 field others more ih =>
        rw [membersText.eq_3 field others more, List.forall_mem_append, List.forall_mem_cons]
        exact ⟨field.written_printed, by decide, ih⟩
  rw [objectText, List.cons_append, List.forall_mem_cons, List.forall_mem_append, List.forall_mem_singleton]
  exact ⟨by decide, members, by decide⟩

/-- A text without quotation marks, backslashes and control characters is written as it is. -/
theorem body_of_plain (plain : ∀ c ∈ text, 0x20 ≤ c ∧ c ≠ quote ∧ c ≠ backslash) : Body text text := by
  induction text with
  | nil => exact .nil
  | cons c rest ih =>
      obtain ⟨⟨printed, unquoted, unescaped⟩, others⟩ := List.forall_mem_cons.mp plain
      exact .cons (.plain printed unquoted unescaped) (ih others)

end MuduoIm.Data.JsonText
