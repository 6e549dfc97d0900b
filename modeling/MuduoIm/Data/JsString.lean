import Mathlib.Data.List.Basic

namespace MuduoIm.Data.JsString

/-! # String literals of JavaScript

What a script reads between single quotes, outside of strict mode.  A text is put there
as it is, or with a backslash before its quotes; it is read as itself exactly if it has
no character that the literal takes otherwise.
-/

abbrev Text := List Char

/-- The units of UTF-16 that a character has. -/
def units (char : Char) : Nat := if char.toNat < 0x10000 then 1 else 2

/-- `substring(0, count)`.  Half of a pair of surrogates has no reading. -/
def substring (count : Nat) : Text → Option Text
  | [] => some []
  | char :: rest =>
      if count = 0 then some []
      else if count < units char then none
      else (substring (count - units char) rest).map (char :: ·)

def hexDigit (digit : Char) : Option Nat :=
  if '0' ≤ digit ∧ digit ≤ '9' then some (digit.toNat - 48)
  else if 'a' ≤ digit ∧ digit ≤ 'f' then some (digit.toNat - 87)
  else if 'A' ≤ digit ∧ digit ≤ 'F' then some (digit.toNat - 55)
  else none

def hexNumber (digits : Text) : Option Nat :=
  digits.foldlM (fun value digit => (hexDigit digit).map (16 * value + ·)) 0

/-- A lone surrogate has no reading. -/
def codePoint (code : Nat) : Option Char := if code.isValidChar then some (Char.ofNat code) else none

def octalDigit (digit : Char) : Bool := '0' ≤ digit && digit ≤ '7'

def octalNumber (digits : Text) : Nat := digits.foldl (fun value digit => 8 * value + (digit.toNat - 48)) 0

def singleEscape (kind : Char) : Char :=
  if kind = 'n' then '\n'
  else if kind = 't' then '\t'
  else if kind = 'r' then '\r'
  else if kind = 'b' then Char.ofNat 8
  else if kind = 'v' then Char.ofNat 11
  else if kind = 'f' then Char.ofNat 12
  else kind

/-- What a backslash and the text after it stand for, and how much of the text that takes. -/
def escapeSequence : Text → Option (Text × Nat)
  | [] => none
  | kind :: rest =>
      if kind = 'x' then
        if rest.length < 2 then none
        else ((hexNumber (rest.take 2)).bind codePoint).map fun char => ([char], 3)
      else if kind = 'u' then
        if rest.head? = some '{' then
          let digits := (rest.drop 1).takeWhile (· ≠ '}')
          if digits = [] ∨ rest.length < digits.length + 2 then none
          else ((hexNumber digits).bind codePoint).map fun char => ([char], digits.length + 3)
        else if rest.length < 4 then none
        else ((hexNumber (rest.take 4)).bind codePoint).map fun char => ([char], 5)
      else if octalDigit kind then
        let digits := kind :: (rest.take (if kind ≤ '3' then 2 else 1)).takeWhile octalDigit
        some ([Char.ofNat (octalNumber digits)], digits.length)
      -- the line goes on
      else if kind = '\r' then some ([], if rest.head? = some '\n' then 2 else 1)
      else if kind = '\n' ∨ kind = Char.ofNat 0x2028 ∨ kind = Char.ofNat 0x2029 then some ([], 1)
      else some ([singleEscape kind], 1)

/-- The value of a literal, from behind its first quote, and what follows its last one;
`skip` characters belong to the sequence before. -/
def readString (skip : Nat) : Text → Option (Text × Text)
  | [] => none
  | char :: rest =>
      match skip with
      | skip + 1 => readString skip rest
      | 0 =>
          if char = '\'' then some ([], rest)
          else if char = '\\' then
            (escapeSequence rest).bind fun sequence =>
              (readString sequence.2 rest).map fun read => (sequence.1 ++ read.1, read.2)
          else if char = '\n' ∨ char = '\r' then none
          else (readString 0 rest).map fun read => (char :: read.1, read.2)

/-- A text as it is put into a literal. -/
def written (protect : Bool) (text : Text) : Text :=
  text.flatMap fun char => if protect && char = '\'' then ['\\', '\''] else [char]

/-- The literal takes the character otherwise. -/
def breaks (protect : Bool) (char : Char) : Bool :=
  char = '\\' || char = '\n' || char = '\r' || (!protect && char = '\'')

variable {char : Char} {text rest value after produced : Text} {skip taken : Nat} {protect : Bool}

theorem escapeSequence_quote : escapeSequence ('\'' :: rest) = some (['\''], 1) := by
  have digit : octalDigit '\'' = false := by decide
  simp [escapeSequence, digit, singleEscape]

/-- A sequence stands for one character at most. -/
theorem escapeSequence_length (read : escapeSequence text = some (produced, taken)) :
    produced.length ≤ 1 ∧ 0 < taken := by
  cases text with
  | nil => cases read
  | cons kind rest =>
      simp only [escapeSequence] at read
      split at read
      · split at read
        · cases read
        · obtain ⟨char, _, same⟩ := Option.map_eq_some_iff.mp read
          cases same
          simp
      · split at read
        · split at read
          · split at read
            · cases read
            · obtain ⟨char, _, same⟩ := Option.map_eq_some_iff.mp read
              cases same
              simp
          · split at read
            · cases read
            · obtain ⟨char, _, same⟩ := Option.map_eq_some_iff.mp read
              cases same
              simp
        · split at read
          · cases read
            simp
          · split at read
            · cases read
              split <;> simp
            · split at read <;> cases read <;> simp

theorem readString_no_quote (quiet : '\'' ∉ text) : readString skip text = none := by
  induction text generalizing skip with
  | nil => rfl
  | cons char text ih =>
      rw [List.mem_cons, not_or] at quiet
      cases skip with
      | succ skip => exact ih quiet.2
      | zero =>
          simp only [readString, if_neg (Ne.symm quiet.1), ih quiet.2, Option.map_none]
          split
          · cases escapeSequence text <;> rfl
          · split <;> rfl

/-- A value is shorter than its literal. -/
theorem readString_length (read : readString skip text = some (value, after)) : value.length < text.length := by
  induction text generalizing skip value with
  | nil => cases read
  | cons char text ih =>
      rw [List.length_cons]
      cases skip with
      | succ skip =>
          have inner : readString skip text = some (value, after) := read
          exact Nat.lt_succ_of_lt (ih inner)
      | zero =>
          simp only [readString] at read
          split at read
          · cases read
            exact Nat.succ_pos _
          · split at read
            · obtain ⟨⟨produced, taken⟩, sequence, read⟩ := Option.bind_eq_some_iff.mp read
              obtain ⟨inner, readInner, same⟩ := Option.map_eq_some_iff.mp read
              cases same
              have few := (escapeSequence_length sequence).1
              have shorter := ih readInner
              simp only [List.length_append]
              omega
            · split at read
              · cases read
              · obtain ⟨inner, readInner, same⟩ := Option.map_eq_some_iff.mp read
                cases same
                exact Nat.succ_lt_succ (ih readInner)

theorem written_cons : written protect (char :: rest) =
    (if protect && char = '\'' then ['\\', '\''] else [char]) ++ written protect rest := List.flatMap_cons

theorem readString_protected : readString 0 ('\\' :: '\'' :: rest) =
    (readString 0 rest).map fun read => ('\'' :: read.1, read.2) := by
  simp [readString, escapeSequence_quote]

theorem readString_ordinary (quote : char ≠ '\'') (backslash : char ≠ '\\') (newline : char ≠ '\n')
    (carriage : char ≠ '\r') :
    readString 0 (char :: rest) = (readString 0 rest).map fun read => (char :: read.1, read.2) := by
  simp [readString, quote, backslash, newline, carriage]

theorem readString_written (safe : ∀ char ∈ text, breaks protect char = false) :
    readString 0 (written protect text ++ '\'' :: rest) = some (text, rest) := by
  induction text with
  | nil => simp [written, readString]
  | cons char text ih =>
      have later := ih fun other member => safe other (List.mem_cons_of_mem _ member)
      have here := safe char List.mem_cons_self
      simp only [breaks, Bool.or_eq_false_iff, decide_eq_false_iff_not] at here
      obtain ⟨⟨⟨backslash, newline⟩, carriage⟩, open_quote⟩ := here
      rw [written_cons]
      by_cases quote : char = '\''
      · have covered : protect = true := by simpa [quote] using open_quote
        rw [if_pos (by simp [covered, quote]), List.append_assoc]
        simp [readString_protected, later, quote]
      · rw [if_neg (by simp [quote]), List.append_assoc, List.singleton_append,
          readString_ordinary quote backslash newline carriage, later]
        rfl

/-- A character that does not break the text leaves the break to the others. -/
theorem broken_tail (sound : breaks protect char = false)
    (broken : ∃ other ∈ char :: text, breaks protect other = true) : ∃ other ∈ text, breaks protect other = true := by
  obtain ⟨other, member, breaking⟩ := broken
  obtain rfl | later := List.mem_cons.mp member
  · rw [sound] at breaking
    cases breaking
  · exact ⟨other, later, breaking⟩

/-- A text that is read is not longer than the one that was put there, and shorter if
its first character is skipped or a character breaks it. -/
theorem readString_written_length (quiet : '\'' ∉ rest)
    (read : readString skip (written protect text ++ '\'' :: rest) = some (value, after)) :
    value.length ≤ text.length ∧ (0 < skip → value.length < text.length) ∧
      (skip = 0 → (∃ char ∈ text, breaks protect char = true) → value.length < text.length) := by
  induction text generalizing skip value with
  | nil =>
      cases skip with
      | succ skip =>
          have unread : readString skip rest = none := readString_no_quote quiet
          have skipped : readString skip rest = some (value, after) := read
          rw [unread] at skipped
          cases skipped
      | zero =>
          cases read
          simp
  | cons char text ih =>
      rw [written_cons] at read
      by_cases covered : (protect && char = '\'') = true
      · rw [if_pos covered] at read
        obtain ⟨protected_, quote⟩ : protect = true ∧ char = '\'' := by simpa using covered
        have sound : breaks protect char = false := by
          rw [protected_, quote]
          decide
        match skip with
        | 0 =>
            rw [List.append_assoc, List.cons_append, List.singleton_append, readString_protected] at read
            obtain ⟨inner, readInner, same⟩ := Option.map_eq_some_iff.mp read
            cases same
            obtain ⟨within, _, shorter⟩ := ih readInner
            refine ⟨Nat.succ_le_succ within, fun positive => absurd positive (Nat.lt_irrefl _), fun _ broken => ?_⟩
            exact Nat.succ_lt_succ (shorter rfl (broken_tail sound broken))
        | 1 =>
            cases read
            simp
        | skip + 2 =>
            have inner : readString skip (written protect text ++ '\'' :: rest) = some (value, after) := read
            have within := (ih inner).1
            simp only [List.length_cons]
            omega
      · rw [if_neg covered, List.append_assoc, List.singleton_append] at read
        match skip with
        | skip + 1 =>
            have inner : readString skip (written protect text ++ '\'' :: rest) = some (value, after) := read
            have within := (ih inner).1
            simp only [List.length_cons]
            omega
        | 0 =>
            simp only [readString] at read
            split at read
            · cases read
              simp
            · split at read
              · obtain ⟨⟨produced, taken⟩, sequence, read⟩ := Option.bind_eq_some_iff.mp read
                obtain ⟨inner, readInner, same⟩ := Option.map_eq_some_iff.mp read
                cases same
                obtain ⟨few, positive⟩ := escapeSequence_length sequence
                have shorter := (ih readInner).2.1 positive
                simp only [List.length_append, List.length_cons]
                omega
              · split at read
                · cases read
                · rename_i quote backslash newline
                  obtain ⟨inner, readInner, same⟩ := Option.map_eq_some_iff.mp read
                  cases same
                  obtain ⟨within, _, shorter⟩ := ih readInner
                  refine ⟨Nat.succ_le_succ within, fun positive => absurd positive (Nat.lt_irrefl _), fun _ broken => ?_⟩
                  have sound : breaks protect char = false := by
                    rw [not_or] at newline
                    simp [breaks, quote, backslash, newline]
                  exact Nat.succ_lt_succ (shorter rfl (broken_tail sound broken))

/-- What is read as no shorter is read as it was put there. -/
theorem eq_of_readString_written (quiet : '\'' ∉ rest) (long : text.length ≤ value.length)
    (read : readString 0 (written protect text ++ '\'' :: rest) = some (value, after)) :
    value = text ∧ ∀ char ∈ text, breaks protect char = false := by
  have safe (char : Char) (member : char ∈ text) : breaks protect char = false := by
    by_contra broken
    rw [Bool.not_eq_false] at broken
    exact Nat.not_lt_of_le long ((readString_written_length quiet read).2.2 rfl ⟨char, member, broken⟩)
  rw [readString_written safe] at read
  cases read
  exact ⟨rfl, safe⟩

end MuduoIm.Data.JsString
