import Mathlib.Data.List.Basic

namespace MuduoIm.Data.Html

/-! # Texts in HTML

How a browser writes a text node, and what it reads from characters, references to
characters and `span` elements.  Other markup, and references other than those that
are written, have no reading here.  Two kinds of characters do not survive: a carriage
return is read as a line feed, and a null character is left out of a text and replaced
in an attribute.
-/

abbrev Text := List Char

def nonBreakingSpace : Char := Char.ofNat 0xa0

def null : Char := Char.ofNat 0

def replacement : Char := Char.ofNat 0xfffd

def replaced (char : Char) : Char := if char = null then replacement else char

/-- The ends of lines in what is read, before anything else: a carriage return and the
line feed behind it are one line feed. -/
def newlines (returned : Bool) : Text → Text
  | [] => []
  | char :: rest =>
      if char = '\r' then '\n' :: newlines true rest
      else if returned = true ∧ char = '\n' then newlines false rest
      else char :: newlines false rest

/-- The characters that a text node is not written with, and what stands for them. -/
def references : List (Char × Text) :=
  [('&', "amp".toList), (nonBreakingSpace, "nbsp".toList), ('<', "lt".toList), ('>', "gt".toList)]

def referenceName (char : Char) : Option Text := (references.find? fun entry => entry.1 = char).map (·.2)

def named (name : Text) : Option Char :=
  ((('"', "quot".toList) :: references).find? fun entry => entry.2 = name).map (·.1)

def escapeChar (char : Char) : Text :=
  match referenceName char with
  | some name => '&' :: (name ++ [';'])
  | none => [char]

/-- `innerHTML` of an element with this text. -/
def escape (text : Text) : Text := text.flatMap escapeChar

inductive Node where
  | character (char : Char)
  | span (attributes content : Text)
deriving DecidableEq

def Node.text : Node → Text
  | .character char => [char]
  | .span _ content => content

/-- The text that is shown. -/
def shown (nodes : List Node) : Text := nodes.flatMap Node.text

/-- What the reader is in. -/
inductive Mode where
  | data
  | reference (name : Text)
  | tag (text : Text)
deriving DecidableEq

def spanTag (text : Text) : Option Text :=
  if text.take 5 = "span ".toList then some (text.drop 5) else none

/-- `within` is the `span` that is open, with what it has so far. -/
def parse (within : Option (Text × Text)) (mode : Mode) : Text → Option (List Node)
  | [] => if within = none ∧ mode = .data then some [] else none
  | char :: rest =>
      match mode with
      | .data =>
          if char = '<' then parse within (.tag []) rest
          else if char = '&' then parse within (.reference []) rest
          else
            match within with
            | none => (parse none .data rest).map (.character char :: ·)
            | some (attributes, content) => parse (some (attributes, content ++ [char])) .data rest
      | .reference name =>
          if char = ';' then
            (named name).bind fun char =>
              match within with
              | none => (parse none .data rest).map (.character char :: ·)
              | some (attributes, content) => parse (some (attributes, content ++ [char])) .data rest
          else parse within (.reference (name ++ [char])) rest
      | .tag text =>
          if char = '>' then
            match within with
            | none => (spanTag text).bind fun attributes => parse (some (attributes, [])) .data rest
            | some (attributes, content) =>
                if text = "/span".toList then (parse none .data rest).map (.span attributes content :: ·)
                else none
          else parse within (.tag (text ++ [char])) rest

/-- The tree has no null characters. -/
def Node.built : Node → List Node
  | .character char => if char = null then [] else [.character char]
  | .span attributes content => [.span (attributes.map replaced) (content.filter (· ≠ null))]

/-- What a browser makes of the html of an element. -/
def readHtml (html : Text) : Option (List Node) :=
  (parse none .data (newlines false html)).map fun nodes => nodes.flatMap Node.built

/-- The characters that the text between the quotes of an attribute stands for. -/
def decode (reference : Option Text) : Text → Option Text
  | [] => if reference = none then some [] else none
  | char :: rest =>
      match reference with
      | none =>
          if char = '&' then decode (some []) rest
          else (decode none rest).map (char :: ·)
      | some name =>
          if char = ';' then (named name).bind fun char => (decode none rest).map (char :: ·)
          else decode (some (name ++ [char])) rest

/-- The value of an attribute, from behind its first quote, and what follows its last one.
Behind a quote the ends of lines are those of the value alone. -/
def readAttribute (html : Text) : Option (Text × Text) :=
  (decode none (newlines false (html.takeWhile (· ≠ '"')))).map fun value =>
    (value.map replaced, html.dropWhile (· ≠ '"') |>.drop 1)

/-- A text from an attribute in which it was written escaped. -/
def received (text : Text) : Text := (newlines false text).map replaced

variable {char : Char} {name text rest attributes content value : Text} {within : Option (Text × Text)}

/-! ## References -/

theorem mem_references (written : referenceName char = some name) : (char, name) ∈ references := by
  obtain ⟨entry, found, rfl⟩ := Option.map_eq_some_iff.mp written
  have same : entry.1 = char := by simpa using List.find?_some found
  rw [← same]
  exact List.mem_of_find?_eq_some found

theorem named_of_referenceName (written : referenceName char = some name) : named name = some char := by
  have known : ∀ entry ∈ references, named entry.2 = some entry.1 := by decide
  exact known _ (mem_references written)

/-- A reference has an ordinary name. -/
theorem referenceName_letters (written : referenceName char = some name) (letter : Char) (member : letter ∈ name) :
    letter.isAlpha = true := by
  have known : (references.all fun entry => entry.2.all Char.isAlpha) = true := by decide
  exact List.all_eq_true.mp (List.all_eq_true.mp known _ (mem_references written)) letter member

theorem ne_of_isAlpha {other : Char} (letter : char.isAlpha = true) (sign : other.isAlpha = false) : char ≠ other := by
  intro same
  rw [same, sign] at letter
  cases letter

theorem plain_of_referenceName (plain : referenceName char = none) : char ≠ '&' ∧ char ≠ '<' ∧ char ≠ '>' := by
  refine ⟨?_, ?_, ?_⟩ <;> intro same <;> rw [same] at plain <;> exact absurd plain (by decide)

@[simp] theorem escape_nil : escape [] = [] := rfl

@[simp] theorem escape_cons : escape (char :: rest) = escapeChar char ++ escape rest := List.flatMap_cons

@[simp] theorem escape_append : escape (text ++ rest) = escape text ++ escape rest := List.flatMap_append

theorem escapeChar_plain (plain : referenceName char = none) : escapeChar char = [char] := by
  rw [escapeChar, plain]

theorem escape_plain (plain : ∀ char ∈ text, referenceName char = none) : escape text = text := by
  induction text with
  | nil => rfl
  | cons char rest ih =>
      rw [escape_cons, escapeChar_plain (plain char List.mem_cons_self),
        ih fun other member => plain other (List.mem_cons_of_mem _ member)]
      rfl

/-! ## Ends of lines and null characters -/

theorem newlines_cons_other {returned : Bool} (feed : char ≠ '\n') (carriage : char ≠ '\r') :
    newlines returned (char :: rest) = char :: newlines false rest := by
  simp [newlines, feed, carriage]

theorem newlines_cons_false (carriage : char ≠ '\r') :
    newlines false (char :: rest) = char :: newlines false rest := by
  simp [newlines, carriage]

theorem newlines_cons_carriage {returned : Bool} :
    newlines returned ('\r' :: rest) = '\n' :: newlines true rest := by
  simp [newlines]

/-- Behind other characters the ends of lines start anew. -/
theorem newlines_append_other {returned : Bool} (some_character : text ≠ [])
    (others : ∀ char ∈ text, char ≠ '\n' ∧ char ≠ '\r') :
    newlines returned (text ++ rest) = text ++ newlines false rest := by
  induction text generalizing returned with
  | nil => exact absurd rfl some_character
  | cons char text ih =>
      obtain ⟨feed, carriage⟩ := others char List.mem_cons_self
      rw [List.cons_append, newlines_cons_other feed carriage]
      by_cases last : text = []
      · rw [last]
        rfl
      · rw [ih last fun other member => others other (List.mem_cons_of_mem _ member)]
        rfl

theorem newlines_append_cons {returned : Bool} (feed : char ≠ '\n') (carriage : char ≠ '\r') :
    newlines returned (text ++ char :: rest) = newlines returned text ++ char :: newlines false rest := by
  induction text generalizing returned with
  | nil => exact newlines_cons_other feed carriage
  | cons first text ih =>
      rw [List.cons_append]
      simp only [newlines, ih]
      split
      · rfl
      · split <;> rfl

theorem carriage_notMem_newlines {returned : Bool} : '\r' ∉ newlines returned text := by
  induction text generalizing returned with
  | nil => exact List.not_mem_nil
  | cons char text ih =>
      rw [newlines]
      split
      · exact List.not_mem_cons_of_ne_of_not_mem (by decide) ih
      · rename_i other
        split
        · exact ih
        · exact List.not_mem_cons_of_ne_of_not_mem (Ne.symm other) ih

theorem mem_of_mem_newlines {returned : Bool} (feed : char ≠ '\n') (member : char ∈ newlines returned text) :
    char ∈ text := by
  induction text generalizing returned with
  | nil => exact member
  | cons first text ih =>
      rw [newlines] at member
      split at member
      · exact List.mem_cons_of_mem _ (ih (List.mem_of_ne_of_mem feed member))
      · split at member
        · exact List.mem_cons_of_mem _ (ih member)
        · obtain here | later := List.mem_cons.mp member
          · rw [here]
            exact List.mem_cons_self
          · exact List.mem_cons_of_mem _ (ih later)

theorem newlines_of_notMem (none : '\r' ∉ text) : newlines false text = text := by
  induction text with
  | nil => rfl
  | cons char text ih =>
      rw [List.mem_cons, not_or] at none
      rw [newlines_cons_false (Ne.symm none.1), ih none.2]

theorem newlines_length {returned : Bool} : (newlines returned text).length ≤ text.length := by
  induction text generalizing returned with
  | nil => exact Nat.le_refl _
  | cons char text ih =>
      rw [newlines, List.length_cons]
      split
      · exact Nat.succ_le_succ ih
      · split
        · exact Nat.le_succ_of_le ih
        · exact Nat.succ_le_succ ih

/-- What leaves the ends of lines alone and writes no others can be done first. -/
theorem newlines_flatMap {returned : Bool} {write : Char → Text} (feed : write '\n' = ['\n'])
    (carriage : write '\r' = ['\r'])
    (others : ∀ char, char ≠ '\n' → char ≠ '\r' →
      write char ≠ [] ∧ ∀ letter ∈ write char, letter ≠ '\n' ∧ letter ≠ '\r') (text : Text) :
    newlines returned (text.flatMap write) = (newlines returned text).flatMap write := by
  induction text generalizing returned with
  | nil => rfl
  | cons char text ih =>
      rw [List.flatMap_cons]
      by_cases isCarriage : char = '\r'
      · subst isCarriage
        rw [carriage, List.singleton_append, newlines_cons_carriage, newlines_cons_carriage, List.flatMap_cons,
          feed, ih]
        rfl
      · by_cases isFeed : char = '\n'
        · subst isFeed
          rw [feed, List.singleton_append]
          cases returned with
          | false =>
              rw [newlines_cons_false isCarriage, newlines_cons_false isCarriage, List.flatMap_cons, feed, ih]
              rfl
          | true => simpa [newlines] using ih
        · obtain ⟨some_character, quiet⟩ := others char isFeed isCarriage
          rw [newlines_append_other some_character quiet, newlines_cons_other isFeed isCarriage, List.flatMap_cons, ih]

theorem escapeChar_lines (feed : char ≠ '\n') (carriage : char ≠ '\r') :
    escapeChar char ≠ [] ∧ ∀ letter ∈ escapeChar char, letter ≠ '\n' ∧ letter ≠ '\r' := by
  have known : (references.all fun entry => ('&' :: (entry.2 ++ [';'])).all fun letter =>
      letter ≠ '\n' && letter ≠ '\r') = true := by decide
  cases reference : referenceName char with
  | none => simp [escapeChar_plain reference, feed, carriage]
  | some name =>
      have letters := List.all_eq_true.mp (List.all_eq_true.mp known _ (mem_references reference))
      have same : escapeChar char = '&' :: (name ++ [';']) := by rw [escapeChar, reference]
      rw [same]
      exact ⟨List.cons_ne_nil _ _, fun letter member => by simpa using letters letter member⟩

theorem newlines_escape {returned : Bool} : newlines returned (escape text) = escape (newlines returned text) :=
  newlines_flatMap rfl rfl (fun _ => escapeChar_lines) text

theorem escape_lines (others : ∀ char ∈ text, char ≠ '\n' ∧ char ≠ '\r') (letter : Char)
    (member : letter ∈ escape text) : letter ≠ '\n' ∧ letter ≠ '\r' := by
  obtain ⟨char, present, found⟩ := List.mem_flatMap.mp member
  obtain ⟨feed, carriage⟩ := others char present
  exact (escapeChar_lines feed carriage).2 letter found

theorem received_length : (received text).length ≤ text.length := by
  rw [received, List.length_map]
  exact newlines_length

theorem map_replaced (none : null ∉ text) : text.map replaced = text := by
  induction text with
  | nil => rfl
  | cons char text ih =>
      rw [List.mem_cons, not_or] at none
      rw [List.map_cons, ih none.2, replaced, if_neg (Ne.symm none.1)]

/-- A text is received as it is exactly if it has none of the two. -/
theorem received_eq_iff : received text = text ↔ null ∉ text ∧ '\r' ∉ text := by
  constructor
  · intro same
    have character (char : Char) : replaced char ≠ null ∧ (replaced char = '\r' → char = '\r') := by
      unfold replaced
      split
      · exact ⟨by decide, fun same => absurd same (by decide)⟩
      · rename_i other
        exact ⟨other, id⟩
    constructor <;> intro member <;> rw [← same] at member <;> obtain ⟨char, found, result⟩ := List.mem_map.mp member
    · exact (character char).1 result
    · rw [(character char).2 result] at found
      exact carriage_notMem_newlines found
  · intro ⟨noNull, noCarriage⟩
    rw [received, newlines_of_notMem noCarriage, map_replaced noNull]

/-! ## Reading what was written -/

/-- A character goes to where the reader is. -/
def put (within : Option (Text × Text)) (char : Char) (rest : Text) : Option (List Node) :=
  match within with
  | none => (parse none .data rest).map (.character char :: ·)
  | some (attributes, content) => parse (some (attributes, content ++ [char])) .data rest

theorem parse_plain (markup : char ≠ '<') (reference : char ≠ '&') :
    parse within .data (char :: rest) = put within char rest := by
  cases within <;> simp [parse, put, markup, reference]

theorem parse_reference (letters : ∀ letter ∈ text, letter ≠ ';') :
    parse within (.reference name) (text ++ ';' :: rest) =
      (named (name ++ text)).bind fun char => put within char rest := by
  induction text generalizing name with
  | nil => cases within <;> simp [parse, put]
  | cons letter text ih =>
      have other := letters letter List.mem_cons_self
      rw [List.cons_append]
      conv => lhs; unfold parse
      simp only [other, if_false]
      rw [ih fun later member => letters later (List.mem_cons_of_mem _ member)]
      simp

theorem parse_escapeChar : parse within .data (escapeChar char ++ rest) = put within char rest := by
  cases written : referenceName char with
  | none =>
      obtain ⟨reference, markup, _⟩ := plain_of_referenceName written
      rw [escapeChar_plain written]
      exact parse_plain markup reference
  | some name =>
      have letters (letter : Char) (member : letter ∈ name) : letter ≠ ';' :=
        ne_of_isAlpha (referenceName_letters written letter member) (by decide)
      have begun : parse within .data (escapeChar char ++ rest) =
          parse within (.reference []) (name ++ ';' :: rest) := by
        rw [escapeChar, written]
        simp [parse]
      rw [begun, parse_reference letters, List.nil_append, named_of_referenceName written]
      rfl

theorem parse_escape (text rest : Text) :
    parse none .data (escape text ++ rest) = (parse none .data rest).map (text.map .character ++ ·) := by
  induction text with
  | nil => simp
  | cons char text ih =>
      rw [escape_cons, List.append_assoc, parse_escapeChar, put, ih]
      simp [Function.comp_def]

theorem parse_escape_within : parse (some (attributes, content)) .data (escape text ++ rest) =
    parse (some (attributes, content ++ text)) .data rest := by
  induction text generalizing content with
  | nil => simp
  | cons char text ih =>
      rw [escape_cons, List.append_assoc, parse_escapeChar, put, ih]
      simp

theorem parse_tag {tag : Text} (inside : ∀ char ∈ text, char ≠ '>') :
    parse within (.tag tag) (text ++ '>' :: rest) = parse within (.tag (tag ++ text)) ('>' :: rest) := by
  induction text generalizing tag with
  | nil => simp
  | cons char text ih =>
      have other := inside char List.mem_cons_self
      rw [List.cons_append]
      conv => lhs; unfold parse
      simp only [other, if_false]
      rw [ih fun later member => inside later (List.mem_cons_of_mem _ member)]
      simp

/-- A `span` with a text. -/
def spanOf (attributes text : Text) : Text :=
  '<' :: ("span ".toList ++ attributes ++ '>' :: (escape text ++ '<' :: ("/span".toList ++ ['>'])))

theorem parse_spanOf (inside : ∀ char ∈ attributes, char ≠ '>') :
    parse none .data (spanOf attributes text ++ rest) =
      (parse none .data rest).map (.span attributes text :: ·) := by
  have name : ∀ char ∈ "span ".toList, char ≠ '>' := by simp
  have tag (char : Char) (member : char ∈ "span ".toList ++ attributes) : char ≠ '>' :=
    (List.mem_append.mp member).elim (name char) (inside char)
  have opens (after : Text) : parse none .data ('<' :: ("span ".toList ++ attributes ++ '>' :: after)) =
      parse (some (attributes, [])) .data after := by
    have begun : parse none .data ('<' :: ("span ".toList ++ attributes ++ '>' :: after)) =
        parse none (.tag []) ("span ".toList ++ attributes ++ '>' :: after) := by
      conv => lhs; unfold parse
      simp
    rw [begun, parse_tag tag]
    simp [parse, spanTag]
  have closes : parse (some (attributes, text)) .data ('<' :: ("/span".toList ++ '>' :: rest)) =
      (parse none .data rest).map (.span attributes text :: ·) := by
    simp [parse]
  have same : spanOf attributes text ++ rest = '<' :: ("span ".toList ++ attributes ++ '>' ::
      (escape text ++ '<' :: ("/span".toList ++ '>' :: rest))) := by
    simp [spanOf]
  rw [same, opens, parse_escape_within, List.nil_append, closes]

/-! ## Attributes -/

theorem decode_reference (letters : ∀ letter ∈ text, letter ≠ ';') :
    decode (some name) (text ++ ';' :: rest) =
      (named (name ++ text)).bind fun char => (decode none rest).map (char :: ·) := by
  induction text generalizing name with
  | nil => simp [decode]
  | cons letter text ih =>
      have other := letters letter List.mem_cons_self
      rw [List.cons_append]
      conv => lhs; unfold decode
      simp only [other, if_false]
      rw [ih fun later member => letters later (List.mem_cons_of_mem _ member)]
      simp

theorem decode_escapeChar : decode none (escapeChar char ++ rest) = (decode none rest).map (char :: ·) := by
  cases written : referenceName char with
  | none =>
      have reference := (plain_of_referenceName written).1
      rw [escapeChar_plain written]
      simp [decode, reference]
  | some name =>
      have letters (letter : Char) (member : letter ∈ name) : letter ≠ ';' :=
        ne_of_isAlpha (referenceName_letters written letter member) (by decide)
      have begun : decode none (escapeChar char ++ rest) = decode (some []) (name ++ ';' :: rest) := by
        rw [escapeChar, written]
        simp [decode]
      rw [begun, decode_reference letters, List.nil_append, named_of_referenceName written]
      rfl

theorem decode_escape (text rest : Text) : decode none (escape text ++ rest) = (decode none rest).map (text ++ ·) := by
  induction text with
  | nil => simp
  | cons char text ih =>
      rw [escape_cons, List.append_assoc, decode_escapeChar, ih]
      simp [Function.comp_def]

theorem escapeChar_no_quote (other : char ≠ '"') : '"' ∉ escapeChar char := by
  cases written : referenceName char with
  | none => simpa [escapeChar_plain written] using Ne.symm other
  | some name =>
      have letters (member : '"' ∈ name) : False := by
        have letter := referenceName_letters written '"' member
        cases letter
      simpa [escapeChar, written] using letters

theorem escape_no_quote (others : '"' ∉ text) : '"' ∉ escape text := by
  intro member
  obtain ⟨char, present, found⟩ := List.mem_flatMap.mp member
  refine escapeChar_no_quote (fun same => others ?_) found
  rw [← same]
  exact present

theorem readAttribute_eq (inside : '"' ∉ text) (decoded : decode none (newlines false text) = some value) :
    readAttribute (text ++ '"' :: rest) = some (value.map replaced, rest) := by
  have kept : ∀ char ∈ text, decide (char ≠ '"') = true := by
    intro char member
    exact decide_eq_true fun same => inside (same ▸ member)
  rw [readAttribute, List.takeWhile_append_of_pos kept, List.dropWhile_append_of_pos kept]
  simp [decoded]

theorem decode_escape_end : decode none (escape text) = some text := by
  have all := decode_escape text []
  simpa [decode] using all

theorem readAttribute_escape (inside : '"' ∉ text) :
    readAttribute (escape text ++ '"' :: rest) = some (received text, rest) := by
  have decoded : decode none (newlines false (escape text)) = some (newlines false text) := by
    rw [newlines_escape, decode_escape_end]
  exact readAttribute_eq (escape_no_quote inside) decoded

/-- The first quote of the text ends the value. -/
theorem readAttribute_cut {before : Text} (text rest : Text) (inside : '"' ∉ before) :
    readAttribute (escape (before ++ '"' :: text) ++ rest) = some (received before, escape text ++ rest) := by
  have first : escapeChar '"' = ['"'] := by decide
  have split : escape (before ++ '"' :: text) ++ rest = escape before ++ '"' :: (escape text ++ rest) := by
    simp [escape, first]
  rw [split]
  exact readAttribute_escape inside

end MuduoIm.Data.Html
