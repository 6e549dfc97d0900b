import MuduoIm.Data.Html

namespace MuduoIm.Web.Mentions

open MuduoIm.Data.Html

/-! # Mentions in a message

The page looks for names after an `@` twice: in the text that the user sends, to tell
whom it mentions, and in the escaped text that it shows, to highlight them.
-/

structure Member where
  userId : Int
  username : Text
  nickname : Text
deriving DecidableEq

def Member.called (member : Member) (name : Text) : Bool :=
  member.username = name || member.nickname = name

/-- `\s` of a regular expression. -/
def whitespace (char : Char) : Bool :=
  (9 ≤ char.toNat && char.toNat ≤ 13) || (0x2000 ≤ char.toNat && char.toNat ≤ 0x200a) ||
    [0x20, 0xa0, 0x1680, 0x2028, 0x2029, 0x202f, 0x205f, 0x3000, 0xfeff].contains char.toNat

def separators : Text :=
  ",，。！？!?:;：；、()（）[]【】\"'".toList

def endsName (char : Char) : Bool := whitespace char || separators.contains char

/-- The parts of a text: a match of the expression, with its name, or a character
between two of them. -/
inductive Piece where
  | other (char : Char)
  | mention (name : Text)
deriving DecidableEq

def flush (name : Text) : List Piece := if name = [] then [.other '@'] else [.mention name]

/-- `pending` is what follows an `@` so far. -/
def pieces (pending : Option Text) : Text → List Piece
  | [] => pending.elim [] flush
  | char :: rest =>
      match pending with
      | none => if char = '@' then pieces (some []) rest else .other char :: pieces none rest
      | some name =>
          if endsName char then flush name ++ .other char :: pieces none rest
          else pieces (some (name ++ [char])) rest

def Piece.name? : Piece → Option Text
  | .other _ => none
  | .mention name => some name

def names (text : Text) : List Text := (pieces none text).filterMap Piece.name?

/-- `class="mention-tag"` -/
def mentionTag : Text :=
  "class=\"mention-tag\"".toList

def known (members : List Member) (name : Text) : Bool := members.any (·.called name)

def Piece.highlight (members : List Member) : Piece → Text
  | .other char => [char]
  | .mention name => if known members name then spanOf mentionTag ('@' :: name) else '@' :: name

/-- `members` is what the page has of the group, and nothing in a private chat. -/
def renderContentWithMentions (content : Text) (members : Option (List Member)) : Text :=
  match members with
  | none => escape content
  | some members => (pieces none (escape content)).flatMap (Piece.highlight members)

/-- The first of the others with the name. -/
def mentioned (userId : Int) (members : List Member) (name : Text) : Option Int :=
  (members.find? fun member => member.userId ≠ userId && member.called name).map (·.userId)

def parseMentions (text : Text) (userId : Int) (members : List Member) : List Int :=
  ((names text).filterMap (mentioned userId members)).eraseDups

/-! ## What is shown -/

def plain (text : Text) : List Node := text.map .character

def closed (members : List Member) (name : Text) : List Node :=
  if name ≠ [] ∧ known members name = true then [.span mentionTag ('@' :: name)] else plain ('@' :: name)

/-- What is shown, from the content itself.  A character that is written as a reference
ends a name, with the reference but its semicolon in it. -/
def view (members : List Member) (pending : Option Text) : Text → List Node
  | [] => pending.elim [] (closed members)
  | char :: rest =>
      match pending with
      | none => if char = '@' then view members (some []) rest else .character char :: view members none rest
      | some name =>
          match referenceName char with
          | some reference =>
              (if known members (name ++ '&' :: reference) then
                [.span mentionTag ('@' :: (name ++ '&' :: reference)), .character ';']
              else plain ('@' :: (name ++ [char]))) ++ view members none rest
          | none =>
              if endsName char then closed members name ++ .character char :: view members none rest
              else view members (some (name ++ [char])) rest

variable {members : List Member} {content text rest name after : Text} {char : Char} {pending : Option Text}

theorem parse_text (rest : Text) (written : ∀ char ∈ text, referenceName char = none) :
    parse none .data (text ++ rest) = (parse none .data rest).map (plain text ++ ·) := by
  have same := parse_escape text rest
  rwa [escape_plain written] at same

theorem mentionTag_inside (char : Char) (member : char ∈ mentionTag) : char ≠ '>' := by
  have known : (mentionTag.all (· ≠ '>')) = true := by decide
  exact of_decide_eq_true (List.all_eq_true.mp known char member)

theorem pieces_reference (name rest : Text) (letters : ∀ letter ∈ text, endsName letter = false) :
    pieces (some name) (text ++ ';' :: rest) = flush (name ++ text) ++ .other ';' :: pieces none rest := by
  have ends : endsName ';' = true := by decide
  induction text generalizing name with
  | nil => simp [pieces, ends]
  | cons letter text ih =>
      have other := letters letter List.mem_cons_self
      rw [List.cons_append, pieces, other]
      rw [if_neg Bool.false_ne_true, ih _ fun later member => letters later (List.mem_cons_of_mem _ member)]
      simp

theorem pieces_none (others : ∀ char ∈ text, char ≠ '@') :
    pieces none (text ++ rest) = text.map .other ++ pieces none rest := by
  induction text with
  | nil => rfl
  | cons char text ih =>
      rw [List.cons_append, pieces, if_neg (others char List.mem_cons_self),
        ih fun later member => others later (List.mem_cons_of_mem _ member)]
      rfl

/-- A reference ends the name, before its semicolon. -/
theorem pieces_escapeChar {entity : Text} (reference : referenceName char = some entity) :
    pieces (some name) (escapeChar char ++ rest) =
      .mention (name ++ '&' :: entity) :: .other ';' :: pieces none rest := by
  have ampersand : endsName '&' = false := by decide
  have known : (references.all fun entry => entry.2.all fun letter => !endsName letter) = true := by decide
  have letters (letter : Char) (member : letter ∈ entity) : endsName letter = false := by
    have ordinary := List.all_eq_true.mp (List.all_eq_true.mp known _ (mem_references reference)) letter member
    simpa using ordinary
  have ended := pieces_reference (name ++ ['&']) rest letters
  rw [List.append_assoc, List.singleton_append, flush, if_neg (by simp)] at ended
  rw [escapeChar, reference]
  simpa [pieces, ampersand] using ended

theorem highlight_others : (text.map Piece.other).flatMap (Piece.highlight members) = text := by
  induction text with
  | nil => rfl
  | cons char text ih =>
      rw [List.map_cons, List.flatMap_cons, ih]
      rfl

theorem ne_at_of_reference (written : referenceName char = some name) : char ≠ '@' := by
  intro same
  subst same
  cases written

theorem ne_at_of_mem_escapeChar (written : referenceName char = some name) (letter : Char)
    (member : letter ∈ escapeChar char) : letter ≠ '@' := by
  have known : (references.all fun entry => ('&' :: (entry.2 ++ [';'])).all (· ≠ '@')) = true := by decide
  have letters := List.all_eq_true.mp (List.all_eq_true.mp known _ (mem_references written)) letter
  rw [escapeChar, written] at member
  exact of_decide_eq_true (letters member)

theorem parse_closed (members : List Member) (rest : Text) (written : ∀ char ∈ name, referenceName char = none) :
    parse none .data ((flush name).flatMap (Piece.highlight members) ++ rest) =
      (parse none .data rest).map (closed members name ++ ·) := by
  have at_plain : ∀ char ∈ '@' :: name, referenceName char = none :=
    List.forall_mem_cons.mpr ⟨by decide, written⟩
  unfold flush closed
  by_cases empty : name = []
  · subst empty
    simpa [Piece.highlight] using parse_text rest at_plain
  · by_cases found : known members name = true
    · simp only [if_neg empty, List.flatMap_cons, List.flatMap_nil, List.append_nil, Piece.highlight, if_pos found]
      rw [parse_spanOf mentionTag_inside, if_pos ⟨empty, found⟩]
      rfl
    · simp only [if_neg empty, List.flatMap_cons, List.flatMap_nil, List.append_nil, Piece.highlight, if_neg found]
      rw [parse_text _ at_plain, if_neg fun both => found both.2]

/-- The browser reads what the view says. -/
theorem parse_view (written : ∀ name, pending = some name → ∀ char ∈ name, referenceName char = none) :
    parse none .data ((pieces pending (escape content)).flatMap (Piece.highlight members)) =
      some (view members pending content) := by
  induction content generalizing pending with
  | nil =>
      cases pending with
      | none => rfl
      | some name =>
          have closes := parse_closed members [] (written name rfl)
          rw [List.append_nil] at closes
          rw [escape_nil]
          refine closes.trans ?_
          simp [parse, view]
  | cons char content ih =>
      have rest : parse none .data ((pieces none (escape content)).flatMap (Piece.highlight members)) =
          some (view members none content) := ih fun name absent => by cases absent
      rw [escape_cons]
      cases pending with
      | none =>
          cases reference : referenceName char with
          | none =>
              rw [escapeChar_plain reference]
              by_cases begins : char = '@'
              · subst begins
                have next : parse none .data ((pieces (some []) (escape content)).flatMap (Piece.highlight members)) =
                    some (view members (some []) content) := ih fun name same => by
                  cases same
                  exact fun _ member => by cases member
                refine next.trans ?_
                simp [view]
              · obtain ⟨notReference, markup, _⟩ := plain_of_referenceName reference
                rw [pieces_none (by simpa using begins), List.flatMap_append, highlight_others, List.singleton_append,
                  parse_plain markup notReference, put, rest, view, if_neg begins]
                rfl
          | some entity =>
              have others := ne_at_of_mem_escapeChar reference
              rw [pieces_none others, List.flatMap_append, highlight_others, parse_escapeChar, put, rest, view,
                if_neg (ne_at_of_reference reference)]
              rfl
      | some name =>
          have before := written name rfl
          cases reference : referenceName char with
          | none =>
              rw [escapeChar_plain reference, List.singleton_append, pieces, view, reference]
              by_cases ends : endsName char = true
              · obtain ⟨notReference, markup, _⟩ := plain_of_referenceName reference
                simp only [if_pos ends, List.flatMap_append, List.flatMap_cons]
                rw [parse_closed _ _ before, Piece.highlight, List.singleton_append, parse_plain markup notReference,
                  put, rest]
                rfl
              · simp only [if_neg ends]
                refine ih fun longer same => ?_
                cases same
                exact List.forall_mem_append.mpr ⟨before, by simpa using reference⟩
          | some entity =>
              rw [pieces_escapeChar reference, view, reference]
              simp only [List.flatMap_cons, Piece.highlight]
              by_cases found : known members (name ++ '&' :: entity) = true
              · rw [if_pos found, if_pos found, parse_spanOf mentionTag_inside, List.singleton_append,
                  parse_plain (by decide) (by decide), put, rest]
                rfl
              · have same : '@' :: (name ++ '&' :: entity) ++ ([';'] ++ (pieces none (escape content)).flatMap
                    (Piece.highlight members)) = ('@' :: name) ++ (escapeChar char ++
                      (pieces none (escape content)).flatMap (Piece.highlight members)) := by
                  simp [escapeChar, reference]
                rw [if_neg found, if_neg found, same, parse_text _ (List.forall_mem_cons.mpr ⟨by decide, before⟩),
                  parse_escapeChar, put, rest]
                simp [plain]


/-! ## Which names, and whether the text stays -/

def Node.highlighted? : Node → Option Text
  | .character _ => none
  | .span _ content => some content

/-- The highlighted texts. -/
def highlighted (nodes : List Node) : List Text := nodes.filterMap Node.highlighted?

@[simp] theorem highlighted_nil : highlighted [] = [] := rfl

@[simp] theorem highlighted_plain : highlighted (plain text) = [] := by
  simp [highlighted, plain, Node.highlighted?]

@[simp] theorem highlighted_append (first second : List Node) :
    highlighted (first ++ second) = highlighted first ++ highlighted second := List.filterMap_append

@[simp] theorem highlighted_character (nodes : List Node) :
    highlighted (.character char :: nodes) = highlighted nodes := rfl

@[simp] theorem highlighted_span (nodes : List Node) {attributes : Text} :
    highlighted (.span attributes text :: nodes) = text :: highlighted nodes := rfl

/-- The highlighted texts for pieces. -/
def marked (members : List Member) (pieces : List Piece) : List Text :=
  ((pieces.filterMap Piece.name?).filter (known members)).map ('@' :: ·)

@[simp] theorem marked_other (rest : List Piece) : marked members (.other char :: rest) = marked members rest := rfl

theorem marked_mention (rest : List Piece) : marked members (.mention name :: rest) =
    (if known members name then ['@' :: name] else []) ++ marked members rest := by
  unfold marked
  by_cases found : known members name = true <;> simp [Piece.name?, found]

theorem marked_flush (members : List Member) (name : Text) (rest : List Piece) : marked members (flush name ++ rest) =
    highlighted (closed members name) ++ marked members rest := by
  unfold flush closed
  by_cases empty : name = []
  · subst empty
    simp
  · by_cases found : known members name = true <;>
      simp [empty, found, marked_mention, highlighted, Node.highlighted?, plain]

theorem highlighted_view :
    highlighted (view members pending content) = marked members (pieces pending (escape content)) := by
  induction content generalizing pending with
  | nil =>
      cases pending with
      | none => rfl
      | some name =>
          have flushed := marked_flush members name []
          simp only [List.append_nil] at flushed
          simpa [view, pieces, marked] using flushed.symm
  | cons char content ih =>
      rw [escape_cons]
      cases pending with
      | none =>
          cases reference : referenceName char with
          | none =>
              rw [escapeChar_plain reference, view, List.singleton_append, pieces]
              by_cases begins : char = '@' <;> simp [begins, ih]
          | some entity =>
              rw [pieces_none (ne_at_of_mem_escapeChar reference), view, if_neg (ne_at_of_reference reference)]
              simp [ih, marked, Piece.name?, Function.comp_def]
      | some name =>
          cases reference : referenceName char with
          | none =>
              rw [escapeChar_plain reference, view, List.singleton_append, pieces, reference]
              by_cases ends : endsName char = true <;> simp [ends, ih, marked_flush]
          | some entity =>
              rw [pieces_escapeChar reference, view, reference, marked_mention]
              by_cases found : known members (name ++ '&' :: entity) = true <;> simp [found, ih]

theorem tag_of_mem_view {attributes : Text} (member : .span attributes text ∈ view members pending content) :
    attributes = mentionTag := by
  have of_closed {name : Text} (member : .span attributes text ∈ closed members name) : attributes = mentionTag := by
    unfold closed at member
    split at member
    · have same := List.mem_singleton.mp member
      cases same
      rfl
    · simp [plain] at member
  induction content generalizing pending with
  | nil =>
      cases pending with
      | none => cases member
      | some name => exact of_closed member
  | cons char content ih =>
      cases pending with
      | none =>
          rw [view] at member
          split at member
          · exact ih member
          · exact ih (by simpa using member)
      | some name =>
          rw [view] at member
          split at member
          · obtain first | later := List.mem_append.mp member
            · split at first
              · simp at first
                exact first.1
              · simp [plain] at first
            · exact ih later
          · split at member
            · obtain first | later := List.mem_append.mp member
              · exact of_closed first
              · exact ih (by simpa using later)
            · exact ih member

def said (pending : Option Text) : Text := pending.elim [] ('@' :: ·)

@[simp] theorem shown_plain : shown (plain text) = text := by
  simp [shown, plain, Node.text, List.flatMap_map]

@[simp] theorem shown_nil : shown [] = [] := rfl

@[simp] theorem shown_append (first second : List Node) : shown (first ++ second) = shown first ++ shown second :=
  List.flatMap_append

@[simp] theorem shown_character (nodes : List Node) : shown (.character char :: nodes) = char :: shown nodes := rfl

@[simp] theorem shown_span (nodes : List Node) {attributes : Text} :
    shown (.span attributes text :: nodes) = text ++ shown nodes := rfl

@[simp] theorem shown_closed : shown (closed members name) = '@' :: name := by
  unfold closed
  split
  · simp [shown, Node.text]
  · exact shown_plain

theorem mem_highlighted_closed (member : text ∈ highlighted (closed members name)) : text = '@' :: name := by
  unfold closed at member
  split at member
  · simpa [highlighted, Node.highlighted?] using member
  · rw [highlighted_plain] at member
    cases member

/-- What is shown is the content, unless a name that ends with a reference is
highlighted; that one shows the letters of the reference, and its semicolon. -/
structure Shows (nodes : List Node) (content : Text) : Prop where
  faithful : (∀ text ∈ highlighted nodes, '&' ∉ text) → shown nodes = content
  longer : (∃ text ∈ highlighted nodes, '&' ∈ text) → content.length < (shown nodes).length

variable {nodes : List Node}

theorem Shows.length_le (shows : Shows nodes content) : content.length ≤ (shown nodes).length := by
  by_cases faithful : ∀ text ∈ highlighted nodes, '&' ∉ text
  · exact Nat.le_of_eq (congrArg List.length (shows.faithful faithful).symm)
  · push Not at faithful
    exact Nat.le_of_lt (shows.longer faithful)

theorem Shows.append (before : List Node) (shows : Shows nodes content)
    (quiet : ∀ text ∈ highlighted before, '&' ∉ text) : Shows (before ++ nodes) (shown before ++ content) where
  faithful none := by
    have later := shows.faithful fun text member => none text (by simp [member])
    rw [shown_append, later]
  longer some := by
    obtain ⟨text, member, found⟩ := some
    rw [highlighted_append, List.mem_append] at member
    have later := shows.longer ⟨text, member.resolve_left fun early => quiet text early found, found⟩
    rw [shown_append, List.length_append, List.length_append]
    omega

theorem shows_view (members : List Member) (content : Text) (written : '&' ∉ said pending) :
    Shows (view members pending content) (said pending ++ content) := by
  have quiet_closed {name : Text} (written : '&' ∉ said (some name)) (text : Text)
      (member : text ∈ highlighted (closed members name)) : '&' ∉ text := by
    rw [mem_highlighted_closed member]
    exact written
  have empty : Shows [] [] := ⟨fun _ => rfl, fun ⟨_, member, _⟩ => by cases member⟩
  induction content generalizing pending with
  | nil =>
      cases pending with
      | none => exact empty
      | some name => simpa [view, said] using empty.append (closed members name) (quiet_closed written)
  | cons char content ih =>
      have rest : Shows (view members none content) content := ih (by simp [said])
      cases pending with
      | none =>
          rw [view]
          split
          · rename_i begins
            rw [begins]
            have next : Shows (view members (some []) content) ('@' :: content) := ih (by simp [said])
            exact next
          · simpa [said] using rest.append [.character char] (by simp [highlighted, Node.highlighted?])
      | some name =>
          rw [view]
          split
          · rename_i entity reference
            split
            · refine ⟨fun none => absurd (none ('@' :: (name ++ '&' :: entity)) (by simp)) (by simp), fun _ => ?_⟩
              have longer := rest.length_le
              simp [said]
              omega
            · simpa [said] using rest.append (plain ('@' :: (name ++ [char]))) (by simp)
          · rename_i reference
            split
            · have next := rest.append (closed members name ++ [.character char]) fun text member =>
                quiet_closed written text (by simpa [highlighted, Node.highlighted?] using member)
              simpa [said] using next
            · have other := (plain_of_referenceName reference).1
              have longer : Shows (view members (some (name ++ [char])) content)
                  (said (some (name ++ [char])) ++ content) := ih (by simpa [said, Ne.symm other] using written)
              simpa [said] using longer

/-- The pieces make up the text. -/
theorem pieces_join (pending : Option Text) (text : Text) :
    (pieces pending text).flatMap (Piece.highlight []) = said pending ++ text := by
  have flushed (name : Text) : (flush name).flatMap (Piece.highlight []) = '@' :: name := by
    unfold flush
    split
    · rename_i empty
      rw [empty]
      rfl
    · simp [Piece.highlight, known]
  induction text generalizing pending with
  | nil =>
      cases pending with
      | none => rfl
      | some name => simpa [pieces, said] using flushed name
  | cons char text ih =>
      cases pending with
      | none =>
          rw [pieces]
          split
          · rename_i begins
            rw [ih, begins]
            rfl
          · rw [List.flatMap_cons, ih]
            rfl
      | some name =>
          rw [pieces]
          split
          · rw [List.flatMap_append, flushed, List.flatMap_cons, ih]
            rfl
          · rw [ih]
            simp [said]

theorem mem_of_mem_names (char : Char) (present : name ∈ names text) (member : char ∈ name) : char ∈ text := by
  obtain ⟨piece, found, same⟩ := List.mem_filterMap.mp present
  have join : (pieces none text).flatMap (Piece.highlight []) = text := pieces_join none text
  rw [← join]
  refine List.mem_flatMap.mpr ⟨piece, found, ?_⟩
  cases piece with
  | other char => cases same
  | mention name =>
      cases same
      simp [Piece.highlight, known, member]

/-- What is shown of a content is in it, apart from the letters of references. -/
theorem mem_of_mem_shown_view (odd : ∀ entry ∈ references, char ∉ '&' :: (entry.2 ++ [';']))
    (member : char ∈ shown (view members pending content)) : char ∈ said pending ++ content := by
  induction content generalizing pending with
  | nil =>
      cases pending with
      | none => cases member
      | some name => simpa [view, said] using member
  | cons first content ih =>
      cases pending with
      | none =>
          rw [view] at member
          split at member
          · rename_i begins
            rw [begins]
            exact ih member
          · obtain here | later := List.mem_cons.mp member
            · rw [here]
              exact List.mem_cons_self
            · exact List.mem_cons_of_mem _ (ih later)
      | some name =>
          rw [view] at member
          split at member
          · rename_i entity reference
            have letters := odd _ (mem_references reference)
            rw [shown_append, List.mem_append] at member
            obtain here | later := member
            · split at here
              · simp [shown, Node.text, said] at here letters ⊢
                tauto
              · simp [said] at here ⊢
                tauto
            · have inside : char ∈ content := ih later
              simp [inside]
          · split at member
            · rw [shown_append, shown_closed, shown_character] at member
              obtain here | later := List.mem_append.mp member
              · exact List.mem_append_left _ here
              · obtain rfl | rest := List.mem_cons.mp later
                · simp
                · have inside : char ∈ content := ih rest
                  simp [inside]
            · simpa [said] using ih member

/-! ## Ends of lines and null characters -/

theorem name_other (plain : endsName char = false) : char ≠ '\n' ∧ char ≠ '\r' := by
  constructor <;> intro same <;> rw [same] at plain <;> exact absurd plain (by decide)

theorem highlight_lines (letters : ∀ char ∈ name, endsName char = false) (char : Char)
    (member : char ∈ (Piece.mention name).highlight members) : char ≠ '\n' ∧ char ≠ '\r' := by
  have sign : ∀ char ∈ '@' :: name, char ≠ '\n' ∧ char ≠ '\r' :=
    List.forall_mem_cons.mpr ⟨by decide, fun char member => name_other (letters char member)⟩
  have known : (('<' :: ("span ".toList ++ mentionTag ++ ['>'])) ++ ('<' :: ("/span".toList ++ ['>']))).all
      (fun char => char ≠ '\n' && char ≠ '\r') = true := by decide
  have markup (char : Char) (member : char ∈ ('<' :: ("span ".toList ++ mentionTag ++ ['>'])) ++
      ('<' :: ("/span".toList ++ ['>']))) : char ≠ '\n' ∧ char ≠ '\r' := by
    simpa using List.all_eq_true.mp known char member
  rw [Piece.highlight] at member
  split at member
  · have split : spanOf mentionTag ('@' :: name) = ('<' :: ("span ".toList ++ mentionTag ++ ['>'])) ++
        (escape ('@' :: name) ++ '<' :: ("/span".toList ++ ['>'])) := by
      simp [spanOf]
    rw [split] at member
    obtain before | later := List.mem_append.mp member
    · exact markup char (List.mem_append_left _ before)
    · obtain inside | after := List.mem_append.mp later
      · exact escape_lines sign char inside
      · exact markup char (List.mem_append_right _ after)
  · exact sign char member

/-- A name has no end of a line. -/
theorem newlines_flush {returned : Bool} (letters : ∀ char ∈ name, endsName char = false) :
    newlines returned ((flush name).flatMap (Piece.highlight members) ++ rest) =
      (flush name).flatMap (Piece.highlight members) ++ newlines false rest := by
  unfold flush
  split
  · exact newlines_append_other (List.cons_ne_nil _ _) (by simp [Piece.highlight])
  · have begun : (Piece.mention name).highlight members ≠ [] := by
      rw [Piece.highlight]
      split <;> exact List.cons_ne_nil _ _
    rw [List.flatMap_singleton]
    exact newlines_append_other begun (highlight_lines letters)

theorem ne_at_of_ends (ends : endsName char = true) : char ≠ '@' := by
  intro same
  rw [same] at ends
  exact absurd ends (by decide)

theorem pieces_end (name : Text) (ends : endsName char = true) :
    pieces (some name) (char :: rest) = flush name ++ pieces none (char :: rest) := by
  simp [pieces, ends, ne_at_of_ends ends]

theorem pieces_end_newlines (name : Text) (ends : endsName char = true) :
    pieces (some name) (newlines false (char :: rest)) = flush name ++ pieces none (newlines false (char :: rest)) := by
  by_cases carriage : char = '\r'
  · rw [carriage, newlines_cons_carriage]
    exact pieces_end name (by decide)
  · rw [newlines_cons_false carriage]
    exact pieces_end name ends

theorem rendered_cons (other : char ≠ '@') : (pieces none (char :: rest)).flatMap (Piece.highlight members) =
    char :: (pieces none rest).flatMap (Piece.highlight members) := by
  rw [pieces, if_neg other]
  rfl

/-- The ends of lines are between the names. -/
theorem newlines_rendered {before returned : Bool} (same : pending = none → before = returned)
    (letters : ∀ name, pending = some name → returned = false ∧ ∀ char ∈ name, endsName char = false) :
    newlines before ((pieces pending text).flatMap (Piece.highlight members)) =
      (pieces pending (newlines returned text)).flatMap (Piece.highlight members) := by
  induction text generalizing pending before returned with
  | nil =>
      cases pending with
      | none => rfl
      | some name =>
          have closes : newlines before ((flush name).flatMap (Piece.highlight members) ++ []) =
              (flush name).flatMap (Piece.highlight members) ++ newlines false [] :=
            newlines_flush (letters name rfl).2
          simpa [newlines, pieces] using closes
  | cons char text ih =>
      have later (returned : Bool) : newlines returned ((pieces none text).flatMap (Piece.highlight members)) =
          (pieces none (newlines returned text)).flatMap (Piece.highlight members) :=
        ih (fun _ => rfl) fun name absent => by cases absent
      have here (returned : Bool) (other : char ≠ '@') :
          newlines returned ((pieces none (char :: text)).flatMap (Piece.highlight members)) =
            (pieces none (newlines returned (char :: text))).flatMap (Piece.highlight members) := by
        rw [rendered_cons other]
        by_cases carriage : char = '\r'
        · rw [carriage, newlines_cons_carriage, newlines_cons_carriage, rendered_cons (by decide), later]
        · by_cases dropped : returned = true ∧ char = '\n'
          · simp only [newlines, if_neg carriage, if_pos dropped, later]
          · simp only [newlines, if_neg carriage, if_neg dropped, later, rendered_cons other]
      cases pending with
      | none =>
          rw [same rfl]
          by_cases begins : char = '@'
          · subst begins
            rw [newlines_cons_other (by decide) (by decide), pieces, pieces, if_pos rfl, if_pos rfl]
            refine ih (fun absent => by cases absent) fun name same => ?_
            cases same
            exact ⟨rfl, fun _ member => by cases member⟩
          · exact here returned begins
      | some name =>
          obtain ⟨anew, plain⟩ := letters name rfl
          subst anew
          by_cases ends : endsName char = true
          · rw [pieces_end name ends, pieces_end_newlines name ends, List.flatMap_append, List.flatMap_append,
              newlines_flush plain, here false (ne_at_of_ends ends)]
          · rw [Bool.not_eq_true] at ends
            rw [newlines_cons_false (name_other ends).2, pieces, pieces, ends]
            refine ih (fun absent => by cases absent) fun longer same => ?_
            cases same
            exact ⟨rfl, List.forall_mem_append.mpr ⟨plain, by simpa using ends⟩⟩

theorem names_newlines {returned : Bool} (anew : pending ≠ none → returned = false) :
    (pieces pending (newlines returned text)).filterMap Piece.name? = (pieces pending text).filterMap Piece.name? := by
  have skip {char : Char} {text : Text} (other : char ≠ '@') :
      (pieces none (char :: text)).filterMap Piece.name? = (pieces none text).filterMap Piece.name? := by
    rw [pieces, if_neg other]
    rfl
  induction text generalizing pending returned with
  | nil => rfl
  | cons char text ih =>
      have here (returned : Bool) (other : char ≠ '@') :
          (pieces none (newlines returned (char :: text))).filterMap Piece.name? =
            (pieces none (char :: text)).filterMap Piece.name? := by
        have later (returned : Bool) : (pieces none (newlines returned text)).filterMap Piece.name? =
            (pieces none text).filterMap Piece.name? := ih fun absent => absurd rfl absent
        rw [skip other]
        by_cases carriage : char = '\r'
        · rw [carriage, newlines_cons_carriage, skip (by decide), later]
        · by_cases dropped : returned = true ∧ char = '\n'
          · simp only [newlines, if_neg carriage, if_pos dropped, later]
          · simp only [newlines, if_neg carriage, if_neg dropped, skip other, later]
      cases pending with
      | none =>
          by_cases begins : char = '@'
          · subst begins
            rw [newlines_cons_other (by decide) (by decide), pieces, pieces, if_pos rfl, if_pos rfl]
            exact ih fun _ => rfl
          · exact here returned begins
      | some name =>
          rw [anew (Option.some_ne_none name)]
          by_cases ends : endsName char = true
          · rw [pieces_end name ends, pieces_end_newlines name ends, List.filterMap_append, List.filterMap_append,
              here false (ne_at_of_ends ends)]
          · rw [Bool.not_eq_true] at ends
            rw [newlines_cons_false (name_other ends).2, pieces, pieces, ends]
            exact ih fun _ => rfl

theorem filter_null (whole : null ∉ text) : text.filter (· ≠ null) = text :=
  List.filter_eq_self.mpr fun _ member => decide_eq_true fun isNull => whole (isNull ▸ member)

theorem shown_built (nodes : List Node) : shown (nodes.flatMap Node.built) = (shown nodes).filter (· ≠ null) := by
  induction nodes with
  | nil => rfl
  | cons node nodes ih =>
      rw [List.flatMap_cons, shown_append, ih]
      cases node with
      | character char => by_cases isNull : char = null <;> simp [Node.built, isNull]
      | span attributes content => simp [Node.built]

theorem highlighted_built (nodes : List Node) :
    highlighted (nodes.flatMap Node.built) = (highlighted nodes).map fun text => text.filter (· ≠ null) := by
  induction nodes with
  | nil => rfl
  | cons node nodes ih =>
      rw [List.flatMap_cons, highlighted_append, ih]
      cases node with
      | character char => by_cases isNull : char = null <;> simp [Node.built, isNull]
      | span attributes content => simp [Node.built, highlighted, Node.highlighted?]

theorem tag_of_mem_built {attributes : Text} (tags : ∀ attributes text, .span attributes text ∈ nodes →
    attributes = mentionTag) (member : .span attributes text ∈ nodes.flatMap Node.built) : attributes = mentionTag := by
  obtain ⟨node, present, found⟩ := List.mem_flatMap.mp member
  cases node with
  | character char =>
      by_cases isNull : char = null <;> simp [Node.built, isNull] at found
  | span first text =>
      simp only [Node.built, List.mem_singleton, Node.span.injEq] at found
      rw [found.1, tags first text present]
      decide

theorem rendered_eq (content : Text) (members : Option (List Member)) :
    renderContentWithMentions content members =
      (pieces none (escape content)).flatMap (Piece.highlight (members.getD [])) := by
  cases members with
  | none => exact (pieces_join none _).symm
  | some members => rfl

theorem read_rendered (content : Text) (members : Option (List Member)) :
    readHtml (renderContentWithMentions content members) =
      some ((view (members.getD []) none (newlines false content)).flatMap Node.built) := by
  have lines : newlines false (renderContentWithMentions content members) =
      (pieces none (escape (newlines false content))).flatMap (Piece.highlight (members.getD [])) := by
    rw [rendered_eq, newlines_rendered (fun _ => rfl) (fun name absent => by cases absent), newlines_escape]
  rw [readHtml, lines, parse_view fun _ absent => (by cases absent)]
  rfl

theorem highlighted_newlines (content : Text) (members : List Member) :
    highlighted (view members none (newlines false content)) =
      ((names (escape content)).filter (known members)).map ('@' :: ·) := by
  have same : names (escape (newlines false content)) = names (escape content) := by
    rw [← newlines_escape]
    exact names_newlines fun absent => absurd rfl absent
  rw [highlighted_view, ← same]
  rfl

/-- Every content is shown as characters and as highlighted names of members, and as
itself exactly if it has neither a null character nor a carriage return and no member
has a name, found in the escaped text, with an ampersand. -/
theorem content_shown (content : Text) (members : Option (List Member)) :
    ∃ nodes, readHtml (renderContentWithMentions content members) = some nodes ∧
      (∀ attributes text, .span attributes text ∈ nodes → attributes = mentionTag) ∧
      highlighted nodes = ((names (escape content)).filter (known (members.getD []))).map
        (fun name => '@' :: name.filter (· ≠ null)) ∧
      (shown nodes = content ↔ null ∉ content ∧ '\r' ∉ content ∧
        ∀ name ∈ names (escape content), known (members.getD []) name = true → '&' ∉ name) := by
  have texts := highlighted_newlines content (members.getD [])
  refine ⟨_, read_rendered content members, fun _ _ => tag_of_mem_built fun _ _ => tag_of_mem_view, ?_, ?_⟩
  · rw [highlighted_built, texts, List.map_map]
    exact List.map_congr_left fun name _ => by simp [null]
  · rw [shown_built]
    have shows : Shows (view (members.getD []) none (newlines false content)) (newlines false content) :=
      shows_view (members.getD []) _ (by simp [said])
    have quiet : (∀ text ∈ highlighted (view (members.getD []) none (newlines false content)), '&' ∉ text) ↔
        ∀ name ∈ names (escape content), known (members.getD []) name = true → '&' ∉ name := by
      rw [texts]
      constructor
      · intro none name present found
        have silent := none ('@' :: name) (List.mem_map_of_mem (List.mem_filter.mpr ⟨present, found⟩))
        simpa using silent
      · intro none text member
        obtain ⟨name, kept, rfl⟩ := List.mem_map.mp member
        obtain ⟨present, found⟩ := List.mem_filter.mp kept
        simpa using none name present found
    rw [← quiet]
    constructor
    · intro same
      have noNull : null ∉ content := by
        rw [← same]
        simp
      have carriage : '\r' ∉ content := by
        intro member
        rw [← same] at member
        have inside : '\r' ∈ said none ++ newlines false content :=
          mem_of_mem_shown_view (by decide) (List.mem_of_mem_filter member)
        exact carriage_notMem_newlines inside
      refine ⟨noNull, carriage, ?_⟩
      rw [newlines_of_notMem carriage] at same shows ⊢
      have shownNull : null ∉ shown (view (members.getD []) none content) := by
        intro member
        have inside : null ∈ said none ++ content := mem_of_mem_shown_view (by decide) member
        exact noNull inside
      rw [filter_null shownNull] at same
      by_contra loud
      push Not at loud
      have longer := shows.longer loud
      rw [same] at longer
      exact Nat.lt_irrefl _ longer
    · intro ⟨noNull, carriage, silent⟩
      rw [newlines_of_notMem carriage] at silent shows ⊢
      rw [shows.faithful silent]
      exact filter_null noNull

/-- For a content without null characters and characters that are escaped, the page shows
the content, and those are told that they are mentioned whose names are highlighted. -/
theorem mentions_agree (content : Text) (userId : Int) (members : List Member) (whole : null ∉ content)
    (written : ∀ char ∈ content, referenceName char = none) :
    ∃ nodes, readHtml (renderContentWithMentions content (some members)) = some nodes ∧
      shown nodes = newlines false content ∧
      ∀ id, id ∈ parseMentions content userId members ↔
        ∃ name, '@' :: name ∈ highlighted nodes ∧ mentioned userId members name = some id := by
  have same : escape content = content := escape_plain written
  have quiet : '&' ∉ content := fun member => (plain_of_referenceName (written '&' member)).1 rfl
  have texts : highlighted (view members none (newlines false content)) =
      ((names content).filter (known members)).map ('@' :: ·) := by
    rw [highlighted_newlines, same]
  have shows : Shows (view members none (newlines false content)) (newlines false content) :=
    shows_view members _ (by simp [said])
  have inside {name : Text} (member : '@' :: name ∈ ((names content).filter (known members)).map ('@' :: ·))
      (char : Char) (letter : char ∈ name) : char ∈ content := by
    obtain ⟨other, kept, equal⟩ := List.mem_map.mp member
    cases equal
    exact mem_of_mem_names char (List.mem_filter.mp kept).1 letter
  have marks : highlighted ((view members none (newlines false content)).flatMap Node.built) =
      ((names content).filter (known members)).map ('@' :: ·) := by
    rw [highlighted_built, texts, List.map_map]
    refine List.map_congr_left fun name kept => ?_
    have noNull : null ∉ '@' :: name := List.not_mem_cons_of_ne_of_not_mem (by decide) fun letter =>
      whole (inside (List.mem_map_of_mem kept) null letter)
    exact filter_null noNull
  refine ⟨_, read_rendered content (some members), ?_, fun id => ?_⟩
  · rw [shown_built, Option.getD_some, shows.faithful fun text member => ?_]
    · exact filter_null fun member => whole (mem_of_mem_newlines (by decide) member)
    · rw [texts] at member
      obtain ⟨name, kept, rfl⟩ := List.mem_map.mp member
      simpa using fun letter => quiet (inside (List.mem_map_of_mem kept) '&' letter)
  · rw [parseMentions, List.mem_eraseDups, List.mem_filterMap, Option.getD_some, marks]
    constructor
    · intro ⟨name, present, found⟩
      have called : known members name = true := by
        obtain ⟨member, first, _⟩ := Option.map_eq_some_iff.mp found
        have named := List.find?_some first
        rw [Bool.and_eq_true] at named
        exact List.any_eq_true.mpr ⟨member, List.mem_of_find?_eq_some first, named.2⟩
      exact ⟨name, List.mem_map_of_mem (List.mem_filter.mpr ⟨present, called⟩), found⟩
    · intro ⟨name, member, found⟩
      obtain ⟨other, kept, equal⟩ := List.mem_map.mp member
      cases equal
      exact ⟨name, (List.mem_filter.mp kept).1, found⟩

def ann : Member := ⟨2, "ann".toList, "Ann".toList⟩

theorem ann_agrees : ∃ nodes,
    readHtml (renderContentWithMentions "@ann @b".toList (some [ann])) = some nodes ∧
      shown nodes = newlines false "@ann @b".toList ∧
      ∀ id, id ∈ parseMentions "@ann @b".toList 1 [ann] ↔
        ∃ name, '@' :: name ∈ highlighted nodes ∧ mentioned 1 [ann] name = some id := by
  have written : ("@ann @b".toList.all fun char => (referenceName char).isNone) = true := by decide
  exact mentions_agree _ 1 [ann] (by decide) fun char member =>
    Option.isNone_iff_eq_none.mp (List.all_eq_true.mp written char member)

/-- A name with an ampersand is told, but not highlighted. -/
example : parseMentions "@R&D".toList 1 [⟨2, "R&D".toList, []⟩] = [2] ∧
    renderContentWithMentions "@R&D".toList (some [⟨2, "R&D".toList, []⟩]) = escape "@R&D".toList := by
  decide

end MuduoIm.Web.Mentions
