import MuduoIm.Data.Html
import MuduoIm.Data.JsString

namespace MuduoIm.Web.Handlers

open MuduoIm.Data MuduoIm.Data.Html

/-! # Texts in inline handlers

The page puts what others have written into attributes, and there into string literals
of handlers: the excerpt in the reply button of a message, the emoji of a reaction and
the address of a picture.
-/

/-- A message with its identifier and the number of its sender. -/
structure Target where
  msgId : Text
  sender : Text
  plain : ∀ char ∈ msgId, (char.isAlphanum || char = '-') = true
  digits : ∀ char ∈ sender, char.isDigit = true

/-- `(content || '文件').substring(0, 40)` -/
def excerpt (content : Text) : Option Text :=
  JsString.substring 40 (if content = [] then "文件".toList else content)

def quoteEntity (char : Char) : Text := if char = '"' then "&quot;".toList else [char]

/-- An excerpt between the quotes of a literal. -/
def replyContent (text : Text) : Text := (JsString.written true (escape text)).flatMap quoteEntity

def setReply : Text := "event.stopPropagation();setReply('".toList

/-- The rest of the call. -/
def Target.from (target : Target) : Text := ", ".toList ++ (target.sender ++ ")".toList)

/-- `onclick` of the reply button for an excerpt. -/
def replyHandler (target : Target) (text : Text) : Text :=
  setReply ++ (target.msgId ++ '\'' :: (", '".toList ++ (replyContent text ++ '\'' :: target.from)))

def toggleReaction : Text := "toggleReaction('".toList

/-- `onclick` of a reaction. -/
def reactionHandler (target : Target) (emoji : Text) : Text :=
  (toggleReaction ++ (target.msgId ++ '\'' :: ",'".toList)) ++ (escape emoji ++ '\'' :: ")".toList)

/-- What `/(\.[^.]+)$/` matches, with `_thumb_600` before it. -/
def thumbnail (url : Text) : Text :=
  let extension := (url.reverse.takeWhile (· ≠ '.')).reverse
  match url.reverse.dropWhile (· ≠ '.') with
  | [] => url
  | dot :: stem => if extension = [] then url else stem.reverse ++ ("_thumb_600".toList ++ dot :: extension)

def imageStart : Text := "<img class=\"chat-image-preview\" src=\"".toList

def openImageLightbox : Text := "openImageLightbox('".toList

def useOriginal : Text := "this.onerror=null;this.src='".toList

def imageBubble (fileUrl fname : Text) : Text :=
  imageStart ++ (escape (thumbnail fileUrl) ++ '"' :: (" alt=\"".toList ++ (escape fname ++ '"' ::
    (" onclick=\"".toList ++ (openImageLightbox ++ (escape fileUrl ++ '\'' :: ")".toList) ++ '"' ::
      (" onerror=\"".toList ++ (useOriginal ++ (escape fileUrl ++ '\'' :: ";".toList) ++ '"' :: ">".toList)))))))

/-! ## What the browser makes of them -/

/-- The text after one that is there. -/
def behind (before text : Text) : Option Text :=
  if text.take before.length = before then some (text.drop before.length) else none

/-- The literals of a script, each behind its text, and what follows the last one. -/
def readLiterals : List Text → Text → Option (List Text × Text)
  | [], code => some ([], code)
  | before :: more, code =>
      ((behind before code).bind (JsString.readString 0)).bind fun first =>
        (readLiterals more first.2).map fun later => (first.1 :: later.1, later.2)

/-- The attribute that the html goes on with, as a script with these literals. -/
def readHandler (befores : List Text) (html : Text) : Option (List Text × Text) :=
  (readAttribute html).bind fun value => readLiterals befores value.1

def reply : List Text := [setReply, ", '".toList]

def reaction : List Text := [toggleReaction, ",'".toList]

structure Image where
  src : Text
  alt : Text
  onclick : List Text × Text
  onerror : List Text × Text
deriving DecidableEq

def readImage (html : Text) : Option Image := do
  let src ← (behind imageStart html).bind readAttribute
  let alt ← (behind " alt=\"".toList src.2).bind readAttribute
  let click ← (behind " onclick=\"".toList alt.2).bind readAttribute
  let error ← (behind " onerror=\"".toList click.2).bind readAttribute
  let onclick ← readLiterals [openImageLightbox] click.1
  let onerror ← readLiterals [useOriginal] error.1
  return ⟨src.1, alt.1, onclick, onerror⟩

/-! ## The reply button -/

variable {text rest before code : Text} {target : Target} {char : Char}

theorem behind_append : behind before (before ++ rest) = some rest := by
  simp [behind]

theorem readLiterals_cons {more : List Text} {value : Text}
    (read : JsString.readString 0 code = some (value, rest)) :
    readLiterals (before :: more) (before ++ code) =
      (readLiterals more rest).map fun later => (value :: later.1, later.2) := by
  rw [readLiterals, behind_append, Option.bind_some, read]
  rfl

theorem readLiterals_single (before code : Text) :
    readLiterals [before] (before ++ code) = (JsString.readString 0 code).map fun read => ([read.1], read.2) := by
  cases read : JsString.readString 0 code <;> simp [readLiterals, behind_append, read]

/-- The browser takes the text for itself in an attribute. -/
structure Plain (text : Text) : Prop where
  written : ∀ char ∈ text, referenceName char = none
  lines : ∀ char ∈ text, char ≠ '\n' ∧ char ≠ '\r'
  noNull : null ∉ text
  noQuote : '"' ∉ text

/-- A character that the browser takes for itself in an attribute. -/
def takesItself (char : Char) : Bool :=
  (referenceName char).isNone && char ≠ '\n' && char ≠ '\r' && char ≠ null && char ≠ '"'

theorem plain_of_all (all : text.all takesItself = true) : Plain text := by
  have each (char : Char) (member : char ∈ text) :
      (((referenceName char = none ∧ char ≠ '\n') ∧ char ≠ '\r') ∧ char ≠ null) ∧ char ≠ '"' := by
    simpa [takesItself] using List.all_eq_true.mp all char member
  exact ⟨fun char member => (each char member).1.1.1.1,
    fun char member => ⟨(each char member).1.1.1.2, (each char member).1.1.2⟩,
    fun member => (each null member).1.2 rfl, fun member => (each '"' member).2 rfl⟩

theorem Plain.append (first : Plain text) (second : Plain rest) : Plain (text ++ rest) where
  written := List.forall_mem_append.mpr ⟨first.written, second.written⟩
  lines := List.forall_mem_append.mpr ⟨first.lines, second.lines⟩
  noNull := List.not_mem_append first.noNull second.noNull
  noQuote := List.not_mem_append first.noQuote second.noQuote

theorem decode_plain (plain : Plain text) (rest : Text) :
    decode none (text ++ rest) = (decode none rest).map (text ++ ·) := by
  have same := decode_escape text rest
  rwa [escape_plain plain.written] at same

theorem decode_plain_end (plain : Plain text) : decode none text = some text := by
  have same := decode_plain plain []
  simpa [decode] using same

theorem Plain.newlines_append (plain : Plain text) (rest : Text) :
    newlines false (text ++ rest) = text ++ newlines false rest := by
  by_cases empty : text = []
  · rw [empty]
    rfl
  · exact newlines_append_other empty plain.lines

theorem Plain.received_append (plain : Plain text) (rest : Text) : received (text ++ rest) = text ++ received rest := by
  rw [received, plain.newlines_append, List.map_append, map_replaced plain.noNull]
  rfl

theorem Plain.newlines_self (plain : Plain text) : newlines false text = text :=
  newlines_of_notMem fun member => (plain.lines '\r' member).2 rfl

/-- An argument and what follows its quote. -/
theorem received_argument {after : Text} (plain : Plain after) :
    received (text ++ '\'' :: after) = received text ++ '\'' :: after := by
  have quote : replaced '\'' = '\'' := by decide
  rw [received, newlines_append_cons (by decide) (by decide), plain.newlines_self, List.map_append, List.map_cons,
    map_replaced plain.noNull, quote]
  rfl

theorem ne_of_ordinary {other : Char} (plain : (char.isAlphanum || char = '-') = true)
    (special : (other.isAlphanum || other = '-') = false) : char ≠ other := by
  intro same
  rw [same, special] at plain
  cases plain

theorem ordinary_reference (plain : (char.isAlphanum || char = '-') = true) : referenceName char = none := by
  have known : (references.all fun entry => !(entry.1.isAlphanum || entry.1 = '-')) = true := by decide
  cases reference : referenceName char with
  | none => rfl
  | some name =>
      have special := List.all_eq_true.mp known _ (mem_references reference)
      rw [plain] at special
      cases special

theorem ordinary_breaks {protect : Bool} (plain : (char.isAlphanum || char = '-') = true) :
    JsString.breaks protect char = false := by
  have backslash : char ≠ '\\' := ne_of_ordinary plain (by decide)
  have newline : char ≠ '\n' := ne_of_ordinary plain (by decide)
  have carriage : char ≠ '\r' := ne_of_ordinary plain (by decide)
  have quote : char ≠ '\'' := ne_of_ordinary plain (by decide)
  simp [JsString.breaks, backslash, newline, carriage, quote]

theorem plain_of_ordinary (ordinary : ∀ char ∈ text, (char.isAlphanum || char = '-') = true) : Plain text where
  written char member := ordinary_reference (ordinary char member)
  lines char member :=
    ⟨ne_of_ordinary (ordinary char member) (by decide), ne_of_ordinary (ordinary char member) (by decide)⟩
  noNull member := ne_of_ordinary (ordinary null member) (by decide) rfl
  noQuote member := ne_of_ordinary (ordinary '"' member) (by decide) rfl

theorem Target.sender_ordinary (target : Target) (char : Char) (member : char ∈ target.sender) :
    (char.isAlphanum || char = '-') = true := by
  simp [Char.isAlphanum, target.digits char member]

theorem written_false : JsString.written false text = text := by
  simp [JsString.written]

theorem Target.read_msgId (target : Target) : JsString.readString 0 (target.msgId ++ '\'' :: rest) =
    some (target.msgId, rest) := by
  have safe (char : Char) (member : char ∈ target.msgId) : JsString.breaks false char = false :=
    ordinary_breaks (target.plain char member)
  have read : JsString.readString 0 (JsString.written false target.msgId ++ '\'' :: rest) = some (target.msgId, rest) :=
    JsString.readString_written safe
  rwa [written_false] at read

theorem written_append {protect : Bool} :
    JsString.written protect (text ++ rest) = JsString.written protect text ++ JsString.written protect rest :=
  List.flatMap_append

theorem written_of_no_quote {protect : Bool} (quiet : '\'' ∉ text) : JsString.written protect text = text := by
  induction text with
  | nil => rfl
  | cons char text ih =>
      rw [List.mem_cons, not_or] at quiet
      rw [JsString.written_cons, ih quiet.2]
      simp [Ne.symm quiet.1]

theorem quoteEntity_of_no_quote (quiet : '"' ∉ text) : text.flatMap quoteEntity = text := by
  induction text with
  | nil => rfl
  | cons char text ih =>
      rw [List.mem_cons, not_or] at quiet
      rw [List.flatMap_cons, ih quiet.2, quoteEntity, if_neg (Ne.symm quiet.1)]
      rfl

/-- A character of the excerpt in the attribute. -/
theorem decode_replyChar : decode none ((JsString.written true (escapeChar char)).flatMap quoteEntity ++ rest) =
    (decode none rest).map (JsString.written true [char] ++ ·) := by
  cases reference : referenceName char with
  | some name =>
      have known : (references.all fun entry => ('&' :: (entry.2 ++ [';'])).all fun letter =>
          letter ≠ '\'' && letter ≠ '"') = true := by decide
      have letters := List.all_eq_true.mp known _ (mem_references reference)
      have same : escapeChar char = '&' :: (name ++ [';']) := by rw [escapeChar, reference]
      have each (letter : Char) (member : letter ∈ escapeChar char) : letter ≠ '\'' ∧ letter ≠ '"' := by
        rw [same] at member
        simpa using List.all_eq_true.mp letters letter member
      have quote : char ≠ '\'' := by
        intro same
        subst same
        cases reference
      rw [written_of_no_quote fun member => (each _ member).1 rfl, quoteEntity_of_no_quote fun member =>
        (each _ member).2 rfl, decode_escapeChar, written_of_no_quote (by simpa using Ne.symm quote)]
      rfl
  | none =>
      have plain := (plain_of_referenceName reference).1
      rw [escapeChar_plain reference]
      by_cases single : char = '\''
      · subst single
        simp [JsString.written, quoteEntity, decode, Function.comp_def]
      · rw [written_of_no_quote (by simpa using Ne.symm single)]
        by_cases double : char = '"'
        · subst double
          simp [quoteEntity, decode, named]
        · simp [quoteEntity, double, decode, plain]

theorem decode_replyText : decode none ((JsString.written true (escape text)).flatMap quoteEntity ++ rest) =
    (decode none rest).map (JsString.written true text ++ ·) := by
  induction text with
  | nil => simp [JsString.written]
  | cons char text ih =>
      rw [escape_cons, written_append, List.flatMap_append, List.append_assoc, decode_replyChar, ih]
      simp [JsString.written, Function.comp_def]

theorem replyText_no_quote : '"' ∉ (text.flatMap quoteEntity) := by
  intro member
  obtain ⟨char, _, found⟩ := List.mem_flatMap.mp member
  unfold quoteEntity at found
  split at found
  · revert found
    decide
  · rename_i other
    exact other (List.mem_singleton.mp found).symm

theorem newlines_written {protect : Bool} :
    newlines false (JsString.written protect text) = JsString.written protect (newlines false text) := by
  refine newlines_flatMap (by simp) (by simp) (fun char feed carriage => ?_) text
  split <;> simp [feed, carriage]

theorem newlines_replyContent : newlines false (replyContent text) = replyContent (newlines false text) := by
  have lines : newlines false ((JsString.written true (escape text)).flatMap quoteEntity) =
      (newlines false (JsString.written true (escape text))).flatMap quoteEntity := by
    refine newlines_flatMap rfl rfl (fun char feed carriage => ?_) _
    unfold quoteEntity
    split <;> simp [feed, carriage]
  rw [replyContent, lines, newlines_written, newlines_escape]
  rfl

theorem map_replaced_written {protect : Bool} :
    (JsString.written protect text).map replaced = JsString.written protect (text.map replaced) := by
  have backslash : replaced '\\' = '\\' := by decide
  have quote : replaced '\'' = '\'' := by decide
  have other (char : Char) : replaced char = '\'' ↔ char = '\'' := by
    by_cases isNull : char = null
    · subst isNull
      decide
    · rw [replaced, if_neg isNull]
  induction text with
  | nil => rfl
  | cons char text ih =>
      rw [List.map_cons, JsString.written_cons, JsString.written_cons, List.map_append, ih]
      by_cases covered : (protect && char = '\'') = true
      · obtain ⟨protected_, isQuote⟩ : protect = true ∧ char = '\'' := by simpa using covered
        simp [protected_, isQuote, backslash, quote]
      · simp [covered, other]

def clickReply (target : Target) (content rest : Text) : Option (List Text × Text) :=
  (excerpt content).bind fun text => readHandler reply (replyHandler target text ++ '"' :: rest)

/-- The script that the browser finds in the button. -/
theorem clickReply_eq {content : Text} (cut : excerpt content = some text) (target : Target) (rest : Text) :
    clickReply target content rest = readLiterals reply (setReply ++ (target.msgId ++ '\'' :: (", '".toList ++
      (JsString.written true (received text) ++ '\'' :: target.from)))) := by
  have quote : Plain ['\''] := plain_of_all (by decide)
  have first : Plain setReply := plain_of_all (by decide)
  have second : Plain (target.msgId ++ (['\''] ++ ", '".toList)) :=
    (plain_of_ordinary target.plain).append (quote.append (plain_of_all (by decide)))
  have after : Plain target.from :=
    (plain_of_all (by decide)).append ((plain_of_ordinary target.sender_ordinary).append (plain_of_all (by decide)))
  have last : Plain (['\''] ++ target.from) := quote.append after
  have handler : replyHandler target text = setReply ++ ((target.msgId ++ (['\''] ++ ", '".toList)) ++
      (replyContent text ++ (['\''] ++ target.from))) := by
    simp [replyHandler]
  have inside : '"' ∉ replyHandler target text := by
    rw [handler]
    exact List.not_mem_append first.noQuote (List.not_mem_append second.noQuote
      (List.not_mem_append replyText_no_quote last.noQuote))
  have lines : newlines false (replyHandler target text) = setReply ++ ((target.msgId ++ (['\''] ++ ", '".toList)) ++
      (replyContent (newlines false text) ++ (['\''] ++ target.from))) := by
    have argument : newlines false (replyContent text ++ '\'' :: target.from) =
        replyContent (newlines false text) ++ '\'' :: target.from := by
      rw [newlines_append_cons (by decide) (by decide), newlines_replyContent, after.newlines_self]
    rw [handler, first.newlines_append, second.newlines_append]
    exact congrArg (fun text => setReply ++ (_ ++ text)) argument
  have decoded : decode none (newlines false (replyHandler target text)) = some (setReply ++
      ((target.msgId ++ (['\''] ++ ", '".toList)) ++ (JsString.written true (newlines false text) ++
        (['\''] ++ target.from)))) := by
    rw [lines, decode_plain first, decode_plain second, replyContent, decode_replyText, decode_plain_end last]
    simp
  rw [clickReply, cut, Option.bind_some, readHandler, readAttribute_eq inside decoded, Option.bind_some]
  simp only [List.map_append, map_replaced first.noNull, map_replaced second.noNull, map_replaced last.noNull,
    map_replaced_written]
  simp [received]

/-- What an attribute leaves of a text, in a literal. -/
theorem readString_received_iff {protect : Bool} (quiet : '\'' ∉ rest) :
    JsString.readString 0 (JsString.written protect (received text) ++ '\'' :: rest) = some (text, rest) ↔
      ∀ char ∈ text, JsString.breaks protect char = false ∧ char ≠ null := by
  constructor
  · intro read char member
    obtain ⟨same, safe⟩ := JsString.eq_of_readString_written quiet received_length read
    have noNull := (received_eq_iff.mp same.symm).1
    rw [same] at member
    refine ⟨safe char member, fun isNull => noNull ?_⟩
    rw [same, ← isNull]
    exact member
  · intro safe
    have noNull : null ∉ text := fun member => (safe null member).2 rfl
    have noCarriage : '\r' ∉ text := by
      intro member
      have sound := (safe '\r' member).1
      simp [JsString.breaks] at sound
    rw [received_eq_iff.mpr ⟨noNull, noCarriage⟩]
    exact JsString.readString_written fun char member => (safe char member).1

/-- A click on the reply button names the message, its excerpt and its sender exactly
if the excerpt has no backslash, no end of a line and no null character. -/
theorem reply_exact (target : Target) (content text rest : Text) (cut : excerpt content = some text) :
    clickReply target content rest = some ([target.msgId, text], target.from) ↔
      ∀ char ∈ text, JsString.breaks true char = false ∧ char ≠ null := by
  have quiet : '\'' ∉ target.from := by
    have digits : '\'' ∉ target.sender := fun member =>
      ne_of_ordinary (target.sender_ordinary '\'' member) (by decide) rfl
    simp [Target.from, digits]
  rw [clickReply_eq cut, reply, readLiterals_cons target.read_msgId, readLiterals_single,
    ← readString_received_iff quiet]
  cases read : JsString.readString 0 (JsString.written true (received text) ++ '\'' :: target.from) <;>
    simp [Prod.ext_iff]

def firstTarget : Target := ⟨"m-1".toList, "7".toList, by simp, by simp⟩

theorem reply_exact_greeting :
    clickReply firstTarget "it's \"me\"".toList [] = some (["m-1".toList, "it's \"me\"".toList], ", 7)".toList) := by
  have safe : ("it's \"me\"".toList.all fun char => !JsString.breaks true char && char ≠ null) = true := by decide
  refine (reply_exact firstTarget _ _ [] (by decide)).mpr fun char member => ?_
  simpa using List.all_eq_true.mp safe char member

example : excerpt (List.replicate 50 '😀') = some (List.replicate 20 '😀') := by decide

/-- A backslash of the excerpt takes the backslash of its quote. -/
example : JsString.readString 0 (JsString.written true "\\'x".toList ++ "', 7)".toList) =
    some ("\\".toList, "x', 7)".toList) := by decide

/-! ## Reactions and pictures -/

theorem readAttribute_argument {after : Text} (plainBefore : Plain before) (plainAfter : Plain after)
    (quiet : '\'' ∉ after) (text rest : Text) :
    ∃ found later,
      readAttribute (before ++ (escape text ++ '\'' :: after) ++ '"' :: rest) = some (before ++ found, later) ∧
      (JsString.readString 0 found = some (text, after) ↔
        ∀ char ∈ text, (JsString.breaks false char = false ∧ char ≠ null) ∧ char ≠ '"') ∧
      ('"' ∉ text → later = rest) := by
  have quote : escapeChar '\'' = ['\''] := by decide
  have same : before ++ (escape text ++ '\'' :: after) = escape (before ++ (text ++ '\'' :: after)) := by
    simp [escape_plain plainBefore.written, escape_plain plainAfter.written, quote]
  rw [same]
  by_cases cut : '"' ∈ text
  · obtain ⟨start, finish, rfl, first⟩ := List.eq_append_cons_of_mem cut
    refine ⟨received start, escape (finish ++ '\'' :: after) ++ '"' :: rest, ?_,
      ⟨fun read => ?_, fun each => absurd rfl (each '"' cut).2⟩, fun quiet => absurd cut quiet⟩
    · have ended := readAttribute_cut (finish ++ '\'' :: after) ('"' :: rest)
        (List.not_mem_append plainBefore.noQuote first)
      rw [← plainBefore.received_append, ← ended]
      simp
    · have shorter := JsString.readString_length read
      have started : (received start).length ≤ start.length := received_length
      rw [List.length_append, List.length_cons] at shorter
      omega
  · have whole : '"' ∉ before ++ (text ++ '\'' :: after) :=
      List.not_mem_append plainBefore.noQuote (List.not_mem_append cut (by simp [plainAfter.noQuote]))
    refine ⟨received text ++ '\'' :: after, rest, ?_, ?_, fun _ => rfl⟩
    · rw [readAttribute_escape whole, plainBefore.received_append, received_argument plainAfter]
    · have exact_iff : JsString.readString 0 (JsString.written false (received text) ++ '\'' :: after) =
          some (text, after) ↔ ∀ char ∈ text, JsString.breaks false char = false ∧ char ≠ null :=
        readString_received_iff quiet
      rw [written_false] at exact_iff
      rw [exact_iff]
      exact forall₂_congr fun char member => ⟨fun safe => ⟨safe, fun same => cut (same ▸ member)⟩, fun safe => safe.1⟩

/-- A click on a reaction toggles it exactly if the emoji has none of the two quotes, no
backslash, no end of a line and no null character. -/
theorem reaction_exact (target : Target) (emoji rest : Text) :
    readHandler reaction (reactionHandler target emoji ++ '"' :: rest) = some ([target.msgId, emoji], ")".toList) ↔
      ∀ char ∈ emoji, (JsString.breaks false char = false ∧ char ≠ null) ∧ char ≠ '"' := by
  have quote : Plain ['\''] := plain_of_all (by decide)
  have first : Plain toggleReaction := plain_of_all (by decide)
  have before : Plain (toggleReaction ++ (target.msgId ++ '\'' :: ",'".toList)) :=
    first.append ((plain_of_ordinary target.plain).append (quote.append (plain_of_all (by decide))))
  have quiet : '\'' ∉ ")".toList := by decide
  obtain ⟨found, later, read, exact_iff, _⟩ :=
    readAttribute_argument before (plain_of_all (by decide)) quiet emoji rest
  have literals : readLiterals reaction ((toggleReaction ++ (target.msgId ++ '\'' :: ",'".toList)) ++ found) =
      (JsString.readString 0 found).map fun read => ([target.msgId, read.1], read.2) := by
    rw [List.append_assoc, List.append_assoc, List.cons_append, reaction, readLiterals_cons target.read_msgId,
      readLiterals_single]
    simp [Function.comp_def]
  rw [readHandler, reactionHandler, read, Option.bind_some, literals, ← exact_iff]
  cases JsString.readString 0 found <;> simp [Prod.ext_iff]

theorem thumbnail_cases (url : Text) :
    thumbnail url = url ∨ ∃ stem extension, url = stem ++ '.' :: extension ∧
      thumbnail url = stem ++ ("_thumb_600".toList ++ '.' :: extension) := by
  have joined : url.reverse.takeWhile (· ≠ '.') ++ url.reverse.dropWhile (· ≠ '.') = url.reverse :=
    List.takeWhile_append_dropWhile
  unfold thumbnail
  split
  · exact .inl rfl
  · rename_i dot stem dropped
    dsimp only
    split
    · exact .inl rfl
    · rw [dropped] at joined
      have last : dot = '.' := by
        have stopped := List.head?_dropWhile_not (· ≠ '.') url.reverse
        rw [dropped] at stopped
        simpa using stopped
      have whole := congrArg List.reverse joined
      rw [last, List.reverse_append, List.reverse_reverse, List.reverse_cons, List.append_assoc,
        List.singleton_append] at whole
      refine .inr ⟨stem.reverse, (url.reverse.takeWhile (· ≠ '.')).reverse, whole.symm, ?_⟩
      rw [last]

theorem mem_thumbnail (odd : char ∉ "_thumb_600".toList) (url : Text) : char ∈ thumbnail url ↔ char ∈ url := by
  obtain same | ⟨stem, extension, whole, same⟩ := thumbnail_cases url
  · rw [same]
  · rw [same, whole]
    simp only [List.mem_append, odd, false_or]

/-- What an attribute gives back has none of the characters that it does not keep. -/
theorem kept_of_read {later : Text} (read : readAttribute (escape text ++ '"' :: rest) = some (text, later)) :
    '"' ∉ text ∧ null ∉ text ∧ '\r' ∉ text := by
  have noQuote : '"' ∉ text := by
    intro cut
    obtain ⟨start, finish, rfl, first⟩ := List.eq_append_cons_of_mem cut
    have started : (received start).length ≤ start.length := received_length
    rw [readAttribute_cut _ _ first] at read
    have same := congrArg (fun found => found.map fun pair => pair.1.length) read
    simp at same
    omega
  rw [readAttribute_escape noQuote, Option.some.injEq, Prod.mk.injEq] at read
  exact ⟨noQuote, received_eq_iff.mp read.1⟩

theorem readAttribute_kept (noQuote : '"' ∉ text) (noNull : null ∉ text) (noCarriage : '\r' ∉ text) :
    readAttribute (escape text ++ '"' :: rest) = some (text, rest) := by
  rw [readAttribute_escape noQuote, received_eq_iff.mpr ⟨noNull, noCarriage⟩]

/-- A picture has the addresses and the name of the message exactly if the address has
nothing that an attribute does not keep or a literal takes otherwise, and the name no
double quote, null character and carriage return. -/
theorem image_exact (fileUrl fname : Text) :
    readImage (imageBubble fileUrl fname) =
        some ⟨thumbnail fileUrl, fname, ([fileUrl], ")".toList), ([fileUrl], ";".toList)⟩ ↔
      (∀ char ∈ fileUrl, (JsString.breaks false char = false ∧ char ≠ null) ∧ char ≠ '"') ∧
        '"' ∉ fname ∧ null ∉ fname ∧ '\r' ∉ fname := by
  have lightbox : Plain openImageLightbox := plain_of_all (by decide)
  have original : Plain useOriginal := plain_of_all (by decide)
  have paren : Plain ")".toList := plain_of_all (by decide)
  have semicolon : Plain ";".toList := plain_of_all (by decide)
  obtain ⟨firstFound, firstLater, firstRead, firstExact, firstRest⟩ :=
    readAttribute_argument lightbox paren (by decide) fileUrl
      (" onerror=\"".toList ++ (useOriginal ++ (escape fileUrl ++ '\'' :: ";".toList) ++ '"' :: ">".toList))
  obtain ⟨secondFound, secondLater, secondRead, secondExact, _⟩ :=
    readAttribute_argument original semicolon (by decide) fileUrl ">".toList
  constructor
  · intro read
    simp only [readImage, imageBubble, Option.bind_eq_bind, behind_append, Option.bind_some] at read
    obtain ⟨⟨src, afterSrc⟩, readSrc, read⟩ := Option.bind_eq_some_iff.mp read
    obtain ⟨⟨alt, afterAlt⟩, readAlt, read⟩ := Option.bind_eq_some_iff.mp read
    obtain ⟨click, readClick, read⟩ := Option.bind_eq_some_iff.mp read
    obtain ⟨error, _, read⟩ := Option.bind_eq_some_iff.mp read
    obtain ⟨onclick, readOnclick, read⟩ := Option.bind_eq_some_iff.mp read
    obtain ⟨onerror, _, read⟩ := Option.bind_eq_some_iff.mp read
    simp only [Option.pure_def, Option.some.injEq, Image.mk.injEq] at read
    obtain ⟨srcSame, altSame, clickSame, _⟩ := read
    rw [srcSame] at readSrc
    obtain ⟨srcQuote, srcNull, srcCarriage⟩ := kept_of_read readSrc
    rw [readAttribute_kept srcQuote srcNull srcCarriage] at readSrc
    cases readSrc
    rw [behind_append, Option.bind_some, altSame] at readAlt
    obtain ⟨altQuote, altNull, altCarriage⟩ := kept_of_read readAlt
    rw [readAttribute_kept altQuote altNull altCarriage] at readAlt
    cases readAlt
    rw [behind_append, Option.bind_some, firstRead] at readClick
    cases readClick
    rw [readLiterals_single] at readOnclick
    refine ⟨firstExact.mp ?_, altQuote, altNull, altCarriage⟩
    obtain ⟨found, literal, same⟩ := Option.map_eq_some_iff.mp readOnclick
    rw [clickSame] at same
    simp only [Prod.mk.injEq, List.cons.injEq, and_true] at same
    rw [literal, ← same.1, ← same.2]
  · intro ⟨safe, altQuote, altNull, altCarriage⟩
    have address : '"' ∉ fileUrl := fun member => (safe '"' member).2 rfl
    have srcQuote : '"' ∉ thumbnail fileUrl := fun member => address ((mem_thumbnail (by decide) fileUrl).mp member)
    have srcNull : null ∉ thumbnail fileUrl := fun member =>
      (safe null ((mem_thumbnail (by decide) fileUrl).mp member)).1.2 rfl
    have srcCarriage : '\r' ∉ thumbnail fileUrl := by
      intro member
      have sound := (safe '\r' ((mem_thumbnail (by decide) fileUrl).mp member)).1.1
      simp [JsString.breaks] at sound
    have click : readLiterals [openImageLightbox] (openImageLightbox ++ firstFound) = some ([fileUrl], ")".toList) := by
      rw [readLiterals_single, firstExact.mpr safe]
      rfl
    have error : readLiterals [useOriginal] (useOriginal ++ secondFound) = some ([fileUrl], ";".toList) := by
      rw [readLiterals_single, secondExact.mpr safe]
      rfl
    rw [firstRest address] at firstRead
    simp only [readImage, imageBubble, Option.bind_eq_bind, behind_append, Option.bind_some,
      readAttribute_kept srcQuote srcNull srcCarriage, readAttribute_kept altQuote altNull altCarriage, firstRead,
      secondRead, click, error, Option.pure_def]

end MuduoIm.Web.Handlers
