import MuduoIm.Server.Dispatch

namespace MuduoIm.Server.Dispatch

open MuduoIm.Data MuduoIm.Server MuduoIm.Server.MessageHandlers MuduoIm.Server.Conversations

/-! # Which frames are handled as the protocol says

The protocol document promises an error frame for every missing or ill-typed
field.  A frame gets that treatment exactly if its handler reads no ill-typed
field and refuses each required field that is missing.
-/

/-- The fields that the protocol document marks as required.  It has no table
for `file_msg`, `typing` and `read_sync`, where these are the fields without
which the handler does nothing.  All are strings. -/
def requiredFields : FrameType → List String
  | .msg | .groupMsg => ["to", "content", "msgId"]
  | .typing => ["to"]
  | .fileMsg => ["to", "url"]
  | .recall | .clientAck => ["msgId"]
  | .edit => ["msgId", "newBody"]
  | .reaction => ["msgId", "emoji"]
  | .readAck | .readSync => ["to", "lastMsgId"]
  | .unknown => []

/-- A required field is missing or is no string. -/
def Lacks (type : FrameType) (frame : Json) : Prop := ∃ field ∈ requiredFields type, ¬ frame.HasText field

/-- Every frame must have a `type`. -/
def Malformed (frame : Json) : Prop :=
  ¬ frame.HasText "type" ∨ ∃ type, frame.member "type" = some (.string type) ∧ Lacks (frameType type) frame

section

variable {Instance Session : Type}

/-- Nothing is stored, removed, submitted or pushed. -/
structure Untouched (before after : World Instance Session) : Prop where
  servers : after.servers = before.servers
  records : after.records = before.records
  unread : after.unread = before.unread
  conversations : after.conversations = before.conversations
  deliveries : after.deliveries = before.deliveries
  readPositions : after.readPositions = before.readPositions
  recalls : after.recalls = before.recalls
  pushes : after.pushes = []
  notices : after.notices = []

def Refused (before after : World Instance Session) : Prop :=
  (∃ message, after.reply = some (.error message)) ∧ Untouched before after

/-- The handler returns, and it refuses the frame in the given case. -/
def RefusesIf (malformed : Prop) (before : World Instance Session) (handled : Option (World Instance Session)) :
    Prop :=
  ∃ after, handled = some after ∧ (malformed → Refused before after)

end

/-- The fields that the checks of a text message read before `msgId` are
those of a message. -/
def PassesChecks (frame : Json) : Prop :=
  ∃ target content, frame.member "to" = some (.string target) ∧ frame.member "content" = some (.string content) ∧
    content ≠ "" ∧ content.utf8ByteSize ≤ 10000 ∧ 0 < (stoll target).getD 0

/-- What a frame of each type must be like. -/
def Fits (frame : Json) : FrameType → Prop
  | .msg | .groupMsg => (∀ field ∈ ["to", "content", "replyTo"], frame.TextOrAbsent field) ∧
      (PassesChecks frame → frame.HasText "msgId")
  | .fileMsg => (∀ field ∈ ["to", "url", "filename"], frame.TextOrAbsent field) ∧ frame.NumberOrAbsent "fileSize"
  | .recall => frame.TextOrAbsent "msgId"
  | .edit => frame.TextOrAbsent "msgId" ∧ frame.TextOrAbsent "newBody"
  | .reaction => frame.TextOrAbsent "msgId" ∧ frame.TextOrAbsent "emoji"
  -- these handlers answer nothing when a field is missing
  | .typing => frame.HasText "to"
  | .clientAck => frame.HasText "msgId"
  | .readAck | .readSync => frame.HasText "to" ∧ frame.HasText "lastMsgId"
  | .unknown => True

/-- An object without an ill-typed `type`, whose fields are as its handler
needs them. -/
def FitsHandler (frame : Json) : Prop :=
  (∃ members, frame = .object members) ∧ frame.TextOrAbsent "type" ∧
    ∀ type, frame.member "type" = some (.string type) → Fits frame (frameType type)

/-! ## Reads of a field -/

variable {Instance Session : Type} {before after : World Instance Session}
variable {handled : Option (World Instance Session)} {frame : Json} {type : FrameType}

theorem read_of_text {field : String} (given : frame.HasText field) :
    ∃ text, frame.valueString field "" = some text := by
  obtain ⟨text, found⟩ := given
  exact ⟨text, Json.valueString_text "" found⟩

/-- A field that is read as a nonempty text is there. -/
theorem hasText_of_read {members : List (String × Json)} {field text : String}
    (read : (Json.object members).valueString field "" = some text) (nonempty : text ≠ "") :
    (Json.object members).HasText field := by
  have typed := (Json.valueString_isSome.mp (by rw [read]; rfl)).2
  rcases typed with absent | given
  · rw [Json.valueString_absent absent] at read
    exact absurd (Option.some.inj read).symm nonempty
  · exact given

/-- A field that is not there is read as the empty text, or not at all. -/
theorem read_of_not_hasText {members : List (String × Json)} {field : String}
    (lacking : ¬ (Json.object members).HasText field) :
    (Json.object members).valueString field "" = some "" ∨ (Json.object members).valueString field "" = none := by
  cases read : (Json.object members).valueString field "" with
  | none => exact .inr rfl
  | some text =>
      by_cases empty : text = ""
      · rw [empty]
        exact .inl rfl
      · exact absurd (hasText_of_read read empty) lacking

theorem isSome_read {members : List (String × Json)} {field : String} :
    ((Json.object members).valueString field "").isSome ↔ (Json.object members).TextOrAbsent field := by
  rw [Json.valueString_isSome]
  exact and_iff_right ⟨members, rfl⟩

/-- A handler that requires two fields reads one of them as empty when they
are not both there. -/
theorem empty_of_lacks {members : List (String × Json)} {first second firstText secondText : String}
    (required : requiredFields type = [first, second]) (lacks : Lacks type (.object members))
    (readFirst : (Json.object members).valueString first "" = some firstText)
    (readSecond : (Json.object members).valueString second "" = some secondText) :
    firstText = "" ∨ secondText = "" := by
  by_contra present
  obtain ⟨firstGiven, secondGiven⟩ := not_or.mp present
  obtain ⟨field, listed, missing⟩ := lacks
  rw [required, List.mem_pair] at listed
  rcases listed with rfl | rfl
  · exact missing (hasText_of_read readFirst firstGiven)
  · exact missing (hasText_of_read readSecond secondGiven)

theorem lacks_iff : Lacks type frame ↔ ¬ ∀ field ∈ requiredFields type, frame.HasText field := by
  rw [Lacks]
  push Not
  rfl

/-! ## Two kinds of handlers -/

theorem refused_refuse (user : Int) (message : String) : Refused before ((before.quiet user).refuse message) :=
  ⟨⟨message, rfl⟩, ⟨rfl, rfl, rfl, rfl, rfl, rfl, rfl, rfl, rfl⟩⟩

/-- A handler that never answers is right about the frames that it need not
refuse. -/
theorem refusesIf_silent {malformed : Prop} (silent : ∀ after, handled = some after → after.reply = none)
    (returns : ¬ malformed → handled.isSome) : RefusesIf malformed before handled ↔ ¬ malformed := by
  constructor
  · intro total wrong
    obtain ⟨after, result, refuses⟩ := total
    obtain ⟨⟨message, replied⟩, _⟩ := refuses wrong
    rw [silent after result] at replied
    contradiction
  · intro fine
    obtain ⟨after, result⟩ := Option.isSome_iff_exists.mp (returns fine)
    exact ⟨after, result, fun wrong => absurd wrong fine⟩

/-- A handler that checks its required fields is right when it returns. -/
theorem refusesIf_checked {malformed : Prop}
    (checked : ∀ after, handled = some after → malformed → Refused before after) :
    RefusesIf malformed before handled ↔ handled.isSome := by
  constructor
  · intro total
    obtain ⟨after, result, _⟩ := total
    rw [result]
    rfl
  · intro returns
    obtain ⟨after, result⟩ := Option.isSome_iff_exists.mp returns
    exact ⟨after, result, checked after result⟩

/-! ## Handlers that answer nothing -/

variable {isOpen : Session → Bool} {server : Instance} {user : Int} {answers : Answers} {session : Session}
variable {settings : Settings} {device : String} {arrival : Arrival} {members : List (String × Json)}

theorem handleTyping_refusesIf :
    RefusesIf (Lacks .typing frame) before ((before.quiet user).handleTyping isOpen server user frame) ↔
      Fits frame .typing := by
  have fits : ¬ Lacks .typing frame ↔ Fits frame .typing := by simp [lacks_iff, requiredFields, Fits]
  rw [← fits]
  apply refusesIf_silent
  · intro after result
    obtain ⟨toStr, _, result⟩ := Option.bind_eq_some_iff.mp result
    dsimp only at result
    split at result
    · cases result
      rfl
    · cases result
      rfl
  · intro complete
    obtain ⟨toStr, read⟩ := read_of_text (fits.mp complete)
    rw [World.handleTyping, read]
    simp only [Option.bind_eq_bind, Option.bind_some]
    split <;> rfl

theorem handleReadAck_refusesIf {config : Config} (kind : type = .readAck ∨ type = .readSync) :
    RefusesIf (Lacks type frame) before
      ((before.quiet user).handleReadAck isOpen server user frame answers config device) ↔ Fits frame type := by
  have fits : ¬ Lacks type frame ↔ Fits frame type := by
    rcases kind with rfl | rfl <;> simp [lacks_iff, requiredFields, Fits]
  rw [← fits]
  apply refusesIf_silent
  · intro after result
    obtain ⟨toStr, _, result⟩ := Option.bind_eq_some_iff.mp result
    obtain ⟨lastMsgId, _, result⟩ := Option.bind_eq_some_iff.mp result
    dsimp only at result
    split at result
    · cases result
      rfl
    · cases result
      rfl
  · intro complete
    have given : frame.HasText "to" ∧ frame.HasText "lastMsgId" := by
      have both := fits.mp complete
      rcases kind with rfl | rfl <;> exact both
    obtain ⟨toStr, readTo⟩ := read_of_text given.1
    obtain ⟨lastMsgId, readLast⟩ := read_of_text given.2
    rw [World.handleReadAck, readTo, readLast]
    simp only [Option.bind_eq_bind, Option.bind_some]
    split <;> rfl

theorem handleClientAck_refusesIf {now : Int} :
    RefusesIf (Lacks .clientAck frame) before
      ((before.quiet user).handleClientAck isOpen server user frame answers now) ↔ Fits frame .clientAck := by
  have fits : ¬ Lacks .clientAck frame ↔ Fits frame .clientAck := by simp [lacks_iff, requiredFields, Fits]
  rw [← fits]
  apply refusesIf_silent
  · intro after result
    obtain ⟨msgId, _, result⟩ := Option.bind_eq_some_iff.mp result
    split at result
    · cases result
      rfl
    · dsimp only at result
      split at result
      · cases result
        rfl
      · cases result
        rfl
  · intro complete
    obtain ⟨msgId, read⟩ := read_of_text (fits.mp complete)
    rw [World.handleClientAck, read]
    simp only [Option.bind_eq_bind, Option.bind_some]
    split
    · rfl
    · split <;> rfl

/-! ## Handlers that check what they require -/

theorem handleRecall_refusesIf {submitted : Bool} :
    RefusesIf (Lacks .recall (.object members)) before
      ((before.quiet user).handleRecall server user (.object members) session submitted) ↔
        Fits (.object members) .recall := by
  rw [refusesIf_checked]
  · rw [Fits, ← isSome_read, World.handleRecall]
    cases (Json.object members).valueString "msgId" "" with
    | none => simp
    | some msgId =>
        simp only [Option.bind_eq_bind, Option.bind_some]
        split
        · simp
        · split <;> simp
  · intro after result lacks
    obtain ⟨msgId, read, result⟩ := Option.bind_eq_some_iff.mp result
    have missing : msgId = "" := by
      by_contra nonempty
      simp [lacks_iff, requiredFields, hasText_of_read read nonempty] at lacks
    rw [if_pos missing] at result
    cases result
    exact refused_refuse user "missing msgId"

theorem handleEdit_refusesIf {now : Int} :
    RefusesIf (Lacks .edit (.object members)) before
      ((before.quiet user).handleEdit isOpen server user (.object members) answers session now) ↔
        Fits (.object members) .edit := by
  rw [refusesIf_checked]
  · rw [Fits, ← isSome_read, ← isSome_read, World.handleEdit]
    cases (Json.object members).valueString "msgId" "" with
    | none => simp
    | some msgId => cases (Json.object members).valueString "newBody" "" <;> simp
  · intro after result lacks
    obtain ⟨msgId, readId, result⟩ := Option.bind_eq_some_iff.mp result
    obtain ⟨newBody, readBody, result⟩ := Option.bind_eq_some_iff.mp result
    have missing : msgId = "" ∨ newBody = "" := empty_of_lacks rfl lacks readId readBody
    rw [Conversations.handleEdit, readId, readBody] at result
    simp only [if_pos missing] at result
    cases result
    exact ⟨⟨_, rfl⟩, ⟨rfl, rfl, rfl, rfl, rfl, rfl, rfl, rfl, rfl⟩⟩

theorem handleReaction_refusesIf {weightString : String → List Nat} :
    RefusesIf (Lacks .reaction (.object members)) before
      ((before.quiet user).handleReaction isOpen server user (.object members) answers weightString session) ↔
        Fits (.object members) .reaction := by
  rw [refusesIf_checked]
  · rw [Fits, ← isSome_read, ← isSome_read, World.handleReaction]
    cases (Json.object members).valueString "msgId" "" with
    | none => simp
    | some msgId => cases (Json.object members).valueString "emoji" "" <;> simp
  · intro after result lacks
    obtain ⟨msgId, readId, result⟩ := Option.bind_eq_some_iff.mp result
    obtain ⟨emoji, readEmoji, result⟩ := Option.bind_eq_some_iff.mp result
    have missing : msgId = "" ∨ emoji = "" := empty_of_lacks rfl lacks readId readEmoji
    rw [Conversations.handleReaction, readId, readEmoji] at result
    simp only [if_pos missing] at result
    cases result
    exact ⟨⟨_, rfl⟩, ⟨rfl, rfl, rfl, rfl, rfl, rfl, rfl, rfl, rfl⟩⟩

/-- A handler that makes nothing of a frame but an error leaves the instances
as they were. -/
theorem refused_submit [DecidableEq Instance] {message : String} :
    Refused before { before.quiet user with
      toState := (before.quiet user).toState.submit server user
        ((before.quiet user).servers server).recentMsgIds (some (.error message)) none } := by
  refine ⟨⟨message, rfl⟩, ⟨?_, rfl, rfl, rfl, rfl, rfl, rfl, rfl, rfl⟩⟩
  simp [State.submit, State.setServer, World.quiet, State.quiet]

/-! ## Handlers whose checks are in `MessageHandlers` -/

/-- The first read of checks that do not throw succeeds. -/
theorem read_of_typed {α β : Type} {read : Option α} {rest : α → Except FrameError β}
    (typed : (orThrow read >>= rest) ≠ .error .illTyped) : ∃ value, read = some value ∧ rest value ≠ .error .illTyped := by
  cases read with
  | none => exact absurd rfl typed
  | some value => exact ⟨value, rfl, typed⟩

theorem reads_of_checkFileArguments (typed : checkFileArguments frame ≠ .error .illTyped) :
    ∃ target url filename fileSize, frame.valueString "to" "" = some target ∧ frame.valueString "url" "" = some url ∧
      frame.valueString "filename" "" = some filename ∧ frame.valueInt "fileSize" 0 = some fileSize := by
  obtain ⟨target, readTo, typed⟩ := read_of_typed typed
  obtain ⟨url, readUrl, typed⟩ := read_of_typed typed
  obtain ⟨filename, readName, typed⟩ := read_of_typed typed
  obtain ⟨fileSize, readSize, _⟩ := read_of_typed typed
  exact ⟨target, url, filename, fileSize, readTo, readUrl, readName, readSize⟩

theorem checkFileArguments_of_reads {target url filename : String} {fileSize : Int}
    (readTo : frame.valueString "to" "" = some target) (readUrl : frame.valueString "url" "" = some url)
    (readName : frame.valueString "filename" "" = some filename)
    (readSize : frame.valueInt "fileSize" 0 = some fileSize) :
    checkFileArguments frame = if target = "" ∨ url = "" then .error (.refused "missing 'to' or 'url'")
      else .ok { target, url, filename, fileSize } := by
  rw [checkFileArguments, readTo, readUrl, readName, readSize]
  rfl

theorem handleFileMessage_isSome [DecidableEq Instance] {world : World Instance Session} :
    (world.handleFileMessage server user frame arrival).isSome ↔ checkFileArguments frame ≠ .error .illTyped := by
  rw [World.handleFileMessage]
  split
  · simp_all
  · simp_all

theorem checkFileArguments_typed :
    checkFileArguments (.object members) ≠ .error .illTyped ↔ Fits (.object members) .fileMsg := by
  have number : ((Json.object members).valueInt "fileSize" 0).isSome ↔
      (Json.object members).NumberOrAbsent "fileSize" := by
    rw [Json.valueInt_isSome]
    exact and_iff_right ⟨members, rfl⟩
  simp only [Fits, List.forall_mem_cons, List.not_mem_nil, false_imp_iff, implies_true, and_true, ← isSome_read,
    ← number]
  constructor
  · intro typed
    obtain ⟨target, url, filename, fileSize, readTo, readUrl, readName, readSize⟩ := reads_of_checkFileArguments typed
    simp [readTo, readUrl, readName, readSize]
  · intro fits
    simp only [Option.isSome_iff_exists] at fits
    obtain ⟨⟨⟨target, readTo⟩, ⟨url, readUrl⟩, ⟨filename, readName⟩⟩, fileSize, readSize⟩ := fits
    rw [checkFileArguments_of_reads readTo readUrl readName readSize]
    split <;> simp

theorem handleFileMessage_refusesIf [DecidableEq Instance] :
    RefusesIf (Lacks .fileMsg (.object members)) before
      ((before.quiet user).handleFileMessage server user (.object members) arrival) ↔
        Fits (.object members) .fileMsg := by
  rw [refusesIf_checked, handleFileMessage_isSome, checkFileArguments_typed]
  intro after result lacks
  have typed := handleFileMessage_isSome.mp (Option.isSome_iff_exists.mpr ⟨after, result⟩)
  obtain ⟨target, url, filename, fileSize, readTo, readUrl, readName, readSize⟩ := reads_of_checkFileArguments typed
  have missing : target = "" ∨ url = "" := empty_of_lacks rfl lacks readTo readUrl
  have checked := checkFileArguments_of_reads readTo readUrl readName readSize
  rw [if_pos missing] at checked
  have handled : handleFileMessage (.object members) user arrival = (some (.error "missing 'to' or 'url'"), none) := by
    rw [MessageHandlers.handleFileMessage, checked]
  simp only [World.handleFileMessage, checked, State.submitFile, handled, Option.map_none] at result
  cases result
  exact refused_submit

/-! ## Text messages -/

section

variable {target content replyTo : String} {handler : Handler}

theorem checkArguments_of_reads (invalidTarget : String) (readTo : frame.valueString "to" "" = some target)
    (readContent : frame.valueString "content" "" = some content)
    (readReply : frame.valueString "replyTo" "" = some replyTo) :
    checkArguments invalidTarget frame =
      if target = "" ∨ content = "" then .error (.refused "missing 'to' or 'content'")
      else if content.utf8ByteSize > 10000 then .error (.refused "message too long (max 10000 chars)")
      else if (stoll target).getD 0 ≤ 0 then .error (.refused invalidTarget)
      else (orThrow (frame.valueString "msgId" "")).map
        (fun clientMsgId => { target := (stoll target).getD 0, content, clientMsgId }) := by
  rw [checkArguments, readTo, readContent, readReply]
  rfl

theorem reads_of_checkArguments {invalidTarget : String}
    (typed : checkArguments invalidTarget frame ≠ .error .illTyped) :
    ∃ target content replyTo, frame.valueString "to" "" = some target ∧
      frame.valueString "content" "" = some content ∧ frame.valueString "replyTo" "" = some replyTo := by
  obtain ⟨target, readTo, typed⟩ := read_of_typed typed
  obtain ⟨content, readContent, typed⟩ := read_of_typed typed
  obtain ⟨replyTo, readReply, _⟩ := read_of_typed typed
  exact ⟨target, content, replyTo, readTo, readContent, readReply⟩

theorem passesChecks_iff (readTo : (Json.object members).valueString "to" "" = some target)
    (readContent : (Json.object members).valueString "content" "" = some content) :
    PassesChecks (.object members) ↔ ¬ (target = "" ∨ content = "") ∧ ¬ content.utf8ByteSize > 10000 ∧
      ¬ (stoll target).getD 0 ≤ 0 := by
  constructor
  · intro passes
    obtain ⟨named, written, foundTo, foundContent, nonempty, short, positive⟩ := passes
    rw [Json.valueString_text "" foundTo] at readTo
    rw [Json.valueString_text "" foundContent] at readContent
    cases readTo
    cases readContent
    refine ⟨?_, by omega, by omega⟩
    intro missing
    rcases missing with unnamed | empty
    · rw [unnamed] at positive
      contradiction
    · exact nonempty empty
  · intro passes
    obtain ⟨present, short, positive⟩ := passes
    obtain ⟨named, nonempty⟩ := not_or.mp present
    obtain ⟨_, foundTo⟩ := hasText_of_read readTo named
    obtain ⟨_, foundContent⟩ := hasText_of_read readContent nonempty
    have sameTo := (Json.valueString_text "" foundTo).symm.trans readTo
    have sameContent := (Json.valueString_text "" foundContent).symm.trans readContent
    cases sameTo
    cases sameContent
    exact ⟨target, content, foundTo, foundContent, nonempty, by omega, by omega⟩

/-- A frame whose first fields do not pass is refused, whatever `msgId` is. -/
theorem checkArguments_refused (invalidTarget : String)
    (readTo : (Json.object members).valueString "to" "" = some target)
    (readContent : (Json.object members).valueString "content" "" = some content)
    (readReply : (Json.object members).valueString "replyTo" "" = some replyTo)
    (fails : ¬ PassesChecks (.object members)) :
    ∃ message, checkArguments invalidTarget (.object members) = .error (.refused message) := by
  rw [checkArguments_of_reads _ readTo readContent readReply]
  rw [passesChecks_iff readTo readContent] at fails
  split
  · exact ⟨_, rfl⟩
  · split
    · exact ⟨_, rfl⟩
    · split
      · exact ⟨_, rfl⟩
      · rename_i present short positive
        exact absurd ⟨present, short, positive⟩ fails

/-- A frame whose first fields pass is taken with any text as its `msgId`. -/
theorem checkArguments_passes (invalidTarget : String)
    (readTo : (Json.object members).valueString "to" "" = some target)
    (readContent : (Json.object members).valueString "content" "" = some content)
    (readReply : (Json.object members).valueString "replyTo" "" = some replyTo)
    (passes : PassesChecks (.object members)) :
    checkArguments invalidTarget (.object members) =
      (orThrow ((Json.object members).valueString "msgId" "")).map
        (fun clientMsgId => { target := (stoll target).getD 0, content, clientMsgId }) := by
  obtain ⟨present, short, positive⟩ := (passesChecks_iff readTo readContent).mp passes
  rw [checkArguments_of_reads _ readTo readContent readReply, if_neg present, if_neg short, if_neg positive]

/-- An id that is no duplicate changes the dedup set. -/
theorem isDuplicate_fresh {recentMsgIds next : List String} {msgId : String}
    (fresh : isDuplicate recentMsgIds msgId = (false, next)) : next ≠ recentMsgIds := by
  intro same
  rw [isDuplicate] at fresh
  split at fresh
  · cases fresh
  · split at fresh
    · rename_i full
      cases fresh
      rw [← same] at full
      simp at full
    · cases fresh
      simp at same

theorem handle_refused {moderation : Bool} {recentMsgIds : List String} {message : String}
    (checked : checkArguments handler.invalidTarget frame = .error (.refused message)) :
    handler.handle moderation recentMsgIds frame user arrival = ⟨recentMsgIds, some (.error message), none⟩ := by
  cases handler with
  | privateMessage => rw [Handler.handle, handlePrivateMessage, handleFrame, checked]
  | groupMessage => rw [Handler.handle, handleGroupMessage, handleFrame, checked]

/-- A frame that passes the checks is entered into the dedup set or
acknowledged. -/
theorem handle_taken (moderation : Bool) (recentMsgIds : List String) (user : Int) (arrival : Arrival)
    {arguments : MessageArguments} (checked : checkArguments handler.invalidTarget frame = .ok arguments) :
    (handler.handle moderation recentMsgIds frame user arrival).recentMsgIds ≠ recentMsgIds ∨
      ∃ msgId clientMsgId, (handler.handle moderation recentMsgIds frame user arrival).reply =
        some (.ack msgId clientMsgId) := by
  have taken (blocked : String) (toTask : MessageArguments → MessageHandlers.Task) :
      (handleFrame handler.invalidTarget blocked toTask moderation recentMsgIds frame arrival).recentMsgIds ≠
          recentMsgIds ∨ ∃ msgId clientMsgId,
        (handleFrame handler.invalidTarget blocked toTask moderation recentMsgIds frame arrival).reply =
          some (.ack msgId clientMsgId) := by
    rw [handleFrame, checked]
    dsimp only
    split
    · exact .inr ⟨_, _, rfl⟩
    · rename_i next fresh
      refine .inl ?_
      split
      · exact isDuplicate_fresh fresh
      · split
        · exact isDuplicate_fresh fresh
        · exact isDuplicate_fresh fresh
  cases handler with
  | privateMessage => exact taken _ _
  | groupMessage => exact taken _ _

variable [DecidableEq Instance] {world : World Instance Session}

theorem handleText_of_typed (typed : checkArguments handler.invalidTarget frame ≠ .error .illTyped) :
    world.handleText server user frame settings device arrival handler = some { world with
      toState := world.toState.submitText settings server user device frame arrival handler } := by
  rw [World.handleText]
  split
  · rename_i threw
    exact absurd threw typed
  · rfl

theorem typed_of_handleText {after : World Instance Session}
    (handled : world.handleText server user frame settings device arrival handler = some after) :
    checkArguments handler.invalidTarget frame ≠ .error .illTyped := by
  intro threw
  rw [World.handleText, threw] at handled
  contradiction

/-- A frame that passes the checks is not refused. -/
theorem not_refused_of_taken {arguments : MessageArguments}
    (checked : checkArguments handler.invalidTarget frame = .ok arguments)
    (handled : (before.quiet user).handleText server user frame settings device arrival handler = some after) :
    ¬ Refused before after := by
  intro refused
  obtain ⟨⟨message, replied⟩, untouched⟩ := refused
  rw [handleText_of_typed (typed_of_handleText handled)] at handled
  cases handled
  rcases handle_taken settings.config.moderation (before.servers server).recentMsgIds user arrival checked with
    entered | acknowledged
  · have same := congrArg ChatServer.recentMsgIds (congrFun untouched.servers server)
    simp only [State.submitText, State.submit, State.setServer, Function.update_self, World.quiet, State.quiet] at same
    exact entered same
  · obtain ⟨msgId, clientMsgId, answered⟩ := acknowledged
    simp only [State.submitText, State.submit, World.quiet, State.quiet] at replied
    rw [answered] at replied
    cases replied

theorem handleText_refusesIf (kind : type = .msg ∨ type = .groupMsg) :
    RefusesIf (Lacks type (.object members)) before
      ((before.quiet user).handleText server user (.object members) settings device arrival handler) ↔
        Fits (.object members) type := by
  have required : requiredFields type = ["to", "content", "msgId"] := by rcases kind with rfl | rfl <;> rfl
  have fits : Fits (.object members) type ↔
      (∀ field ∈ ["to", "content", "replyTo"], (Json.object members).TextOrAbsent field) ∧
        (PassesChecks (.object members) → (Json.object members).HasText "msgId") := by
    rcases kind with rfl | rfl <;> rfl
  simp only [fits, List.forall_mem_cons, List.not_mem_nil, false_imp_iff, implies_true, and_true, ← isSome_read]
  constructor
  · intro total
    obtain ⟨after, result, refuses⟩ := total
    obtain ⟨target, content, replyTo, readTo, readContent, readReply⟩ :=
      reads_of_checkArguments (typed_of_handleText result)
    refine ⟨by simp [readTo, readContent, readReply], ?_⟩
    intro passes
    by_contra missing
    have lacks : Lacks type (.object members) := ⟨"msgId", by simp [required], missing⟩
    have checked := checkArguments_passes handler.invalidTarget readTo readContent readReply passes
    rcases read_of_not_hasText missing with absent | illTyped
    · rw [absent] at checked
      exact not_refused_of_taken checked result (refuses lacks)
    · rw [illTyped] at checked
      exact typed_of_handleText result checked
  · intro described
    obtain ⟨texts, identified⟩ := described
    simp only [Option.isSome_iff_exists] at texts
    obtain ⟨⟨target, readTo⟩, ⟨content, readContent⟩, ⟨replyTo, readReply⟩⟩ := texts
    by_cases passes : PassesChecks (.object members)
    · obtain ⟨clientMsgId, readId⟩ := read_of_text (identified passes)
      have checked := checkArguments_passes handler.invalidTarget readTo readContent readReply passes
      rw [readId] at checked
      refine ⟨_, handleText_of_typed (by rw [checked]; exact (nomatch ·)), ?_⟩
      intro lacks
      obtain ⟨_, _, foundTo, foundContent, _⟩ := passes
      refine absurd ?_ (lacks_iff.mp lacks)
      simp only [required, List.forall_mem_cons, List.not_mem_nil, false_imp_iff, implies_true, and_true]
      exact ⟨⟨_, foundTo⟩, ⟨_, foundContent⟩, identified ⟨_, _, foundTo, foundContent, by assumption⟩⟩
    · obtain ⟨message, checked⟩ := checkArguments_refused handler.invalidTarget readTo readContent readReply
        passes
      refine ⟨_, handleText_of_typed (by rw [checked]; exact (nomatch ·)), ?_⟩
      intro _
      rw [State.submitText, handle_refused checked]
      exact refused_submit

end

/-! ## The message handler -/

variable [DecidableEq Instance]

theorem dispatch_refusesIf :
    RefusesIf (Lacks type (.object members)) before ((before.quiet user).dispatch isOpen server user
      (.object members) answers settings device arrival session type) ↔ Fits (.object members) type := by
  cases type with
  | msg => exact handleText_refusesIf (.inl rfl)
  | groupMsg => exact handleText_refusesIf (.inr rfl)
  | typing => exact handleTyping_refusesIf
  | fileMsg => exact handleFileMessage_refusesIf
  | «recall» => exact handleRecall_refusesIf
  | edit => exact handleEdit_refusesIf
  | reaction => exact handleReaction_refusesIf
  | clientAck => exact handleClientAck_refusesIf
  | readAck => exact handleReadAck_refusesIf (.inl rfl)
  | readSync => exact handleReadAck_refusesIf (.inr rfl)
  | unknown => exact ⟨fun _ => trivial, fun _ => ⟨_, rfl, fun _ => refused_refuse user "unknown message type"⟩⟩

section

variable {parse : String → Option Json} {message : WsMessage}

theorem messageHandler_of_type {name : String} (world : World Instance Session) (authenticated : 0 < user)
    (text : message.isText = true) (parsed : parse message.text = some frame)
    (read : frame.valueString "type" "" = some name) :
    world.messageHandler isOpen server user answers settings device arrival parse session message =
      (world.quiet user).dispatch isOpen server user frame answers settings device arrival session
        (frameType name) := by
  have known : ¬ user ≤ 0 := by omega
  simp [World.messageHandler, text, parsed, read, known]

theorem malformed_iff {name : String} (given : frame.member "type" = some (.string name)) :
    Malformed frame ↔ Lacks (frameType name) frame := by
  constructor
  · intro wrong
    rcases wrong with untyped | ⟨other, found, lacks⟩
    · exact absurd ⟨name, given⟩ untyped
    · rw [given] at found
      cases found
      exact lacks
  · intro lacks
    exact .inr ⟨name, given, lacks⟩

theorem fitsHandler_iff {name : String} (given : (Json.object members).member "type" = some (.string name)) :
    FitsHandler (.object members) ↔ Fits (.object members) (frameType name) := by
  constructor
  · intro fits
    exact fits.2.2 name given
  · intro fits
    refine ⟨⟨members, rfl⟩, .inr ⟨name, given⟩, ?_⟩
    intro other found
    rw [given] at found
    cases found
    exact fits

theorem fitsHandler_of_absent (absent : (Json.object members).member "type" = none) :
    FitsHandler (.object members) := by
  refine ⟨⟨members, rfl⟩, .inl absent, ?_⟩
  intro name given
  rw [absent] at given
  contradiction

/-- The handler of an authenticated session returns, and refuses a malformed
frame, exactly if the frame is as its handler needs it. -/
theorem messageHandler_refusesIf (authenticated : 0 < user) (text : message.isText = true)
    (parsed : parse message.text = some frame) :
    RefusesIf (Malformed frame) before
      (before.messageHandler isOpen server user answers settings device arrival parse session message) ↔
        FitsHandler frame := by
  cases typed : frame.valueString "type" "" with
  | none =>
      have unreadable := Json.valueString_isSome.not.mp (by rw [typed]; exact Bool.false_ne_true)
      constructor
      · intro total
        obtain ⟨after, result, _⟩ := total
        simp [World.messageHandler, text, parsed, typed] at result
      · intro fits
        exact absurd ⟨fits.1, fits.2.1⟩ unreadable
  | some name =>
      obtain ⟨isObject, readable⟩ := Json.valueString_isSome.mp (Option.isSome_of_eq_some typed)
      obtain ⟨members, rfl⟩ := isObject
      rw [messageHandler_of_type before authenticated text parsed typed]
      rcases readable with absent | ⟨own, given⟩
      · -- a missing type is read as the empty text, which names no type
        rw [Json.valueString_absent absent] at typed
        cases typed
        exact iff_of_true ⟨_, rfl, fun _ => refused_refuse user "unknown message type"⟩ (fitsHandler_of_absent absent)
      · have same : own = name := Option.some.inj ((Json.valueString_text "" given).symm.trans typed)
        subst same
        rw [malformed_iff given, fitsHandler_iff given, dispatch_refusesIf]

/-- A recall without `msgId` is refused. -/
theorem messageHandler_refusesIf_recall :
    RefusesIf (Malformed (.object [("type", .string "recall")])) ({} : World Unit Unit)
      (World.messageHandler {} (fun _ => true) () 7 {} { dump := fun _ => "null", weightString := Text.codePoints } "default"
        { msgId := "172263581197272608" }
        (fun text => if text = "\x7b\"type\":\"recall\"\x7d" then some (.object [("type", .string "recall")]) else none)
        () { text := "\x7b\"type\":\"recall\"\x7d" }) := by
  refine (messageHandler_refusesIf (by decide) rfl (if_pos rfl)).mpr ⟨⟨_, rfl⟩, .inr ⟨_, rfl⟩, ?_⟩
  intro type found
  cases found
  exact .inl rfl

/-- A typing frame without `to` gets no error frame. -/
theorem typing_is_ignored :
    ¬ RefusesIf (Malformed (.object [("type", .string "typing")])) ({} : World Unit Unit)
      (World.messageHandler {} (fun _ => true) () 7 {} { dump := fun _ => "null", weightString := Text.codePoints } "default"
        { msgId := "172263581197272608" }
        (fun text => if text = "\x7b\"type\":\"typing\"\x7d" then some (.object [("type", .string "typing")]) else none)
        () { text := "\x7b\"type\":\"typing\"\x7d" }) := by
  intro total
  obtain ⟨after, result, refuses⟩ := total
  change some (World.quiet {} 7) = some after at result
  cases result
  have missing : ¬ (Json.object [("type", .string "typing")]).HasText "to" := by
    intro given
    obtain ⟨_, found⟩ := given
    cases found
  obtain ⟨⟨message, replied⟩, _⟩ := refuses (.inr ⟨"typing", rfl, "to", by decide, missing⟩)
  cases replied

end

end MuduoIm.Server.Dispatch
