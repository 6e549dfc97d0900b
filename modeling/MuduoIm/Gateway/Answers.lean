import MuduoIm.Gateway.Retry

namespace MuduoIm.Gateway.Answers

open MuduoIm.Data MuduoIm.Logic MuduoIm.Server MuduoIm.Logic.HandleMessage MuduoIm.Gateway.Retry

/-! # The answer to a frame of a client

The gateway looks at the status of the call and at the reply in the response,
but not at the status code that a logic instance puts into the response.
-/

inductive ClientFrame where
  | reply (text : String)
  | logicUnavailable
deriving DecidableEq, Repr

def ClientFrame.text : ClientFrame → String
  | .reply text => text
  | .logicUnavailable => "\x7b\"type\":\"error\",\"code\":\"logic_unavailable\"\x7d"

/-- A gateway has a pool of logic clients, or a single one. -/
inductive Upstream where
  | pooled (pool : LogicClientPool) (localAz : String) (environment : Environment)
  | single (addr : String) (attempt : Attempt)

section

variable (codec : JsonCodec) (registries : String → GatewayRegistry) (uid : Int) (payload : String)

def callHandleMessage (effects : Effects) : Upstream → Result
  | .pooled pool localAz environment =>
      Retry.handleMessage codec registries uid payload pool localAz environment effects
  | .single addr attempt => {
      status := attempt.status addr
      reply := replyOf codec registries uid payload addr attempt effects
      effects := serve codec registries uid payload addr attempt effects }

/-- The frames that the message handler sends after the call. -/
def sent (result : Result) : List ClientFrame :=
  if result.status.code ≠ .ok then [.logicUnavailable]
  else if result.reply.getD "" ≠ "" then [.reply (result.reply.getD "")]
  else []

/-- The client gets one frame: the ack of a row that has been added, or the
error if there is none. -/
structure OneAnswer (before : Effects) (result : Result) : Prop where
  stored : ∀ added, result.effects.tables.privateMessages = before.tables.privateMessages ++ added → added ≠ [] →
    ∃ clientMsgId, ∃ message ∈ added, sent result = [.reply (codec.dump (ack clientMsgId message))]
  refused : result.effects.tables.privateMessages = before.tables.privateMessages → sent result = [.logicUnavailable]

/-- The attempts for one frame.  The gateway gets the status of the last one;
with `late` the handler of the earlier one does its work after that of the last. -/
structure Tries where
  last : Option Attempt := none
  earlier : Option Attempt := none
  late : Bool := false

def Upstream.tries : Upstream → Tries
  | .single _ attempt => { last := some attempt }
  | .pooled pool localAz environment =>
      match environment.primaryAddr with
      | none => {}
      | some primaryAddr =>
          if primaryAddr ∈ pool.clients then
            match environment.retriedAt pool localAz with
            | some _ => {
                last := some environment.backup
                earlier := some environment.primary
                late := environment.late }
            | none => { last := some environment.primary }
          else {}

/-- What the caller of the logic client sees. -/
def code (attempt : Attempt) : Code := if attempt.allows then attempt.seen.code else .unavailable

/-- The frame has a client id that is a string, or none. -/
def Readable : Prop :=
  ∃ frame clientMsgId, codec.parse payload = .ok frame ∧ frame.valueString "clientMsgId" "" = some clientMsgId

/-- The status tells whether the message is stored: if it is OK, the last logic
instance can read the frame and MySQL takes its row, and otherwise none of them
gets so far. -/
def Truthful (tries : Tries) (tables : MessageTables) : Prop :=
  ∀ last, tries.last = some last →
    if code last = .ok then
      Readable codec payload ∧ ∃ message, Retry.stored codec uid payload last tables = some message ∧
        (tries.late = true ∨ ∀ earlier, tries.earlier = some earlier →
          ∀ first, Retry.stored codec uid payload earlier tables = some first → first.msgId ≠ message.msgId)
    else
      Retry.stored codec uid payload last tables = none ∧
        ∀ earlier, tries.earlier = some earlier → Retry.stored codec uid payload earlier tables = none

end

variable {codec : JsonCodec} {registries : String → GatewayRegistry} {uid : Int} {payload : String}
variable {registry : GatewayRegistry} {surroundings : Surroundings}
variable {tables : MessageTables} {attempt : Attempt} {effects before : Effects} {addr : String} {result : Result}
variable {own : Option PrivateMessage} {added : List PrivateMessage}

/-! ## The reply of a logic instance -/

def inlineReply (outcome : Outcome) : String := (outcome.response.map MessageResponse.inlineReply).getD ""

theorem inlineReply_store {frame : Json} {message : PrivateMessage} :
    inlineReply (HandleMessage.store codec registry tables surroundings frame message) =
      if (tables.savePrivateMessage surroundings.reachable message).1 = true then
        ((frame.valueString "clientMsgId" "").map fun clientMsgId => codec.dump (ack clientMsgId message)).getD ""
      else "" := by
  rw [HandleMessage.store]
  split
  · rename_i refused
    rw [refused]
    rfl
  · rename_i saved
    rw [saved, if_pos rfl]
    split
    · rename_i unreadable
      rw [unreadable]
      rfl
    · rename_i clientMsgId given
      rw [given]
      rfl

/-- Only a message that is read and taken has a reply. -/
theorem inlineReply_handleMessage :
    inlineReply (HandleMessage.handleMessage codec registry tables uid surroundings payload) =
      match codec.parse payload, messageIn codec uid surroundings payload with
      | .ok frame, some message => inlineReply (HandleMessage.store codec registry tables surroundings frame message)
      | _, _ => "" := by
  rw [messageIn, HandleMessage.handleMessage]
  cases codec.parse payload with
  | error what => rfl
  | ok frame =>
      dsimp only [handleFrame]
      cases frame.valueString "type" "" with
      | none => rfl
      | some type =>
          by_cases msg : type = "msg"
          · simp only [msg, if_true]
            cases frame.member "to" with
            | none => rfl
            | some receiver =>
                cases frame.member "content" with
                | none => rfl
                | some content =>
                    dsimp only
                    cases messageOf uid surroundings receiver content with
                    | none => rfl
                    | some message => rfl
          · have other : some type ≠ some "msg" := fun same => msg (Option.some.inj same)
            dsimp only
            rw [if_neg msg, if_neg other]
            rfl

/-- The reply of an attempt is the ack of the row that it inserts, if the client
id can be read, and else it is empty. -/
theorem inlineReply_outcome :
    (∃ clientMsgId, ∃ message, Retry.stored codec uid payload attempt tables = some message ∧
        Readable codec payload ∧
        inlineReply (outcome codec registries uid payload addr attempt tables) = codec.dump (ack clientMsgId message)) ∨
      inlineReply (outcome codec registries uid payload addr attempt tables) = "" ∧
        ¬(Readable codec payload ∧ (Retry.stored codec uid payload attempt tables).isSome = true) := by
  rw [outcome, Retry.stored]
  split
  · rw [inlineReply_handleMessage]
    cases parsed : codec.parse payload with
    | error what =>
        refine .inr ⟨rfl, fun both => ?_⟩
        obtain ⟨⟨frame, clientMsgId, found, _⟩, _⟩ := both
        cases parsed.symm.trans found
    | ok frame =>
        cases messageIn codec uid attempt.surroundings payload with
        | none => exact .inr ⟨rfl, fun both => Bool.false_ne_true both.2⟩
        | some message =>
            dsimp only
            rw [inlineReply_store, Option.filter_some]
            split
            · cases given : frame.valueString "clientMsgId" "" with
              | none =>
                  refine .inr ⟨rfl, fun both => ?_⟩
                  obtain ⟨⟨other, clientMsgId, found, readable⟩, _⟩ := both
                  cases parsed.symm.trans found
                  cases given.symm.trans readable
              | some clientMsgId => exact .inl ⟨clientMsgId, message, rfl, ⟨frame, clientMsgId, parsed, given⟩, rfl⟩
            · exact .inr ⟨rfl, fun both => Bool.false_ne_true both.2⟩
  · exact .inr ⟨rfl, fun both => Bool.false_ne_true both.2⟩

/-! ## The answer of the gateway -/

theorem code_status : (attempt.status addr).code = code attempt := by
  unfold Attempt.status code
  split
  · rfl
  · rfl

theorem sent_failed (failed : result.status.code ≠ .ok) : sent result = [.logicUnavailable] := if_pos failed

theorem sent_ok (ok : result.status.code = .ok) {text : String} (reply : result.reply = some text) :
    sent result = if text ≠ "" then [.reply text] else [] := by
  rw [sent, reply, ok]
  rfl

/-- With a failed call the client is told the truth exactly if no row has been
added. -/
theorem oneAnswer_failed_iff
    (rows : result.effects.tables.privateMessages = before.tables.privateMessages ++ added)
    (failed : result.status.code ≠ .ok) : OneAnswer codec before result ↔ added = [] := by
  constructor
  · intro answer
    by_contra filled
    obtain ⟨clientMsgId, message, _, acknowledged⟩ := answer.stored added rows filled
    rw [sent_failed failed] at acknowledged
    cases acknowledged
  · intro empty
    refine ⟨fun others appended filled => ?_, fun _ => sent_failed failed⟩
    rw [rows, empty] at appended
    exact absurd (List.append_cancel_left appended).symm filled

/-- With a call that is OK he gets the one frame exactly if the last attempt has
added its row and can read the client id. -/
theorem oneAnswer_ok_iff (written : ∀ json, codec.dump json ≠ "")
    (rows : result.effects.tables.privateMessages = before.tables.privateMessages ++ added)
    (ok : result.status.code = .ok) (listed : ∀ message, Retry.stored codec uid payload attempt tables = some message →
      message ∈ added)
    (reply : result.reply = some (inlineReply (outcome codec registries uid payload addr attempt tables))) :
    OneAnswer codec before result ↔
      Readable codec payload ∧ ∃ message, Retry.stored codec uid payload attempt tables = some message := by
  have frames := sent_ok ok reply
  rcases @inlineReply_outcome codec registries uid payload tables attempt addr with acknowledged | silent
  · obtain ⟨clientMsgId, message, stores, readable, text⟩ := acknowledged
    rw [text, if_pos (written _)] at frames
    refine iff_of_true ⟨fun others appended _ => ?_, fun same => ?_⟩ ⟨readable, message, stores⟩
    · rw [rows] at appended
      have same := List.append_cancel_left appended
      exact ⟨clientMsgId, message, same ▸ listed message stores, frames⟩
    · rw [rows] at same
      have empty := List.append_right_eq_self.mp same
      exact absurd (listed message stores) (empty ▸ List.not_mem_nil)
  · obtain ⟨text, unacknowledged⟩ := silent
    rw [text, if_neg (not_not.mpr rfl)] at frames
    refine iff_of_false (fun answer => ?_) fun both => unacknowledged ⟨both.1, ?_⟩
    · by_cases filled : added = []
      · rw [filled, List.append_nil] at rows
        have refused := answer.refused rows
        rw [frames] at refused
        cases refused
      · obtain ⟨clientMsgId, message, _, acknowledged⟩ := answer.stored added rows filled
        rw [frames] at acknowledged
        cases acknowledged
    · obtain ⟨message, stores⟩ := both.2
      exact Option.isSome_of_eq_some stores

theorem truthful_ok_iff {tries : Tries} (last : tries.last = some attempt) (ok : code attempt = .ok) :
    Truthful codec uid payload tries tables ↔
      Readable codec payload ∧ ∃ message, Retry.stored codec uid payload attempt tables = some message ∧
        (tries.late = true ∨ ∀ earlier, tries.earlier = some earlier →
          ∀ first, Retry.stored codec uid payload earlier tables = some first → first.msgId ≠ message.msgId) := by
  simp only [Truthful, last, Option.some.injEq, forall_eq', ok, if_true]

theorem truthful_failed_iff {tries : Tries} (last : tries.last = some attempt) (failed : code attempt ≠ .ok) :
    Truthful codec uid payload tries tables ↔
      Retry.stored codec uid payload attempt tables = none ∧
        ∀ earlier, tries.earlier = some earlier → Retry.stored codec uid payload earlier tables = none := by
  simp only [Truthful, last, Option.some.injEq, forall_eq', failed, if_false]

theorem mem_toList {message : PrivateMessage} (stores : own = some message) : message ∈ own.toList :=
  Option.mem_toList.mpr stores

theorem replyOf_ok (ok : (attempt.status addr).code = .ok) :
    replyOf codec registries uid payload addr attempt effects =
      some (inlineReply (outcome codec registries uid payload addr attempt effects.tables)) := if_pos ok

theorem retried_failed {status : Status} (retried : status.retried = true) : status.code ≠ .ok := by
  intro ok
  rw [Status.retried, ok] at retried
  cases of_decide_eq_true retried with
  | inl unavailable => cases unavailable
  | inr late => cases late

/-- One attempt. -/
theorem oneAnswer_single_iff (written : ∀ json, codec.dump json ≠ "") :
    OneAnswer codec before {
        status := attempt.status addr
        reply := replyOf codec registries uid payload addr attempt before
        effects := serve codec registries uid payload addr attempt before } ↔
      Truthful codec uid payload { last := some attempt } before.tables := by
  have rows := @rows_serve codec registries uid payload attempt before addr
  have status := @code_status attempt addr
  by_cases ok : code attempt = .ok
  · rw [ok] at status
    rw [truthful_ok_iff rfl ok, oneAnswer_ok_iff written rows status (fun _ => mem_toList) (replyOf_ok status)]
    simp
  · rw [truthful_failed_iff rfl ok, oneAnswer_failed_iff rows (fun same => ok (status.symm.trans same)),
      Option.toList_eq_nil_iff]
    simp

/-- A row is refused for another one only where that one is stored. -/
theorem neither_stored {first second : Option PrivateMessage} :
    first = none ∧ second.filter (fun message => first.all fun other => decide (other.msgId ≠ message.msgId)) = none ↔
      first = none ∧ second = none := by
  refine and_congr_right fun none => ?_
  rw [none]
  cases second with
  | none => simp
  | some message => simp

variable {primary backup : Attempt} {primaryAddr : String}

/-- The backup answers after the primary has done its work. -/
theorem oneAnswer_backup_iff (written : ∀ json, codec.dump json ≠ "") :
    OneAnswer codec before {
        status := backup.status addr
        reply := replyOf codec registries uid payload addr backup
          (serve codec registries uid payload primaryAddr primary before)
        effects := serve codec registries uid payload addr backup
          (serve codec registries uid payload primaryAddr primary before) } ↔
      Truthful codec uid payload { last := some backup, earlier := some primary } before.tables := by
  have rowsFirst := @rows_serve codec registries uid payload primary before primaryAddr
  have again := @stored_after codec uid payload before.tables backup _ _ rowsFirst
  generalize serve codec registries uid payload primaryAddr primary before = served at *
  have rows := @rows_serve codec registries uid payload backup served addr
  rw [rowsFirst, List.append_assoc] at rows
  have status := @code_status backup addr
  by_cases ok : code backup = .ok
  · rw [ok] at status
    rw [truthful_ok_iff rfl ok, oneAnswer_ok_iff written rows status
      (fun _ stores => List.mem_append_right _ (mem_toList stores)) (replyOf_ok status), again]
    simp only [Option.filter_eq_some_iff, Option.all_eq_true, decide_eq_true_eq, Bool.false_eq_true, false_or,
      Option.some.injEq, forall_eq']
  · rw [truthful_failed_iff rfl ok, oneAnswer_failed_iff rows (fun same => ok (status.symm.trans same)),
      List.append_eq_nil_iff, Option.toList_eq_nil_iff, Option.toList_eq_nil_iff, again, neither_stored, and_comm]
    simp only [Option.some.injEq, forall_eq']

/-- The primary does its work only after the backup has answered. -/
theorem oneAnswer_late_iff (written : ∀ json, codec.dump json ≠ "") :
    OneAnswer codec before {
        status := backup.status addr
        reply := replyOf codec registries uid payload addr backup before
        effects := serve codec registries uid payload primaryAddr primary
          (serve codec registries uid payload addr backup before) } ↔
      Truthful codec uid payload { last := some backup, earlier := some primary, late := true } before.tables := by
  have rowsFirst := @rows_serve codec registries uid payload backup before addr
  have again := @stored_after codec uid payload before.tables primary _ _ rowsFirst
  have rows := @rows_serve codec registries uid payload primary (serve codec registries uid payload addr backup before)
    primaryAddr
  rw [rowsFirst, List.append_assoc] at rows
  have status := @code_status backup addr
  by_cases ok : code backup = .ok
  · rw [ok] at status
    rw [truthful_ok_iff rfl ok, oneAnswer_ok_iff written rows status
      (fun _ stores => List.mem_append_left _ (mem_toList stores)) (replyOf_ok status)]
    simp
  · rw [truthful_failed_iff rfl ok, oneAnswer_failed_iff rows (fun same => ok (status.symm.trans same)),
      List.append_eq_nil_iff, Option.toList_eq_nil_iff, Option.toList_eq_nil_iff, again, neither_stored]
    simp only [Option.some.injEq, forall_eq']

/-- A frame gets its one answer exactly if the status of the call tells whether
its message is stored. -/
theorem oneAnswer_iff_truthful (written : ∀ json, codec.dump json ≠ "") (upstream : Upstream) :
    OneAnswer codec before (callHandleMessage codec registries uid payload before upstream) ↔
      Truthful codec uid payload upstream.tries before.tables := by
  have idle (status : Status) (failed : status.code ≠ .ok) :
      OneAnswer codec before ⟨status, none, before⟩ ↔ Truthful codec uid payload {} before.tables := by
    have rows : (⟨status, none, before⟩ : Result).effects.tables.privateMessages =
        before.tables.privateMessages ++ [] := (List.append_nil _).symm
    exact iff_of_true ((oneAnswer_failed_iff rows failed).mpr rfl) fun last none => by cases none
  cases upstream with
  | single addr attempt => exact oneAnswer_single_iff written
  | pooled pool localAz environment =>
      rw [callHandleMessage, Retry.handleMessage, Upstream.tries]
      cases routed : environment.primaryAddr with
      | none => exact idle _ fun ok => by cases ok
      | some primaryAddr =>
          dsimp only
          by_cases connected : primaryAddr ∈ pool.clients
          · rw [if_pos connected, if_pos connected]
            by_cases retried : (environment.primary.status primaryAddr).retried
            · have repeated : environment.retriedAt pool localAz =
                  environment.selectBackup pool localAz primaryAddr := by
                rw [Environment.retriedAt, routed]
                exact if_pos ⟨connected, retried⟩
              rw [if_pos retried, repeated]
              cases environment.selectBackup pool localAz primaryAddr with
              | none =>
                  have failed := retried_failed retried
                  have silent : replyOf codec registries uid payload primaryAddr environment.primary before = none :=
                    if_neg failed
                  have single := @oneAnswer_single_iff codec registries uid payload environment.primary before
                    primaryAddr written
                  rw [silent] at single
                  exact single
              | some addr =>
                  cases late : environment.late with
                  | false => exact oneAnswer_backup_iff written
                  | true => exact oneAnswer_late_iff written
            · have once : environment.retriedAt pool localAz = none := by
                rw [Environment.retriedAt, routed]
                exact if_neg fun both => retried both.2
              rw [if_neg retried, once]
              exact oneAnswer_single_iff written
          · rw [if_neg connected, if_neg connected]
            exact idle _ fun ok => by cases ok

/-! ## Three frames -/

/-- A parser that knows one frame, and a writer for the ack and the push of it. -/
def wire (text : String) (frame : Json) : JsonCodec where
  parse given := if given = text then .ok frame else .error "parse error"
  dump json :=
    if json.valueString "type" "" = some "ack" then
      "\x7b\"clientMsgId\":\"\",\"serverMsgId\":\"11\",\"timestamp\":0,\"type\":\"ack\"\x7d"
    else
      "\x7b\"content\":\"hi\",\"from\":\"1\",\"msgId\":\"11\",\"timestamp\":0,\"to\":\"2\",\"type\":\"msg\"\x7d"

/-- A gateway with a single logic client, whose call ends with the code. -/
def attemptWith (code : Code) : Attempt where
  surroundings := { serverMsgId := 11 }
  seen := { code }

def callWith (text : String) (frame : Json) (code : Code) : Result :=
  callHandleMessage (wire text frame) (fun _ => {}) 1 text {} (.single "logic:1" (attemptWith code))

def greeting : String × Json :=
  ("\x7b\"type\":\"msg\",\"to\":\"2\",\"content\":\"hi\"\x7d",
    .object [("content", .string "hi"), ("to", .string "2"), ("type", .string "msg")])

def contentless : String × Json :=
  ("\x7b\"type\":\"msg\",\"to\":\"2\"\x7d", .object [("to", .string "2"), ("type", .string "msg")])

def numbered : String × Json :=
  ("\x7b\"type\":\"msg\",\"to\":\"2\",\"content\":\"hi\",\"clientMsgId\":7\x7d",
    .object [("clientMsgId", .integer 7), ("content", .string "hi"), ("to", .string "2"), ("type", .string "msg")])

theorem wire_written (text : String) (frame json : Json) : (wire text frame).dump json ≠ "" := by
  dsimp only [wire]
  split
  · decide
  · decide

theorem greeting_answered :
    OneAnswer (wire greeting.1 greeting.2) {} (callWith greeting.1 greeting.2 .ok) := by
  refine (oneAnswer_iff_truthful (wire_written _ _) _).mpr ((truthful_ok_iff rfl rfl).mpr ?_)
  exact ⟨⟨_, _, rfl, rfl⟩, _, rfl, .inr nofun⟩

/-- A frame without content is refused, and its client hears nothing.  One whose
client id is a number is stored, and its client is told of an error. -/
theorem refused_unanswered :
    (sent (callWith contentless.1 contentless.2 .ok) = [] ∧
      ¬OneAnswer (wire contentless.1 contentless.2) {} (callWith contentless.1 contentless.2 .ok)) ∧
    (sent (callWith numbered.1 numbered.2 .other) = [.logicUnavailable] ∧
      (callWith numbered.1 numbered.2 .other).effects.tables.privateMessages = [⟨"11", 1, 2, "hi", 0⟩] ∧
      ¬OneAnswer (wire numbered.1 numbered.2) {} (callWith numbered.1 numbered.2 .other)) := by
  refine ⟨⟨by decide, fun answer => ?_⟩, by decide, by decide, fun answer => ?_⟩
  · have refused := answer.refused (by decide)
    revert refused
    decide
  · obtain ⟨clientMsgId, message, _, acknowledged⟩ := answer.stored [⟨"11", 1, 2, "hi", 0⟩] (by decide) nofun
    have failed : sent (callWith numbered.1 numbered.2 .other) = [.logicUnavailable] := by decide
    rw [failed] at acknowledged
    cases acknowledged

end MuduoIm.Gateway.Answers
