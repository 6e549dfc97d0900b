import MuduoIm.Gateway.LogicClientPool
import MuduoIm.Logic.HandleMessage

namespace MuduoIm.Gateway.Retry

open MuduoIm.Data MuduoIm.Logic MuduoIm.Server MuduoIm.Logic.HandleMessage

/-! # A frame that is sent to a second logic instance

A call that ends as unavailable, or at its deadline, is repeated once at
another logic instance.  What the caller sees does not tell what the first one
has done or is still to do.
-/

inductive Code where
  | ok
  | unavailable
  | deadlineExceeded
  | other
deriving DecidableEq, Repr

structure Status where
  code : Code
  message : String := ""
deriving DecidableEq, Repr

def Status.retried (status : Status) : Bool :=
  status.code = .unavailable ∨ status.code = .deadlineExceeded

/-- One call of a logic client: whether its breaker lets the call through,
whether the request gets to the handler, what the handler meets, and what the
stub returns, in any combination. -/
structure Attempt where
  allows : Bool := true
  reached : Bool := true
  surroundings : Surroundings
  seen : Status

def Attempt.status (attempt : Attempt) (addr : String) : Status :=
  if attempt.allows then attempt.seen
  else { code := .unavailable, message := "circuit breaker open for " ++ addr }

/-- What the calls for one frame have done.  A push is listed with the logic
instance that made it. -/
structure Effects where
  tables : MessageTables := {}
  pushes : List (String × Push) := []

structure Result where
  status : Status
  reply : Option String := none
  effects : Effects

/-- What a call of the pool meets.  `primaryAddr` is the answer of the rings,
`traversal` the order in which the clients are scanned, `healthyNear` and
`healthy` the answers of the breakers in the two scans.  With `late` the handler
of the primary does its work only after that of the backup. -/
structure Environment where
  primaryAddr : Option String
  traversal : List String
  healthyNear : String → Bool := fun _ => true
  healthy : String → Bool := fun _ => true
  primary : Attempt
  backup : Attempt
  late : Bool := false

/-- The backup: in the same zone, or else anywhere. -/
def Environment.selectBackup (environment : Environment) (pool : LogicClientPool) (localAz : String)
    (primaryAddr : String) : Option String :=
  let near :=
    if localAz = "" then none
    else environment.traversal.find? (fun addr => decide (addr ≠ primaryAddr) &&
      environment.healthyNear addr && decide (pool.addrToAz.lookup addr = some localAz))
  near.or (environment.traversal.find? (fun addr =>
    decide (addr ≠ primaryAddr) && environment.healthy addr))

section

variable (codec : JsonCodec) (registries : String → GatewayRegistry)
variable (uid : Int) (payload : String)

/-- The handler's part of a call, at the logic instance with this address. -/
def outcome (addr : String) (attempt : Attempt) (tables : MessageTables) : Outcome :=
  if attempt.allows && attempt.reached then
    HandleMessage.handleMessage codec (registries addr) tables uid attempt.surroundings payload
  else { response := none, tables }

def serve (addr : String) (attempt : Attempt) (effects : Effects) : Effects where
  tables := (outcome codec registries uid payload addr attempt effects.tables).tables
  pushes := effects.pushes ++
    ((outcome codec registries uid payload addr attempt effects.tables).push.map (fun push => (addr, push))).toList

/-- What a call leaves in `reply`. -/
def replyOf (addr : String) (attempt : Attempt) (effects : Effects) : Option String :=
  if (attempt.status addr).code = .ok then
    some (((outcome codec registries uid payload addr attempt effects.tables).response.map
      MessageResponse.inlineReply).getD "")
  else none

def handleMessage (pool : LogicClientPool) (localAz : String) (environment : Environment)
    (effects : Effects) : Result :=
  match environment.primaryAddr with
  | none => { status := { code := .unavailable, message := "no logic instance" }, effects }
  | some primaryAddr =>
      if primaryAddr ∈ pool.clients then
        let primary := serve codec registries uid payload primaryAddr environment.primary
        let status := environment.primary.status primaryAddr
        if status.retried then
          match environment.selectBackup pool localAz primaryAddr with
          | none => { status, effects := primary effects }
          | some addr =>
              let backup := serve codec registries uid payload addr environment.backup
              let before := if environment.late then effects else primary effects
              { status := environment.backup.status addr
                reply := replyOf codec registries uid payload addr environment.backup before
                effects := if environment.late then primary (backup effects) else backup (primary effects) }
        else {
          status
          reply := replyOf codec registries uid payload primaryAddr environment.primary effects
          effects := primary effects }
      else { status := { code := .unavailable, message := "no client for " ++ primaryAddr }, effects }

/-- The frame has added at most one row and has been pushed at most once. -/
def AtMostOnce (before : Effects) (result : Result) : Prop :=
  result.effects.tables.privateMessages.length ≤ before.tables.privateMessages.length + 1 ∧
    result.effects.pushes.length ≤ before.pushes.length + 1

/-- The row that an attempt inserts. -/
def stored (attempt : Attempt) (tables : MessageTables) : Option PrivateMessage :=
  if attempt.allows && attempt.reached then
    (messageIn codec uid attempt.surroundings payload).filter (fun message =>
      (tables.savePrivateMessage attempt.surroundings.reachable message).1)
  else none

/-- The backup of a call whose primary is retried. -/
def Environment.retriedAt (environment : Environment) (pool : LogicClientPool) (localAz : String) :
    Option String :=
  match environment.primaryAddr with
  | none => none
  | some primaryAddr =>
      if primaryAddr ∈ pool.clients ∧ (environment.primary.status primaryAddr).retried = true then
        environment.selectBackup pool localAz primaryAddr
      else none

/-- The call is repeated at a backup, and both logic instances store the
message, each under an id of its own. -/
def StoresTwice (pool : LogicClientPool) (localAz : String) (environment : Environment)
    (tables : MessageTables) : Prop :=
  ∃ addr first second, environment.retriedAt pool localAz = some addr ∧
    stored codec uid payload environment.primary tables = some first ∧
    stored codec uid payload environment.backup tables = some second ∧ first.msgId ≠ second.msgId

end

variable {codec : JsonCodec} {registries : String → GatewayRegistry} {uid : Int} {payload : String}
variable {tables : MessageTables} {attempt : Attempt} {effects : Effects} {addr : String}
variable {message : PrivateMessage} {reachable : Bool}

theorem save_privateMessages : (tables.savePrivateMessage reachable message).2.privateMessages =
    tables.privateMessages ++ if (tables.savePrivateMessage reachable message).1 then [message] else [] := by
  rw [MessageTables.savePrivateMessage]
  split
  · rfl
  · simp

/-- Another row in the table refuses only a message with its id. -/
theorem save_after {added : PrivateMessage} {later : MessageTables}
    (appended : later.privateMessages = tables.privateMessages ++ [added]) :
    (later.savePrivateMessage reachable message).1 =
      ((tables.savePrivateMessage reachable message).1 && decide (added.msgId ≠ message.msgId)) := by
  have fresh : (∀ row ∈ later.privateMessages, row.msgId ≠ message.msgId) ↔
      (∀ row ∈ tables.privateMessages, row.msgId ≠ message.msgId) ∧ added.msgId ≠ message.msgId := by
    rw [appended, List.forall_mem_append]
    simp
  have saves (tables : MessageTables) : (tables.savePrivateMessage reachable message).1 =
      decide (reachable ∧ ∀ row ∈ tables.privateMessages, row.msgId ≠ message.msgId) := by
    rw [MessageTables.savePrivateMessage]
    split
    · rename_i saved
      exact (decide_eq_true saved).symm
    · rename_i refused
      exact (decide_eq_false refused).symm
  rw [saves, saves, ← Bool.decide_and, decide_eq_decide, fresh, and_assoc]

theorem rows_outcome : (outcome codec registries uid payload addr attempt tables).tables.privateMessages =
    tables.privateMessages ++ (stored codec uid payload attempt tables).toList := by
  rw [outcome, stored]
  split
  · have spec := @handleMessage_spec codec (registries addr) tables uid attempt.surroundings payload
    cases given : messageIn codec uid attempt.surroundings payload with
    | none =>
        rw [given] at spec
        rw [spec.1]
        simp
    | some message =>
        rw [given] at spec
        rw [spec.1, save_privateMessages, Option.filter_some]
        split
        · rfl
        · rfl
  · simp

/-- Only a call that stores its message pushes it. -/
theorem push_outcome (unstored : stored codec uid payload attempt tables = none) :
    (outcome codec registries uid payload addr attempt tables).push = none := by
  rw [stored] at unstored
  rw [outcome]
  split
  · rename_i served
    rw [if_pos served] at unstored
    have spec := @handleMessage_spec codec (registries addr) tables uid attempt.surroundings payload
    cases given : messageIn codec uid attempt.surroundings payload with
    | none =>
        rw [given] at spec
        exact spec.2
    | some message =>
        rw [given] at spec unstored
        apply spec.2
        rw [Option.filter_some] at unstored
        split at unstored
        · cases unstored
        · rename_i refused
          exact Bool.eq_false_iff.mpr refused
  · rfl

theorem rows_serve : (serve codec registries uid payload addr attempt effects).tables.privateMessages =
    effects.tables.privateMessages ++ (stored codec uid payload attempt effects.tables).toList :=
  rows_outcome

theorem pushes_serve : (serve codec registries uid payload addr attempt effects).pushes.length ≤
    effects.pushes.length + (stored codec uid payload attempt effects.tables).toList.length := by
  rw [serve, List.length_append]
  cases unstored : stored codec uid payload attempt effects.tables with
  | none =>
      rw [push_outcome unstored]
      simp
  | some message =>
      cases (outcome codec registries uid payload addr attempt effects.tables).push with
      | none => simp
      | some push => simp

/-- What an attempt stores once another row has been added. -/
theorem stored_after {later : MessageTables} {added : Option PrivateMessage}
    (rows : later.privateMessages = tables.privateMessages ++ added.toList) :
    stored codec uid payload attempt later = (stored codec uid payload attempt tables).filter
      (fun message => added.all (fun first => decide (first.msgId ≠ message.msgId))) := by
  rw [stored, stored]
  split
  · rw [Option.filter_filter]
    congr 1
    funext message
    cases added with
    | none =>
        rw [Option.toList_none, List.append_nil] at rows
        simp only [MessageTables.savePrivateMessage, rows, Option.all_none, Bool.and_true]
        split
        · rfl
        · rfl
    | some first => rw [save_after rows, Option.all_some]
  · rfl

/-- Two rows are added exactly if both attempts store, under different ids. -/
theorem length_stored (one other : Option PrivateMessage) :
    one.toList.length + (other.filter (fun message =>
      one.all (fun first => decide (first.msgId ≠ message.msgId)))).toList.length ≤ 1 ↔
    ¬ ∃ first second, one = some first ∧ other = some second ∧ first.msgId ≠ second.msgId := by
  cases one with
  | none =>
      refine iff_of_true ?_ (by simp)
      cases other with
      | none => simp
      | some second => simp
  | some first =>
      cases other with
      | none => simp
      | some second =>
          by_cases same : first.msgId = second.msgId
          · simp [same, Option.filter_some]
          · simp [same, Option.filter_some]

/-- Two attempts, one served after the other. -/
theorem twice_iff {first second : Attempt} {near far : String} {status : Status} {reply : Option String} :
    AtMostOnce effects ⟨status, reply, serve codec registries uid payload far second
      (serve codec registries uid payload near first effects)⟩ ↔
    ¬ ∃ one other, stored codec uid payload first effects.tables = some one ∧
      stored codec uid payload second effects.tables = some other ∧ one.msgId ≠ other.msgId := by
  have rowsFirst := @rows_serve codec registries uid payload first effects near
  have pushesFirst := @pushes_serve codec registries uid payload first effects near
  have again := @stored_after codec uid payload effects.tables second _ _ rowsFirst
  generalize serve codec registries uid payload near first effects = served at *
  have rowsSecond := @rows_serve codec registries uid payload second served far
  have pushesSecond := @pushes_serve codec registries uid payload second served far
  rw [again, rowsFirst] at rowsSecond
  rw [again] at pushesSecond
  rw [← length_stored, AtMostOnce, rowsSecond, List.length_append, List.length_append]
  dsimp only
  constructor
  · intro bounded
    omega
  · intro bounded
    omega

/-- One attempt. -/
theorem once {status : Status} {reply : Option String} :
    AtMostOnce effects ⟨status, reply, serve codec registries uid payload addr attempt effects⟩ := by
  have rows := @rows_serve codec registries uid payload attempt effects addr
  have pushes := @pushes_serve codec registries uid payload attempt effects addr
  have single : (stored codec uid payload attempt effects.tables).toList.length ≤ 1 := by
    cases stored codec uid payload attempt effects.tables with
    | none => simp
    | some message => simp
  rw [AtMostOnce, rows, List.length_append]
  dsimp only
  omega

/-- A frame is stored at most once, and pushed at most once, exactly if it is
not repeated at a backup with both logic instances storing it. -/
theorem at_most_once_iff (codec : JsonCodec) (registries : String → GatewayRegistry) (uid : Int)
    (payload : String) (pool : LogicClientPool) (localAz : String) (environment : Environment)
    (effects : Effects) :
    AtMostOnce effects (handleMessage codec registries uid payload pool localAz environment effects) ↔
      ¬ StoresTwice codec uid payload pool localAz environment effects.tables := by
  have idle (status : Status) : AtMostOnce effects ⟨status, none, effects⟩ := ⟨by simp, by simp⟩
  cases routed : environment.primaryAddr with
  | none =>
      simp only [handleMessage, StoresTwice, Environment.retriedAt, routed]
      exact iff_of_true (idle _) (by simp)
  | some primaryAddr =>
      by_cases connected : primaryAddr ∈ pool.clients
      · by_cases retried : (environment.primary.status primaryAddr).retried
        · cases selected : environment.selectBackup pool localAz primaryAddr with
          | none =>
              simp only [handleMessage, StoresTwice, Environment.retriedAt, routed, connected, retried,
                selected, and_self, if_true]
              exact iff_of_true once (by simp)
          | some backup =>
              simp only [handleMessage, StoresTwice, Environment.retriedAt, routed, connected, retried,
                selected, and_self, if_true]
              cases environment.late with
              | false =>
                  simp only [Bool.false_eq_true, if_false]
                  rw [twice_iff]
                  simp
              | true =>
                  simp only [if_true]
                  rw [twice_iff, not_iff_not]
                  constructor
                  · intro given
                    obtain ⟨second, first, stores, storesFirst, distinct⟩ := given
                    exact ⟨backup, first, second, rfl, storesFirst, stores, distinct.symm⟩
                  · intro given
                    obtain ⟨_, first, second, _, storesFirst, stores, distinct⟩ := given
                    exact ⟨second, first, stores, storesFirst, distinct.symm⟩
        · simp only [handleMessage, StoresTwice, Environment.retriedAt, routed, connected, retried,
            and_false, if_true, if_false, Bool.false_eq_true]
          exact iff_of_true once (by simp)
      · simp only [handleMessage, StoresTwice, Environment.retriedAt, routed, connected, false_and, if_false]
        exact iff_of_true (idle _) (by simp)

private def frameText : String :=
  "\x7b\"type\":\"msg\",\"to\":\"2\",\"content\":\"hi\"\x7d"

private def ackText : String :=
  "\x7b\"clientMsgId\":\"\",\"serverMsgId\":\"12\",\"timestamp\":0,\"type\":\"ack\"\x7d"

/-- A parser that knows the frame, and a writer for its ack. -/
private def knownFrame : JsonCodec where
  parse text :=
    if text = frameText then
      .ok (.object [("type", .string "msg"), ("to", .string "2"), ("content", .string "hi")])
    else .error "parse error"
  dump _ := ackText

private def twoLogics : LogicClientPool := { clients := ["a:1", "b:1"].toFinset }

/-- The primary stores the message, its answer comes too late, and the backup
stores it again. -/
theorem late_answer_stores_twice :
    ¬ ∀ codec registries uid payload pool localAz environment effects,
      AtMostOnce effects (handleMessage codec registries uid payload pool localAz environment effects) := by
  intro always
  have bounded := always knownFrame (fun _ => {}) 1 frameText twoLogics "" {
    primaryAddr := some "a:1"
    traversal := ["a:1", "b:1"]
    primary := { surroundings := { serverMsgId := 11 }, seen := { code := .deadlineExceeded } }
    backup := { surroundings := { serverMsgId := 12 }, seen := { code := .ok } } } {}
  have rows := bounded.1
  revert rows
  decide

end MuduoIm.Gateway.Retry
