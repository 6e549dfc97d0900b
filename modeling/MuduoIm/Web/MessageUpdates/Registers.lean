import MuduoIm.Web.MessageUpdates

namespace MuduoIm.Web.MessageUpdates

open MuduoIm.Data MuduoIm.Data.FirstMatch MuduoIm.Data.StableInsert
open MuduoIm.Web.MessageCache (Key isSnow)

/-! # The arrays as registers

What is shown under a server id is the first message with this id.  An insertion
leaves it in front of later copies, so that the arrays and the registers take
the same steps.
-/

variable {client : Client} {key target : Key} {msgId id : String} {arr : List Message} {message : Message}
variable {change : Body → Body} {frame : Frame} {now : ℤ}

theorem messages_insert : (client.insert target message).messages key =
    if key = target then (MessageOrder.insertMessageSorted (client.messages target) message).1
    else client.messages key := by
  rw [Client.messages, Client.insert, Table.lookup_insert_ite]
  split
  · rfl
  · rfl

theorem messages_touch : (client.touch target).messages key = client.messages key := by
  rw [Client.messages, Client.touch, Table.lookup_insert_ite]
  split
  · rename_i same
    rw [same]
    rfl
  · rfl

theorem messages_mapValues (change : List Message → List Message) (nothing : change [] = []) :
    ({ client with messageCache := client.messageCache.mapValues change } : Client).messages key =
      change (client.messages key) := by
  rw [Client.messages, Client.messages, Table.lookup_mapValues]
  cases client.messageCache.lookup key with
  | none => exact nothing.symm
  | some messages => rfl

/-! ## Insertion -/

theorem find?_append_cons (selected : Message → Bool) (before after : List Message) (message : Message) :
    (before ++ message :: after).find? selected =
      (before.find? selected).or (if selected message then some message else after.find? selected) := by
  rw [List.find?_append, List.find?_cons]
  cases selected message <;> rfl

/-- A server id does not compare above itself. -/
theorem not_above_same {other : Message} (snow : isSnow msgId = true) (first : message.msgId = some msgId)
    (second : other.msgId = some msgId) : (MessageOrder.cmpByMsgId other message).aboveZero = false := by
  have snowFirst : message.isSnow = true := by rw [MessageOrder.Message.isSnow, first]; exact snow
  have snowSecond : other.isSnow = true := by rw [MessageOrder.Message.isSnow, second]; exact snow
  have timed : MessageOrder.Timed message := .inl snowFirst
  have timedOther : MessageOrder.Timed other := .inl snowSecond
  have equal : MessageOrder.rank other = MessageOrder.rank message := by
    rw [MessageOrder.rank, MessageOrder.rank, if_pos snowFirst, if_pos snowSecond, first, second]
  rw [Bool.eq_false_iff]
  intro above
  have below := (MessageOrder.aboveZero_iff timedOther timed).mp above
  rw [equal] at below
  exact absurd below (lt_irrefl _)

theorem find?_insertMessageSorted (snow : isSnow msgId = true) :
    (MessageOrder.insertMessageSorted arr message).1.find? (hasId msgId) =
      if message.msgId = some msgId then (arr.find? (hasId msgId)).or (some message)
      else arr.find? (hasId msgId) := by
  rw [MessageOrder.insertMessageSorted_eq]
  dsimp only [insertAt]
  generalize placed : place (fun other => (MessageOrder.cmpByMsgId other message).aboveZero) arr arr.length = index
  have whole : arr.find? (hasId msgId) =
      ((arr.take index).find? (hasId msgId)).or ((arr.drop index).find? (hasId msgId)) := by
    rw [← List.find?_append, List.take_append_drop]
  rw [find?_append_cons, whole]
  by_cases same : message.msgId = some msgId
  · -- what is behind the message is above it, and has another id
    have behind : (arr.drop index).find? (hasId msgId) = none := by
      rw [List.find?_eq_none]
      intro other member matched
      obtain ⟨offset, found⟩ := List.mem_iff_getElem?.mp member
      rw [List.getElem?_drop] at found
      have within : index + offset < arr.length := (List.getElem?_eq_some_iff.mp found).1
      have above := above_of_place_le (by rw [placed]; exact Nat.le_add_right _ _) within found
      rw [not_above_same snow same (of_decide_eq_true matched)] at above
      cases above
    have here : hasId msgId message = true := decide_eq_true same
    rw [if_pos same, behind, Option.or_none, if_pos here]
  · have elsewhere : hasId msgId message = false := decide_eq_false same
    rw [if_neg same, elsewhere, if_neg Bool.false_ne_true]

theorem view_insert (snow : isSnow msgId = true) {timestamp : Option Number} {body : Body} :
    (client.insert target { msgId := some id, timestamp, rest := body }).view key msgId =
      if target = key ∧ id = msgId then (client.view key msgId).or (some body.shown) else client.view key msgId := by
  rw [Client.view, messages_insert]
  by_cases here : key = target
  · rw [if_pos here, find?_insertMessageSorted snow, here]
    by_cases same : id = msgId
    · rw [if_pos (congrArg some same), if_pos ⟨rfl, same⟩, Client.view]
      cases (client.messages target).find? (hasId msgId) <;> rfl
    · rw [if_neg (fun equal => same (Option.some.inj equal)), if_neg (fun both => same both.2)]
      rfl
  · rw [if_neg here, if_neg (fun both => here both.1.symm)]
    rfl

/-! ## Changes -/

theorem view_update : (client.update id change).view key msgId =
    if id = msgId then ((client.messages key).find? (hasId msgId)).map (fun message => (change message.rest).shown)
    else client.view key msgId := by
  rw [Client.view, Client.update, messages_mapValues _ rfl]
  by_cases same : id = msgId
  · have stays (message : Message) (matched : hasId msgId message = true) :
        hasId msgId (onBody change message) = true := matched
    rw [if_pos same, same, find?_updateFirst stays, Option.map_map]
    rfl
  · have apart (message : Message) (matched : hasId id message = true) :
        hasId msgId message = false ∧ hasId msgId (onBody change message) = false := by
      have known : message.msgId = some id := of_decide_eq_true matched
      have other : ¬ message.msgId = some msgId := by
        rw [known]
        exact fun equal => same (Option.some.inj equal)
      exact ⟨decide_eq_false other, decide_eq_false other⟩
    rw [if_neg same, find?_updateFirst_of_other apart]
    rfl

/-- A change of the body that shows as a change of what is shown. -/
theorem view_update_of_shown {changeShown : Shown → Shown} (shows : ∀ body, (change body).shown = changeShown body.shown) :
    (client.update id change).view key msgId =
      if id = msgId then (client.view key msgId).map changeShown else client.view key msgId := by
  rw [view_update, Client.view, Option.map_map]
  simp only [shows]
  rfl

/-- A change of every message that keeps the ids and what is shown. -/
theorem find?_map_shown {translate : Message → Message}
    (keeps : ∀ message, hasId msgId (translate message) = hasId msgId message)
    (shows : ∀ message, (translate message).rest.shown = message.rest.shown) :
    ((arr.map translate).find? (hasId msgId)).map (fun message => message.rest.shown) =
      (arr.find? (hasId msgId)).map (fun message => message.rest.shown) := by
  have sameTest : hasId msgId ∘ translate = hasId msgId := funext keeps
  rw [List.find?_map, sameTest, Option.map_map]
  exact congrArg (fun show_ => (arr.find? (hasId msgId)).map show_) (funext shows)

theorem markRead_keeps (msgId : String) (userId : ℤ) (message : Message) :
    hasId msgId (markRead userId message) = hasId msgId message ∧
      (markRead userId message).rest.shown = message.rest.shown := by
  unfold markRead
  split <;> exact ⟨rfl, rfl⟩

theorem markUntil_shown (userId : ℤ) (lastMsgId : String) :
    ((markUntil userId lastMsgId arr).1.find? (hasId msgId)).map (fun message => message.rest.shown) =
      (arr.find? (hasId msgId)).map (fun message => message.rest.shown) := by
  induction arr with
  | nil => rfl
  | cons message rest ih =>
      obtain ⟨keeps, shows⟩ := markRead_keeps msgId userId message
      rw [markUntil]
      split
      · rw [List.find?_cons, List.find?_cons, keeps]
        cases hasId msgId message with
        | true => exact congrArg some shows
        | false => rfl
      · dsimp only
        rw [List.find?_cons, List.find?_cons, keeps]
        cases hasId msgId message with
        | true => exact congrArg some shows
        | false => exact ih

theorem handleReadAck_shown (userId : ℤ) (lastMsgId : String) :
    ((handleReadAck userId lastMsgId arr).find? (hasId msgId)).map (fun message => message.rest.shown) =
      (arr.find? (hasId msgId)).map (fun message => message.rest.shown) := by
  have marked := @markUntil_shown msgId arr userId lastMsgId
  simp only [handleReadAck]
  cases (markUntil userId lastMsgId arr).2 with
  | true => exact marked
  | false =>
      have again := @find?_map_shown msgId (markUntil userId lastMsgId arr).1 (markRead userId)
        (fun message => (markRead_keeps msgId userId message).1)
        (fun message => (markRead_keeps msgId userId message).2)
      exact again.trans marked

/-! ## Frames -/

/-- The frame does not give the id to another message, or another id to its message. -/
def Frame.Spares (msgId : String) : Frame → Prop
  | .ack clientMsgId real => clientMsgId ≠ msgId ∧ real ≠ msgId
  | _ => True

/-- The page takes the steps of its registers. -/
theorem view_handle (snow : isSnow msgId = true) (spares : frame.Spares msgId) :
    (client.handle now frame).view key msgId =
      frame.shownStep client.userId now key msgId (client.view key msgId) := by
  have touched (target : Key) : (client.touch target).view key msgId = client.view key msgId := by
    rw [Client.view, messages_touch]
    rfl
  cases frame with
  | msg id fromId toId content replyTo timestamp => exact view_insert snow
  | groupMsg id fromId toId content replyTo timestamp mention mentions =>
      by_cases own : fromId = client.userId
      · simp only [Client.handle, Frame.shownStep, Frame.brings, Frame.changes, if_pos own]
        exact touched _
      · simp only [Client.handle, Frame.shownStep, Frame.brings, Frame.changes, if_neg own]
        exact view_insert snow
  | fileMsg id fromId toId groupId filename url fileSize timestamp =>
      by_cases own : fromId = client.userId
      · simp only [Client.handle, Frame.shownStep, Frame.brings, Frame.changes, if_pos own]
        exact touched _
      · simp only [Client.handle, Frame.shownStep, Frame.brings, Frame.changes, if_neg own]
        exact view_insert snow
  | ack clientMsgId real =>
      simp only [Client.handle, Frame.shownStep, Frame.brings, Frame.changes]
      split
      · rw [Client.view, messages_mapValues _ rfl]
        refine find?_map_shown (fun message => ?_) fun _ => rfl
        unfold hasId rename
        dsimp only
        split
        · rename_i renamed
          rw [renamed]
          simp [spares.1, spares.2]
        · rfl
      · rfl
  | delivered id deliveredAt deliveredCount =>
      simp only [Client.handle, Frame.shownStep, Frame.brings, Frame.changes]
      rw [view_update, Client.view]
      split
      · rfl
      · rfl
  | reactionUpdate id reactions => exact view_update_of_shown fun _ => rfl
  | edit id newBody editedAt => exact view_update_of_shown fun _ => rfl
  | «recall» id => exact view_update_of_shown fun _ => rfl
  | readAck fromId lastMsgId =>
      simp only [Client.handle, Frame.shownStep, Frame.brings, Frame.changes]
      split
      · rw [Client.view, Client.messages, Table.lookup_insert_ite]
        split
        · rename_i here
          rw [Option.getD_some, handleReadAck_shown, here]
          rfl
        · rfl
      · rfl

theorem userId_handle : (client.handle now frame).userId = client.userId := by
  cases frame <;> simp only [Client.handle] <;> repeat' split
  all_goals rfl

end MuduoIm.Web.MessageUpdates
