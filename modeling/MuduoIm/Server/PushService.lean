import MuduoIm.Moderation.ContentModerationService
import MuduoIm.Server.Protocol

namespace MuduoIm.Server.PushService

open MuduoIm.Data MuduoIm.Data.Excerpts MuduoIm.Server

/-! # Notifications of users who are offline

The worker that delivers a message without reaching anybody pushes a job for
each device of the receiver.  The body of the notification is cut from the
content of the message at a fixed byte, and so is the sample in the log of the
moderation.
-/

/-- A row of `user_devices`; a NULL token is the empty string. -/
structure PushTarget where
  deviceId : String
  deviceType : String
  apnsToken : String
  fcmToken : String
deriving DecidableEq, Repr

structure PushJob where
  uid : Int
  target : PushTarget
  title : String
  body : ByteArray
  data : Json

/-- `none` when it throws, at a text that is not UTF-8; else the job stands for
its text. -/
def PushJob.dump (job : PushJob) : Option PushJob := if job.body.IsValidUTF8 then some job else none

/-- The jobs that are pushed to `push_queue`, or `none` when it throws.  Without
a connection there are none. -/
def notifyOffline (reachable : Bool) (targets : List PushTarget) (uid : Int) (title : String) (body : ByteArray)
    (data : Json) : Option (List PushJob) :=
  if targets.isEmpty || !reachable then some []
  else (targets.filter (fun target => !(target.apnsToken.isEmpty && target.fcmToken.isEmpty))).mapM fun target =>
    PushJob.dump { uid, target, title, body, data }

/-- The body that the handler of a private message passes on. -/
def notificationBody (content : String) : ByteArray := cut 50 "..." content

/-- The call in the handler of a private message. -/
def pushOffline (reachable : Bool) (targets : List PushTarget) (message : PrivateMessage) : Option (List PushJob) :=
  notifyOffline reachable targets message.toUser "新消息" (notificationBody message.content) (.object [
    ("convType", .string "private"), ("from", .string (toString message.fromUser)), ("msgId", .string message.msgId)])

variable {reachable : Bool} {targets : List PushTarget} {uid : Int} {title : String} {body : ByteArray} {data : Json}

theorem notifyOffline_valid (valid : body.IsValidUTF8) : notifyOffline reachable targets uid title body data ≠ none := by
  rw [notifyOffline]
  split
  · nofun
  · have dumps (target : PushTarget) : PushJob.dump { uid, target, title, body, data } =
        some { uid, target, title, body, data } := if_pos valid
    simp only [dumps]
    generalize targets.filter _ = listed
    have pushed : listed.mapM (fun target => some ({ uid, target, title, body, data } : PushJob)) =
        some (listed.map fun target => { uid, target, title, body, data }) := List.mapM_pure
    rw [pushed]
    nofun

/-- A device with a token makes an invalid body throw. -/
theorem notifyOffline_invalid (invalid : ¬body.IsValidUTF8) :
    notifyOffline true [⟨"phone", "ios", "token", ""⟩] uid title body data = none := by
  have throws : PushJob.dump { uid, target := ⟨"phone", "ios", "token", ""⟩, title, body, data } = none := if_neg invalid
  have reached : notifyOffline true [⟨"phone", "ios", "token", ""⟩] uid title body data =
      [(⟨"phone", "ios", "token", ""⟩ : PushTarget)].mapM fun target =>
        PushJob.dump { uid, target, title, body, data } := rfl
  rw [reached, List.mapM_cons, throws]
  rfl

/-- The notification and the sample are made of whole characters, and the job
can be dumped for all devices, exactly if a character starts at both cuts. -/
theorem excerpts_of_content_iff (message : PrivateMessage) :
    (IsExcerpt 50 "..." message.content (notificationBody message.content) ∧
      (∀ uid contentType result reason matched nsfwScore, IsExcerpt 200 "" message.content
        (Moderation.ContentModerationService.logModeration uid contentType message.content result reason matched
          nsfwScore).contentSample) ∧
      ∀ reachable targets, pushOffline reachable targets message ≠ none) ↔
      Uncut 50 message.content ∧ Uncut 200 message.content := by
  constructor
  · intro excerpts
    obtain ⟨notification, sample, _⟩ := excerpts
    exact ⟨cut_isExcerpt_iff.mp notification, cut_isExcerpt_iff.mp (sample 0 "" .pass "" [] "")⟩
  · intro uncut
    obtain ⟨notification, sample⟩ := uncut
    exact ⟨cut_isExcerpt_iff.mpr notification, fun _ _ _ _ _ _ => cut_isExcerpt_iff.mpr sample,
      fun _ _ => notifyOffline_valid (cut_valid_iff.mpr notification)⟩

/-- Seventeen characters of three bytes each. -/
def seventeen : PrivateMessage := ⟨"m", 1, 2, "一二三四五六七八九十一二三四五六七", 0⟩

set_option maxRecDepth 4096 in
theorem seventeen_throws : ¬IsExcerpt 50 "..." seventeen.content (notificationBody seventeen.content) ∧
    pushOffline true [⟨"phone", "ios", "token", ""⟩] seventeen = none := by
  have longer : 50 < seventeen.content.utf8ByteSize := by decide
  have halved : ¬(seventeen.content.toByteArray.extract 0 50).IsValidUTF8 := by decide
  have uncut := (valid_extract_iff longer).not.mp halved
  exact ⟨cut_isExcerpt_iff.not.mpr uncut, notifyOffline_invalid (cut_valid_iff.not.mpr uncut)⟩

end MuduoIm.Server.PushService
