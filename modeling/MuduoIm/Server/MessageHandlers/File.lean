import MuduoIm.Server.MessageHandlers
import MuduoIm.Server.Protocol

namespace MuduoIm.Server.MessageHandlers

open MuduoIm.Data MuduoIm.Server

/-! # The file message handler -/

/-- What the task of a file message captures. -/
structure FileTask where
  msgId : String
  fromUserId : Int
  toUserId : Int
  url : String
  filename : String
  fileSize : Int
  timestamp : Int
deriving DecidableEq, Repr

structure FileArguments where
  target : String
  url : String
  filename : String
  fileSize : Int
deriving DecidableEq, Repr

def checkFileArguments (frame : Json) : Except FrameError FileArguments := do
  let target ← orThrow (frame.valueString "to" "")
  let url ← orThrow (frame.valueString "url" "")
  let filename ← orThrow (frame.valueString "filename" "")
  let fileSize ← orThrow (frame.valueInt "fileSize" 0)
  if target = "" ∨ url = "" then .error (.refused "missing 'to' or 'url'")
  else .ok { target, url, filename, fileSize }

/-- The fast path: what is answered at once, and the task.  A `to` that is no
number is taken for the user 0. -/
def handleFileMessage (frame : Json) (fromUserId : Int) (arrival : Arrival) :
    Option Reply × Option FileTask :=
  match checkFileArguments frame with
  | .error .illTyped => (none, none)
  | .error (.refused message) => (some (.error message), none)
  | .ok arguments =>
      if arrival.submitted then
        (none, some {
          msgId := arrival.msgId, fromUserId, toUserId := (stoll arguments.target).getD 0
          url := arguments.url, filename := arguments.filename, fileSize := arguments.fileSize
          timestamp := arrival.now })
      else (some (.error "server busy, retry later"), none)

namespace FileTask

/-- The row that is saved; its content is a dump. -/
def row (dump : Json → String) (task : FileTask) : PrivateMessage where
  msgId := task.msgId
  fromUser := task.fromUserId
  toUser := task.toUserId
  content := dump (.object [("fileSize", .integer task.fileSize),
    ("filename", .string task.filename), ("url", .string task.url)])
  timestamp := task.timestamp

/-- The frame for the receiver; `now` is the time when it is made. -/
def frame (task : FileTask) (now : Int) : Frame :=
  .fileMsg task.fromUserId task.toUserId task.url task.filename task.fileSize task.msgId now

end FileTask

theorem handleFileMessage_msgId {frame : Json} {fromUserId : Int} {arrival : Arrival} {task : FileTask}
    (handed : (handleFileMessage frame fromUserId arrival).2 = some task) : task.msgId = arrival.msgId := by
  simp only [handleFileMessage] at handed
  split at handed
  · cases handed
  · cases handed
  · split at handed
    · cases handed
      rfl
    · cases handed

end MuduoIm.Server.MessageHandlers
