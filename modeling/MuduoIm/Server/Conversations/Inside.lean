import MuduoIm.Server.Conversations.Filing

namespace MuduoIm.Server.Conversations

open MuduoIm.Data MuduoIm.Transition MuduoIm.Server MuduoIm.Server.MessageHandlers
open MuduoIm.Server.MessageQueue MuduoIm.Server.Recall MuduoIm.Server.Delivery

/-! # Pushes stay inside the conversation -/

/-! ## What a push must meet -/

section

variable {Instance Session : Type} (state : State Instance Session)

variable (isOpen : Session → Bool) (server : Instance)

end

variable {Instance Session : Type} {state next : State Instance Session} {isOpen : Session → Bool}
variable {server : Instance} {user : Int} {session : Session} {msgId : String} {edited : Records}

/-! ## Pushes -/

section

variable {managers : Instance → OnlineManager Session} {userIds : List Int} {userId : Int} {frame : Frame}
variable {reply : Option Reply} {inserted : Option Reaction} {unread : Unread}

end

variable {settings : Settings} {work : WorkOutcome Instance}

variable [DecidableEq Instance] {frame : Json} {arrival : Arrival} {answers : Answers} {device : String}

end MuduoIm.Server.Conversations
