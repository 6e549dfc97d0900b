import Mathlib.Data.List.Dedup
import MuduoIm.Server.Conversations.Inside

namespace MuduoIm.Server.Conversations

open MuduoIm.Data MuduoIm.Data.Text MuduoIm.Server MuduoIm.Server.MessageHandlers MuduoIm.Server.MessageQueue
open MuduoIm.Server.Delivery

/-! # The conversation that a pushed frame names

The two users of a private message know their conversation by different names,
each by the id of the other.  The frames about an edit or a reaction are written
once and sent to both.
-/

namespace Conversation

def kind : Conversation → ConvType
  | .direct _ _ => .privateChat
  | .group _ => .group

end Conversation

section

variable (weightString : String → List Nat)

end

section

variable {Instance Session : Type} (managers : Instance → OnlineManager Session) (isOpen : Session → Bool)
variable (server : Instance) (user : Int)

variable (weightString : String → List Nat)

end

variable {Instance Session : Type} {managers : Instance → OnlineManager Session} {isOpen : Session → Bool}
variable {server : Instance} {user : Int} {session : Session} {msgId emoji : String} {records edited : Records}
variable {conversation : Conversation} {stored : List Reaction} {reaction : Reaction} {answers : Answers}
variable {weightString : String → List Nat}

/-! ## The list of reactions -/

section

variable {members : List (Int × Int)} {userIds : List Int} {frame : Frame} {reply : Option Reply}
variable {inserted : Option Reaction} {unread : Unread}

end

section

variable {members : List (Int × Int)} {reply : Option Reply} {inserted : Option Reaction} {unread : Unread}

end

def online (users : List Int) : Unit → OnlineManager Int := fun _ =>
  users.foldl (fun manager user => (manager.addDevice user "phone" user).1) {}

def oneMessage : Records where
  store := { tables := { privateMessages := [⟨"m", 1, 2, "hi", 900⟩] } }

end MuduoIm.Server.Conversations
