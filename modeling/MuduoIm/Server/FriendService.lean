import MuduoIm.Server.Schema
import MuduoIm.Transition.Machine

namespace MuduoIm.Server.FriendService

open MuduoIm.Transition

/-! # Friends

The requests of `FriendService` that write, and `UserService::deleteAccount`,
which removes a user together with its friends.  Each runs against the answers
of the database and returns its reply with the tables that it leaves.  Two
requests only read.
-/

structure Reply where
  success : Bool
  message : String := ""
  accepted : Option Bool := none
deriving DecidableEq, Repr

def failure (message : String) : Reply := { success := false, message }

/-- What a COMMIT meets.  After `lost` the transaction is durable, but the
server reports it as failed. -/
inductive CommitAnswer where
  | committed
  | lost
  | refused
deriving DecidableEq, Repr

/-- `selected` answers the SELECT that precedes the writes, `executed i` the
writing statement with number `i`. -/
structure Answers where
  connected : Bool
  selected : Bool
  active : Bool
  executed : Nat → Bool
  commit : CommitAnswer

/-- All statements are sent, also after one has failed; then the transaction is
not committed, and the guard rolls it back. -/
def transaction (answers : Answers) (statements : List (Tables → Tables)) (success : Reply)
    (message : String) (tables : Tables) : Reply × Tables :=
  if !answers.active then (failure "failed to start transaction", tables)
  else if (List.range statements.length).all answers.executed then
    let after := statements.foldl (fun tables statement => statement tables) tables
    match answers.commit with
    | .committed => (success, after)
    | .lost => (failure message, after)
    | .refused => (failure message, tables)
  else (failure message, tables)

def addFriend (userId friendId : Int) (answers : Answers) (tables : Tables) : Reply × Tables :=
  if userId = friendId then (failure "cannot add self", tables)
  else if !answers.connected then (failure "db error", tables)
  else transaction answers
    [Tables.insertIgnoreFriend userId friendId, Tables.insertIgnoreFriend friendId userId]
    { success := true } "add failed" tables

def deleteFriend (userId friendId : Int) (answers : Answers) (tables : Tables) : Reply × Tables :=
  if !answers.connected then (failure "db error", tables)
  else transaction answers
    [Tables.deleteFriend userId friendId, Tables.deleteFriend friendId userId]
    { success := true } "delete failed" tables

/-- A failed SELECT counts as no friendship, and nobody looks at whether the
INSERT is executed. -/
def sendRequest (fromUser toUser : Int) (answers : Answers) (tables : Tables) : Reply × Tables :=
  if fromUser = toUser then (failure "cannot add self", tables)
  else if !answers.connected then (failure "db error", tables)
  else if answers.selected ∧ (fromUser, toUser) ∈ tables.friends then (failure "already friends", tables)
  else
    ({ success := true, message := "request sent" },
      if answers.executed 0 then tables.insertIgnoreRequest fromUser toUser else tables)

def findPending (userId requestId : Int) (tables : Tables) : Option FriendRequest :=
  tables.friendRequests.find? fun request =>
    request.id = requestId ∧ request.toUser = userId ∧ request.status = .pending

def handleRequest (userId requestId : Int) (accept : Bool) (answers : Answers) (tables : Tables) :
    Reply × Tables :=
  if !answers.connected then (failure "db error", tables)
  else
    match if answers.selected then findPending userId requestId tables else none with
    | none => (failure "request not found", tables)
    | some { fromUser, toUser, .. } =>
        if accept then transaction answers
          [Tables.setRequestStatus requestId .accepted, Tables.insertIgnoreFriend fromUser toUser,
            Tables.insertIgnoreFriend toUser fromUser]
          { success := true, accepted := some true } "operation failed" tables
        -- outside a transaction
        else if answers.executed 0 then
          ({ success := true, accepted := some false }, tables.setRequestStatus requestId .rejected)
        else (failure "operation failed", tables)

/-- `verifyPassword` compares a password with the stored hash. -/
def deleteAccount (verifyPassword : String → String → Bool) (userId : Int) (password : String)
    (answers : Answers) (tables : Tables) : Reply × Tables :=
  if !answers.connected then (failure "db error", tables)
  else
    match if answers.selected then tables.users.find? (fun user => user.id = userId) else none with
    | none => (failure "user not found", tables)
    | some user =>
        if !verifyPassword password user.password then (failure "wrong password", tables)
        else transaction answers
          [Tables.deleteFriendsOf userId, Tables.deleteMembershipsOf userId,
            Tables.deleteRequestsOf userId, Tables.deleteUser userId]
          { success := true } "delete failed" tables

/-- The columns that only these lists show; the first two are columns of
`friend_requests`, by the id of the request. -/
structure Shown where
  createdAt : Int → Nat
  createdAtText : Int → Option String
  username : Int → String
  nickname : Int → Option String
  avatar : Int → Option String

structure Friend where
  userId : Int
  username : String
  nickname : String
  avatar : String
deriving DecidableEq, Repr

/-- The friends that exist.  A failed SELECT counts as no friends. -/
def getFriends (shown : Shown) (userId : Int) (answers : Answers) (tables : Tables) : List Friend :=
  if !answers.connected || !answers.selected then []
  else
    (tables.friends.filter fun row => decide (row.1 = userId) && decide (tables.HasUser row.2)).map fun row =>
      { userId := row.2
        username := shown.username row.2
        nickname := (shown.nickname row.2).getD ""
        avatar := (shown.avatar row.2).getD "" }

structure ReceivedRequest where
  requestId : Int
  fromUserId : Int
  username : String
  nickname : String
  avatar : String
  createdAt : String
deriving DecidableEq, Repr

def receivedRequest (shown : Shown) (request : FriendRequest) : ReceivedRequest where
  requestId := request.id
  fromUserId := request.fromUser
  username := shown.username request.fromUser
  nickname := (shown.nickname request.fromUser).getD ""
  avatar := (shown.avatar request.fromUser).getD ""
  createdAt := (shown.createdAtText request.id).getD ""

/-- The pending requests to the user whose senders exist, the newest first.  A
failed SELECT counts as no requests. -/
def getRequests (shown : Shown) (userId : Int) (answers : Answers) (tables : Tables) : List ReceivedRequest :=
  if !answers.connected || !answers.selected then []
  else
    let rows := tables.friendRequests.filter fun request =>
      decide (request.toUser = userId ∧ request.status = .pending) && decide (tables.HasUser request.fromUser)
    (rows.mergeSort fun first second => decide (shown.createdAt second.id ≤ shown.createdAt first.id)).map
      (receivedRequest shown)

/-! ## Runs of the service -/

inductive Request where
  | addFriend (userId friendId : Int)
  | deleteFriend (userId friendId : Int)
  | sendRequest (fromUser toUser : Int)
  | handleRequest (userId requestId : Int) (accept : Bool)
  | deleteAccount (userId : Int) (password : String)
deriving DecidableEq, Repr

structure Event where
  request : Request
  answers : Answers

variable (verifyPassword : String → String → Bool)

def handle (event : Event) (tables : Tables) : Reply × Tables :=
  match event.request with
  | .addFriend userId friendId => FriendService.addFriend userId friendId event.answers tables
  | .deleteFriend userId friendId => FriendService.deleteFriend userId friendId event.answers tables
  | .sendRequest fromUser toUser => FriendService.sendRequest fromUser toUser event.answers tables
  | .handleRequest userId requestId accept =>
      FriendService.handleRequest userId requestId accept event.answers tables
  | .deleteAccount userId password =>
      FriendService.deleteAccount verifyPassword userId password event.answers tables

def machine : Machine Tables Event where
  step tables event := some (handle verifyPassword event tables).2

end MuduoIm.Server.FriendService
