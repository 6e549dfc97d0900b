import MuduoIm.Data.NestedTable
import MuduoIm.Data.Keyspace
import MuduoIm.Data.Json

namespace MuduoIm.Server

open MuduoIm.Data

/-! # The online table of one chat server

A method changes `sessions_` in its locked section and then sends Redis its
commands; what it sends depends on the table only.  A null session is one that
is never open.
-/

namespace OnlineManager

def kOnlineTtlSec : Nat := 30

def kDefaultDevice : String := "default"

/-- The braces are the hash tag of a Redis cluster. -/
def keyOnline (userId : Int) (dev : String) : String :=
  "online:\x7b" ++ toString userId ++ "\x7d:" ++ dev

def keyOnlineUid (userId : Int) : String := "online:\x7b" ++ toString userId ++ "\x7d"

/-- The device id under which an entry is kept. -/
def device (deviceId : String) : String := if deviceId.isEmpty then kDefaultDevice else deviceId

end OnlineManager

/-- `instanceId` has the default of the constructor. -/
structure OnlineManager (Session : Type) where
  instanceId : String := "instance-0"
  sessions : NestedTable Int String Session := ∅

namespace OnlineManager

variable {Session : Type} (manager : OnlineManager Session)

def addDevice (userId : Int) (deviceId : String) (session : Session) :
    OnlineManager Session × List KeyCommand :=
  ({ manager with sessions := manager.sessions.put userId (device deviceId) session },
   [.set (keyOnline userId (device deviceId)) manager.instanceId kOnlineTtlSec])

def removeDevice (userId : Int) (deviceId : String) : OnlineManager Session × List KeyCommand :=
  ({ manager with sessions := manager.sessions.remove userId (device deviceId) },
   .del (keyOnline userId (device deviceId)) ::
     -- the key of the time when a user had one session
     if manager.sessions.lastIn userId (device deviceId) then [.del (keyOnlineUid userId)] else [])

def addUser (userId : Int) (session : Session) : OnlineManager Session × List KeyCommand :=
  manager.addDevice userId kDefaultDevice session

def removeUser (userId : Int) : OnlineManager Session × List KeyCommand :=
  ({ manager with sessions := manager.sessions.erase userId },
   (manager.sessions.row userId).keys.map (fun dev => .del (keyOnline userId dev)) ++ [.del (keyOnlineUid userId)])

/-- What the kicked client is told before its session is closed. -/
def deviceKicked (deviceId : String) : Json := .object [
  ("deviceId", .string deviceId),
  ("reason", .string "kicked_by_admin_or_other_device"),
  ("type", .string "device_kicked")]

/-- The session that is closed comes first, with what it is told; `none` where
the method returns false.  The device id is the one under which the entry is
kept. -/
def kickDevice (userId : Int) (deviceId : String) :
    Option ((Session × Json) × OnlineManager Session × List KeyCommand) :=
  (manager.sessions.find userId deviceId).map (fun session =>
    ((session, deviceKicked deviceId), { manager with sessions := manager.sessions.remove userId deviceId },
     [.del (keyOnline userId deviceId)]))

/-- With the sessions that are closed. -/
def closeAll (isOpen : Session → Bool) : OnlineManager Session × List Session :=
  ({ manager with sessions := ∅ }, manager.sessions.entries.flatMap (fun row => row.2.select isOpen))

def refreshOnline (userId : Int) : List KeyCommand :=
  (manager.sessions.row userId).keys.map (fun dev => .expire (keyOnline userId dev) kOnlineTtlSec)

def getSessions (isOpen : Session → Bool) (userId : Int) : List Session :=
  (manager.sessions.row userId).select isOpen

def getSession (isOpen : Session → Bool) (userId : Int) : Option Session :=
  ((manager.sessions.row userId).entries.map Sigma.snd).find? isOpen

/-- The open sessions of the user's other devices. -/
def getOtherSessions (isOpen : Session → Bool) (userId : Int) (excludeDevice : String) : List Session :=
  Table.select ((manager.sessions.row userId).erase (device excludeDevice)) isOpen

/-- The Redis key is looked up only if no local session of the user is open. -/
def isOnline (isOpen : Session → Bool) (redis : Keyspace) (userId : Int) : Bool :=
  !(manager.getSessions isOpen userId).isEmpty || redis.exist (keyOnlineUid userId)

def getOnlineUsers (isOpen : Session → Bool) : List Int :=
  (manager.sessions.entries.filter (fun row => row.2.entries.any (fun entry => isOpen entry.2))).map Sigma.fst

/-- The first entry with the session, if there is one. -/
def findEntry [DecidableEq Session] (session : Session) : Option (Int × String) :=
  manager.sessions.entries.findSome? (fun row =>
    (row.2.entries.find? (fun entry => entry.2 = session)).map (fun entry => (row.1, entry.1)))

def findByDeviceSession [DecidableEq Session] (session : Session) : Int × String :=
  (manager.findEntry session).getD (-1, "")

variable {manager} {userId user : Int} {deviceId dev : String} {session : Session}

theorem find_addDevice : (manager.addDevice userId deviceId session).1.sessions.find user dev =
    if user = userId ∧ dev = device deviceId then some session
    else manager.sessions.find user dev :=
  NestedTable.find_put

theorem find_removeDevice : (manager.removeDevice userId deviceId).1.sessions.find user dev =
    if user = userId ∧ dev = device deviceId then none else manager.sessions.find user dev :=
  NestedTable.find_remove

theorem mem_getSessions {isOpen : Session → Bool} : session ∈ manager.getSessions isOpen userId ↔
    (∃ dev, manager.sessions.find userId dev = some session) ∧ isOpen session = true :=
  Table.mem_select

theorem getSessions_ne_nil {isOpen : Session → Bool} :
    manager.getSessions isOpen userId ≠ [] ↔
      ∃ dev session, manager.sessions.find userId dev = some session ∧ isOpen session = true :=
  NestedTable.select_row_ne_nil

end OnlineManager

end MuduoIm.Server
