import MuduoIm.Data.Table

namespace MuduoIm.Logic

open MuduoIm.Data

/-! # The presence table of a logic instance

Two maps: from the gateway to its downstream, and from the user to the gateway
of the last connection that was opened.  A stream is known by its number.
-/

structure GatewayRegistry where
  gateways : Table String Nat := ∅
  userToGateway : Table Int String := ∅

/-- A PushUser command and the stream it was written to. -/
structure Push where
  stream : Nat
  uid : Int
  payload : String
deriving DecidableEq, Repr

namespace GatewayRegistry

variable (registry : GatewayRegistry)

def registerGateway (gatewayId : String) (stream : Nat) : GatewayRegistry :=
  { registry with gateways := registry.gateways.insert gatewayId stream }

def deregisterGateway (gatewayId : String) : GatewayRegistry where
  gateways := registry.gateways.erase gatewayId
  userToGateway := registry.userToGateway.keep (fun mapped => decide (mapped ≠ gatewayId))

def onUserOpen (uid : Int) (gatewayId : String) : GatewayRegistry :=
  { registry with userToGateway := registry.userToGateway.insert uid gatewayId }

def onUserClose (uid : Int) (gatewayId : String) : GatewayRegistry :=
  if registry.userToGateway.lookup uid = some gatewayId then
    { registry with userToGateway := registry.userToGateway.erase uid }
  else registry

/-- The result, and the command that was written.  `write` is what the write to
each stream returns. -/
def pushToUser (write : Nat → Bool) (uid : Int) (payload : String) : Bool × Option Push :=
  match registry.userToGateway.lookup uid with
  | none => (false, none)
  | some gatewayId =>
      match registry.gateways.lookup gatewayId with
      | none => (false, none)
      | some stream => (write stream, some { stream, uid, payload })

variable {registry} {gatewayId id : String} {uid user : Int} {stream : Nat}

@[simp] theorem gateways_registerGateway :
    (registry.registerGateway gatewayId stream).gateways.lookup id =
      if id = gatewayId then some stream else registry.gateways.lookup id :=
  Table.lookup_insert_ite

@[simp] theorem userToGateway_registerGateway :
    (registry.registerGateway gatewayId stream).userToGateway = registry.userToGateway := rfl

@[simp] theorem gateways_deregisterGateway :
    (registry.deregisterGateway gatewayId).gateways.lookup id =
      if id = gatewayId then none else registry.gateways.lookup id :=
  Table.lookup_erase_ite

@[simp] theorem userToGateway_deregisterGateway :
    (registry.deregisterGateway gatewayId).userToGateway.lookup user =
      (registry.userToGateway.lookup user).filter (fun mapped => decide (mapped ≠ gatewayId)) :=
  Table.lookup_keep

@[simp] theorem gateways_onUserOpen :
    (registry.onUserOpen uid gatewayId).gateways = registry.gateways := rfl

@[simp] theorem userToGateway_onUserOpen :
    (registry.onUserOpen uid gatewayId).userToGateway.lookup user =
      if user = uid then some gatewayId else registry.userToGateway.lookup user :=
  Table.lookup_insert_ite

@[simp] theorem gateways_onUserClose :
    (registry.onUserClose uid gatewayId).gateways = registry.gateways := by
  rw [onUserClose]
  split
  · rfl
  · rfl

@[simp] theorem userToGateway_onUserClose :
    (registry.onUserClose uid gatewayId).userToGateway.lookup user =
      if user = uid ∧ registry.userToGateway.lookup uid = some gatewayId then none
      else registry.userToGateway.lookup user := by
  rw [onUserClose]
  by_cases mapped : registry.userToGateway.lookup uid = some gatewayId
  · rw [if_pos mapped, Table.lookup_erase_ite]
    simp only [mapped, and_true]
  · rw [if_neg mapped]
    simp only [mapped, and_false, if_false]

/-- The stream that a push to the user is written to. -/
def streamOf (registry : GatewayRegistry) (user : Int) : Option Nat :=
  (registry.userToGateway.lookup user).bind registry.gateways.lookup

variable {write : Nat → Bool} {payload : String}

theorem pushToUser_eq : registry.pushToUser write uid payload =
    match registry.streamOf uid with
    | none => (false, none)
    | some stream => (write stream, some { stream, uid, payload }) := by
  rw [pushToUser, streamOf]
  cases registry.userToGateway.lookup uid with
  | none => rfl
  | some gatewayId => rw [Option.bind_some]

end GatewayRegistry

end MuduoIm.Logic
