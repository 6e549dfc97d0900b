import Mathlib.Data.List.TakeWhile
import MuduoIm.Server.JwtRevocation

namespace MuduoIm.Server.Handshake

open MuduoIm.Data MuduoIm.Common MuduoIm.Server.JwtRevocation

/-! # Tokens in the path of a WebSocket handshake

The path carries the token as a query parameter.  Both the handshake validator
and the connection handler read it from there.
-/

/-- What follows the first occurrence of the pattern. -/
def afterFirst (pattern : Bytes) : Bytes → Option Bytes
  | [] => if pattern = [] then some [] else none
  | symbol :: rest =>
      if pattern.isPrefixOf (symbol :: rest) then some ((symbol :: rest).drop pattern.length)
      else afterFirst pattern rest

def ampersand : UInt8 := byte '&'

/-- The token that a path carries. -/
def tokenOf (path : Bytes) : Option Bytes :=
  (afterFirst (ascii "token=") path).map
    (fun text => text.takeWhile (fun symbol => decide (symbol ≠ ampersand)))

def extractUserIdFromPath (jwt : JWT) (path : Bytes) (now : Int) : Int :=
  match tokenOf path with
  | none => -1
  | some token => jwt.verify token now

def handshakeValidator (jwt : JWT) (path : Bytes) (now : Int) : Bool :=
  decide (0 < extractUserIdFromPath jwt path now)

inductive Connection where
  | closed (code : Nat) (reason : String)
  | online (userId : Int)
deriving DecidableEq, Repr

def connectionHandler (jwt : JWT) (path : Bytes) (now : Int) : Connection :=
  if extractUserIdFromPath jwt path now ≤ 0 then .closed 1008 "invalid token"
  else .online (extractUserIdFromPath jwt path now)

/-- The token is refused in a request, and so is every connection whose path
carries it. -/
structure RefusedEverywhere (jwt : JWT) (redis : Redis) (token : Bytes) (now : Int) : Prop where
  request : authFromRequest jwt redis (bearer token) now = none
  handshake : ∀ path, tokenOf path = some token → handshakeValidator jwt path now = false
  connection : ∀ path, tokenOf path = some token →
    connectionHandler jwt path now = .closed 1008 "invalid token"

variable {jwt : JWT} {redis : Redis} {token path : Bytes} {claims : Claims} {now : Int}

/-- A token in a path ends at an ampersand. -/
theorem notMem_tokenOf (carried : tokenOf path = some token) : ampersand ∉ token := by
  obtain ⟨text, _, rfl⟩ := Option.map_eq_some_iff.mp carried
  intro member
  have kept := List.mem_takeWhile_imp member
  exact of_decide_eq_true kept rfl

theorem tokenOf_query (plain : ampersand ∉ token) :
    tokenOf (ascii "/ws?token=" ++ token) = some token := by
  have start : afterFirst (ascii "token=") (ascii "/ws?token=" ++ token) = some token := by
    change afterFirst (ascii "token=") (ascii "token=" ++ token) = some token
    have found : (ascii "token=").isPrefixOf (ascii "token=" ++ token) = true := by
      rw [List.isPrefixOf_iff_prefix]
      exact List.prefix_append _ _
    have rest : (ascii "token=" ++ token).drop (ascii "token=").length = token := List.drop_left
    rw [← rest]
    exact if_pos found
  have whole : token.takeWhile (fun symbol => decide (symbol ≠ ampersand)) = token := by
    rw [List.takeWhile_eq_self_iff]
    intro symbol member
    exact decide_eq_true fun same => plain (same ▸ member)
  rw [tokenOf, start, Option.map_some, whole]

/-- A connection with a token that verifies is accepted, revoked or not. -/
theorem connectionHandler_eq (verified : jwt.verifyAndParse token now = some claims)
    (carried : tokenOf path = some token) : connectionHandler jwt path now = .online claims.userId := by
  have positive : ¬ claims.userId ≤ 0 := by
    have valid := (JWT.verifyAndParse_eq_some.mp verified).2.2.2
    omega
  have user : extractUserIdFromPath jwt path now = claims.userId := by
    rw [extractUserIdFromPath, carried]
    exact JWT.verify_eq verified
  rw [connectionHandler, user, if_neg positive]

theorem request_refused (verified : jwt.verifyAndParse token now = some claims) (named : claims.jti ≠ "")
    (reachable : redis.reachable = true) (blacklisted : redis.present (kKeyPrefix ++ claims.jti) = true) :
    authFromRequest jwt redis (bearer token) now = none := by
  rw [authFromRequest_bearer verified, if_pos]
  exact ⟨named, by simp [isRevoked, named, reachable, blacklisted]⟩

/-- No token that the server issues contains an ampersand. -/
theorem issued_plain (userId : Int) (jti : String) (expireSeconds : Int) :
    ampersand ∉ jwt.generateWithJti userId jti expireSeconds now := by
  have encoded (input : Bytes) : ampersand ∉ Base64.base64UrlEncode input :=
    Base64.notMem_base64UrlEncode (by decide)
  have separator : ampersand ∉ [JWT.dot] := by decide
  simp only [JWT.generateWithJti, List.mem_append, not_or]
  exact ⟨⟨⟨⟨encoded _, separator⟩, encoded _⟩, separator⟩, encoded _⟩

/-- A blacklisted token is refused everywhere exactly if no path can carry it,
because it contains an ampersand. -/
theorem refused_everywhere_iff (jwt : JWT) (redis : Redis) (token : Bytes) (claims : Claims) (now : Int)
    (verified : jwt.verifyAndParse token now = some claims) (named : claims.jti ≠ "")
    (reachable : redis.reachable = true) (blacklisted : redis.present (kKeyPrefix ++ claims.jti) = true) :
    RefusedEverywhere jwt redis token now ↔ ampersand ∈ token := by
  constructor
  · intro refused
    by_contra plain
    have carried := tokenOf_query plain
    have closed := refused.connection _ carried
    rw [connectionHandler_eq verified carried] at closed
    cases closed
  · intro marked
    have uncarried (path : Bytes) (carried : tokenOf path = some token) : False :=
      notMem_tokenOf carried marked
    exact {
      request := request_refused verified named reachable blacklisted
      handshake := fun path carried => (uncarried path carried).elim
      connection := fun path carried => (uncarried path carried).elim }

private def loggedOut : Redis := { present := fun key => decide (key = "jwt_blacklist:a1") }

private theorem loginToken_plain : ampersand ∉ loginToken := by
  decide +kernel

theorem login_token_refused_iff :
    (RefusedEverywhere loginJwt loggedOut loginToken 1700000000 ↔ ampersand ∈ loginToken) ∧
      ampersand ∉ loginToken :=
  ⟨refused_everywhere_iff loginJwt loggedOut loginToken loginClaims 1700000000 loginToken_verifies
    (by decide) rfl (by decide), loginToken_plain⟩

/-- The token of a user who has logged out still opens a connection. -/
theorem revoked_token_connects :
    ¬ ∀ jwt redis token claims now, jwt.verifyAndParse token now = some claims → claims.jti ≠ "" →
      redis.reachable = true → redis.present (kKeyPrefix ++ claims.jti) = true →
        RefusedEverywhere jwt redis token now := by
  intro always
  have refused := always loginJwt loggedOut loginToken loginClaims 1700000000 loginToken_verifies
    (by decide) rfl (by decide)
  have carried : tokenOf (ascii "/ws?token=" ++ loginToken) = some loginToken :=
    tokenOf_query loginToken_plain
  have closed := refused.connection _ carried
  rw [connectionHandler_eq loginToken_verifies carried] at closed
  cases closed

end MuduoIm.Server.Handshake
