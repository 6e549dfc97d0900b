import MuduoIm.Data.Base64
import MuduoIm.Data.Json

namespace MuduoIm.Common

open MuduoIm.Data MuduoIm.Data.Base64

/-! # JSON web tokens

A token is header, payload and signature, each in Base64URL, with dots between
them.  The signature is checked before the payload is read.
-/

structure Claims where
  userId : Int
  jti : String
  iat : Int
  exp : Int
deriving DecidableEq, Repr

def Claims.remainingSeconds (claims : Claims) (now : Int) : Int :=
  if claims.exp > now then claims.exp - now else 0

/-- `hmacSha256` is keyed with the secret; `parse` gives nothing where the JSON
parser throws. -/
structure JWT where
  hmacSha256 : Bytes → Bytes
  parse : Bytes → Option Json
  dump : Json → Bytes

namespace JWT

def dot : UInt8 := byte '.'

def header : Json := .object [("alg", .string "HS256"), ("typ", .string "JWT")]

/-- An empty `jti` is left out. -/
def payload (userId : Int) (jti : String) (expireSeconds now : Int) : Json :=
  .object ([("exp", .integer (now + expireSeconds)), ("iat", .integer now)] ++
    (if jti = "" then [] else [("jti", .string jti)]) ++ [("userId", .integer userId)])

variable (jwt : JWT)

def generateWithJti (userId : Int) (jti : String) (expireSeconds now : Int) : Bytes :=
  let message := base64UrlEncode (jwt.dump header) ++ [dot] ++
    base64UrlEncode (jwt.dump (payload userId jti expireSeconds now))
  message ++ [dot] ++ base64UrlEncode (jwt.hmacSha256 message)

/-- What is before the first dot, between the first two, and after the second. -/
def parts (token : Bytes) : Option (Bytes × Bytes × Bytes) :=
  match token.dropWhile (fun symbol => decide (symbol ≠ dot)) with
  | [] => none
  | _ :: rest =>
      match rest.dropWhile (fun symbol => decide (symbol ≠ dot)) with
      | [] => none
      | _ :: signature => some (token.takeWhile (fun symbol => decide (symbol ≠ dot)),
          rest.takeWhile (fun symbol => decide (symbol ≠ dot)), signature)

/-- The fields of the payload; `none` when a read throws. -/
def claimsOf (payload : Json) : Option Claims := do
  let userId ← payload.valueInt "userId" 0
  let exp ← payload.valueInt "exp" 0
  let iat ← payload.valueInt "iat" 0
  let jti ← payload.valueString "jti" ""
  some { userId, jti, iat, exp }

/-- The claims of a token with a valid signature. -/
def signedClaims (token : Bytes) : Option Claims :=
  match parts token with
  | none => none
  | some (header, payload, signature) =>
      if signature = base64UrlEncode (jwt.hmacSha256 (header ++ [dot] ++ payload)) then
        (jwt.parse (base64UrlDecode payload)).bind claimsOf
      else none

def verifyAndParse (token : Bytes) (now : Int) : Option Claims :=
  match jwt.signedClaims token with
  | none => none
  | some claims =>
      if claims.exp = 0 ∨ now > claims.exp then none
      else if claims.userId ≤ 0 then none
      else some claims

def verify (token : Bytes) (now : Int) : Int :=
  ((jwt.verifyAndParse token now).map Claims.userId).getD (-1)

variable {jwt} {token : Bytes} {claims : Claims} {now later : Int}

theorem verifyAndParse_eq_some : jwt.verifyAndParse token now = some claims ↔
    jwt.signedClaims token = some claims ∧ claims.exp ≠ 0 ∧ now ≤ claims.exp ∧ 0 < claims.userId := by
  rw [verifyAndParse]
  cases jwt.signedClaims token with
  | none => simp
  | some found =>
      dsimp only
      split
      · rename_i expired
        refine iff_of_false (by simp) ?_
        rintro ⟨same, valid, within, _⟩
        cases same
        omega
      · split
        · rename_i nobody
          refine iff_of_false (by simp) ?_
          rintro ⟨same, _, _, somebody⟩
          cases same
          omega
        · rename_i current somebody
          rw [Option.some.injEq]
          constructor
          · rintro rfl
            exact ⟨rfl, by omega, by omega, by omega⟩
          · exact And.left

/-- A token that verifies once does so until the end of its last second. -/
theorem verifyAndParse_later (verified : jwt.verifyAndParse token now = some claims) :
    jwt.verifyAndParse token later = if later ≤ claims.exp then some claims else none := by
  obtain ⟨signed, valid, _, somebody⟩ := verifyAndParse_eq_some.mp verified
  by_cases within : later ≤ claims.exp
  · rw [if_pos within]
    exact verifyAndParse_eq_some.mpr ⟨signed, valid, within, somebody⟩
  · rw [if_neg within, verifyAndParse, signed]
    exact if_pos (.inr (by omega))

theorem verify_eq (verified : jwt.verifyAndParse token now = some claims) :
    jwt.verify token now = claims.userId := by
  rw [verify, verified]
  rfl

end JWT

end MuduoIm.Common
