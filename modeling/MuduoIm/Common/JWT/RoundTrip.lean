import MuduoIm.Common.JWT
import MuduoIm.Data.Base64.RoundTrip

namespace MuduoIm.Common.JWT

open MuduoIm.Data MuduoIm.Data.Base64

/-! A token is accepted until it expires, with the claims it was issued for,
and the signature adds nothing that the signed text leaves open. -/

/-- The text up to the second dot, which the signature is made of. -/
def signedText (token : Bytes) : Option Bytes :=
  (parts token).map (fun (header, payload, _) => header ++ [dot] ++ payload)

private abbrev undotted : UInt8 → Bool := fun symbol => decide (symbol ≠ dot)

private theorem dropWhile_eq_cons {text rest : Bytes} {symbol : UInt8}
    (found : text.dropWhile undotted = symbol :: rest) :
    text = text.takeWhile undotted ++ [dot] ++ rest := by
  have stops := List.head?_dropWhile_not undotted text
  rw [found] at stops
  have isDot : symbol = dot := by simpa [undotted] using stops
  have whole := List.takeWhile_append_dropWhile (p := undotted) (l := text)
  rw [found, isDot] at whole
  rw [List.append_assoc]
  exact whole.symm

theorem parts_eq_some {token header payload signature : Bytes}
    (found : parts token = some (header, payload, signature)) :
    token = header ++ [dot] ++ payload ++ [dot] ++ signature := by
  rw [parts] at found
  split at found
  · cases found
  · rename_i symbol rest afterFirst
    split at found
    · cases found
    · rename_i symbol signature afterSecond
      cases found
      have first := dropWhile_eq_cons afterFirst
      have second := dropWhile_eq_cons afterSecond
      calc
        token = token.takeWhile undotted ++ [dot] ++ rest := first
        _ = token.takeWhile undotted ++ [dot] ++ (rest.takeWhile undotted ++ [dot] ++ signature) := by
          rw [← second]
        _ = _ := by
          simp only [List.append_assoc]

private theorem split_at_dot {text : Bytes} (rest : Bytes) (plain : dot ∉ text) :
    (text ++ [dot] ++ rest).takeWhile undotted = text ∧
      (text ++ [dot] ++ rest).dropWhile undotted = dot :: rest := by
  have passes : ∀ symbol ∈ text, undotted symbol = true := by
    intro symbol listed
    apply decide_eq_true
    intro same
    exact plain (same ▸ listed)
  rw [List.append_assoc, List.takeWhile_append_of_pos passes, List.dropWhile_append_of_pos passes]
  constructor
  · exact List.append_nil text
  · rfl

theorem parts_join {header payload signature : Bytes} (plainHeader : dot ∉ header) (plainPayload : dot ∉ payload) :
    parts (header ++ [dot] ++ payload ++ [dot] ++ signature) = some (header, payload, signature) := by
  have first := split_at_dot (payload ++ [dot] ++ signature) plainHeader
  have second := split_at_dot signature plainPayload
  have regroup : header ++ [dot] ++ payload ++ [dot] ++ signature =
      header ++ [dot] ++ (payload ++ [dot] ++ signature) := by
    simp only [List.append_assoc]
  rw [regroup]
  rw [parts, first.1, first.2]
  dsimp only
  rw [second.1, second.2]

theorem dot_notMem_base64UrlEncode (input : Bytes) : dot ∉ base64UrlEncode input :=
  notMem_base64UrlEncode (by decide)

section Issued

variable (jwt : JWT) {userId expireSeconds issuedAt : Int} {jti : String}

theorem claimsOf_payload (userWord : -2 ^ 63 ≤ userId ∧ userId < 2 ^ 63)
    (issueWord : -2 ^ 63 ≤ issuedAt ∧ issuedAt < 2 ^ 63)
    (expiryWord : -2 ^ 63 ≤ issuedAt + expireSeconds ∧ issuedAt + expireSeconds < 2 ^ 63) :
    claimsOf (payload userId jti expireSeconds issuedAt) =
      some { userId, jti, iat := issuedAt, exp := issuedAt + expireSeconds } := by
  have userRead : (payload userId jti expireSeconds issuedAt).valueInt "userId" 0 = some userId :=
    Json.valueInt_integer (by split <;> rfl) (by omega) userWord.2
  have expiryRead : (payload userId jti expireSeconds issuedAt).valueInt "exp" 0 = some (issuedAt + expireSeconds) :=
    Json.valueInt_integer (by split <;> rfl) expiryWord.1 expiryWord.2
  have issueRead : (payload userId jti expireSeconds issuedAt).valueInt "iat" 0 = some issuedAt :=
    Json.valueInt_integer (by split <;> rfl) issueWord.1 issueWord.2
  have jtiRead : (payload userId jti expireSeconds issuedAt).valueString "jti" "" = some jti := by
    by_cases unnamed : jti = ""
    · rw [payload, if_pos unnamed, unnamed]
      rfl
    · rw [payload, if_neg unnamed]
      rfl
  rw [claimsOf, userRead, expiryRead, issueRead, jtiRead]
  rfl

/-- The signature holds, and what is signed is the payload. -/
theorem signedClaims_generateWithJti
    (readsBack : jwt.parse (jwt.dump (payload userId jti expireSeconds issuedAt)) =
      some (payload userId jti expireSeconds issuedAt)) :
    jwt.signedClaims (jwt.generateWithJti userId jti expireSeconds issuedAt) =
      claimsOf (payload userId jti expireSeconds issuedAt) := by
  have split := @parts_join (base64UrlEncode (jwt.dump header))
    (base64UrlEncode (jwt.dump (payload userId jti expireSeconds issuedAt)))
    (base64UrlEncode (jwt.hmacSha256 (base64UrlEncode (jwt.dump header) ++ [dot] ++
      base64UrlEncode (jwt.dump (payload userId jti expireSeconds issuedAt)))))
    (dot_notMem_base64UrlEncode _) (dot_notMem_base64UrlEncode _)
  rw [signedClaims, generateWithJti, split]
  dsimp only
  rw [if_pos rfl, base64UrlDecode_base64UrlEncode, readsBack]
  rfl

end Issued

/-- An accepted token ends in the signature of its text. -/
theorem token_eq_of_accepted {jwt : JWT} {token text : Bytes} {now : Int} {claims : Claims}
    (accepted : jwt.verifyAndParse token now = some claims) (signed : signedText token = some text) :
    token = text ++ [dot] ++ base64UrlEncode (jwt.hmacSha256 text) := by
  obtain ⟨valid, _⟩ := verifyAndParse_eq_some.mp accepted
  obtain ⟨⟨header, payload, signature⟩, found, same⟩ := Option.map_eq_some_iff.mp signed
  cases same
  rw [signedClaims, found] at valid
  dsimp only at valid
  split at valid
  · rename_i matching
    rw [← matching]
    exact parts_eq_some found
  · cases valid

/-- A token is accepted exactly until its last second, unless that is second
zero, and says what it was issued for.  An accepted token is determined by what
is before its second dot. -/
theorem issue_and_verify_agree (jwt : JWT) :
    (∀ (userId : Int) (jti : String) (expireSeconds issuedAt now : Int),
      0 < userId → userId < 2 ^ 63 → -2 ^ 63 ≤ issuedAt ∧ issuedAt < 2 ^ 63 →
      -2 ^ 63 ≤ issuedAt + expireSeconds ∧ issuedAt + expireSeconds < 2 ^ 63 →
      jwt.parse (jwt.dump (payload userId jti expireSeconds issuedAt)) =
        some (payload userId jti expireSeconds issuedAt) →
      ((jwt.verifyAndParse (jwt.generateWithJti userId jti expireSeconds issuedAt) now).isSome ↔
          now ≤ issuedAt + expireSeconds ∧ issuedAt + expireSeconds ≠ 0) ∧
        ∀ claims, jwt.verifyAndParse (jwt.generateWithJti userId jti expireSeconds issuedAt) now = some claims →
          claims = { userId, jti, iat := issuedAt, exp := issuedAt + expireSeconds }) ∧
    ∀ (token other : Bytes) (now later : Int) (claims found : Claims),
      jwt.verifyAndParse token now = some claims → jwt.verifyAndParse other later = some found →
      signedText token = signedText other → token = other := by
  constructor
  · intro userId jti expireSeconds issuedAt now somebody userWord issueWord expiryWord readsBack
    have signed := signedClaims_generateWithJti jwt readsBack
    rw [claimsOf_payload ⟨by omega, userWord⟩ issueWord expiryWord] at signed
    have accepted_iff := fun claims => @verifyAndParse_eq_some jwt
      (jwt.generateWithJti userId jti expireSeconds issuedAt) claims now
    rw [signed] at accepted_iff
    constructor
    · constructor
      · intro accepted
        obtain ⟨claims, accepted⟩ := Option.isSome_iff_exists.mp accepted
        obtain ⟨same, dated, within, _⟩ := (accepted_iff claims).mp accepted
        cases same
        exact ⟨within, dated⟩
      · intro current
        exact Option.isSome_iff_exists.mpr ⟨_, (accepted_iff _).mpr ⟨rfl, current.2, current.1, somebody⟩⟩
    · intro claims accepted
      obtain ⟨same, _⟩ := (accepted_iff claims).mp accepted
      exact (Option.some.inj same).symm
  · intro token other now later claims found accepted alsoAccepted same
    cases signed : signedText token with
    | none =>
        obtain ⟨valid, _⟩ := verifyAndParse_eq_some.mp accepted
        rw [signedText, Option.map_eq_none_iff] at signed
        rw [signedClaims, signed] at valid
        cases valid
    | some text =>
        rw [token_eq_of_accepted accepted signed, token_eq_of_accepted alsoAccepted (same ▸ signed)]

/-! A token of user 7, issued at 1700000000 for a day, under the secret `secret`. -/

private def dayMessage : Bytes :=
  ascii "eyJhbGciOiJIUzI1NiIsInR5cCI6IkpXVCJ9.eyJleHAiOjE3MDAwODY0MDAsImlhdCI6MTcwMDAwMDAwMCwidXNlcklkIjo3fQ"

private def dayHmac : Bytes :=
  [116, 64, 158, 31, 46, 168, 232, 134, 155, 47, 217, 254, 29, 118, 58, 113,
    144, 159, 12, 119, 172, 37, 106, 200, 8, 50, 240, 97, 168, 81, 224, 162]

private def dayPayload : Bytes := ascii "\x7b\"exp\":1700086400,\"iat\":1700000000,\"userId\":7\x7d"

def dayToken : Bytes := dayMessage ++ ascii ".dECeHy6o6IabL9n-HXY6cZCfDHesJWrICDLwYahR4KI"

/-- The keyed hash, the parser and the writer, as far as this token needs them. -/
def dayJwt : JWT where
  hmacSha256 message := if message = dayMessage then dayHmac else []
  parse text := if text = dayPayload then some (payload 7 "" 86400 1700000000) else none
  dump json :=
    if (json.member "alg").isSome then ascii "\x7b\"alg\":\"HS256\",\"typ\":\"JWT\"\x7d" else dayPayload

private theorem dayPayload_readsBack :
    dayJwt.parse (dayJwt.dump (payload 7 "" 86400 1700000000)) = some (payload 7 "" 86400 1700000000) := by
  have written : dayJwt.dump (payload 7 "" 86400 1700000000) = dayPayload := rfl
  rw [written]
  change (if dayPayload = dayPayload then _ else none) = _
  exact if_pos rfl

theorem dayToken_agrees :
    (dayJwt.verifyAndParse (dayJwt.generateWithJti 7 "" 86400 1700000000) 1700086400).isSome ∧
      dayToken = dayJwt.generateWithJti 7 "" 86400 1700000000 := by
  have issued := ((issue_and_verify_agree dayJwt).1 7 "" 86400 1700000000 1700086400 (by decide) (by decide)
    (by decide) (by decide) dayPayload_readsBack).1.mpr (by decide)
  obtain ⟨claims, accepted⟩ := Option.isSome_iff_exists.mp issued
  have verified : dayJwt.verifyAndParse dayToken 1700000000 = some ⟨7, "", 1700000000, 1700086400⟩ := by
    decide +kernel
  exact ⟨issued, (issue_and_verify_agree dayJwt).2 dayToken _ 1700000000 1700086400 _ claims verified accepted
    (by decide +kernel)⟩

end MuduoIm.Common.JWT
