import MuduoIm.Common.JWT

namespace MuduoIm.Server

open MuduoIm.Data MuduoIm.Common

/-! # Revoked tokens

A logout puts the id of its token into Redis, to stay there for what is left of
the token's life.  Times are in milliseconds; the token and the key count in
seconds.
-/

namespace JwtRevocation

def kKeyPrefix : String := "jwt_blacklist:"

/-- A key as it is handed to Redis, with its TTL in seconds. -/
structure BlacklistKey where
  key : String
  ttl : Int
  setAt : Int
deriving DecidableEq, Repr

/-- What a request sees of Redis. -/
structure Redis where
  reachable : Bool := true
  present : String → Bool

/-- The key that is set; the TTL is cast to an `int`. -/
def revoke (jti : String) (expireSeconds setAt : Int) : Option BlacklistKey :=
  if jti = "" ∨ expireSeconds ≤ 0 then none
  else some { key := kKeyPrefix ++ jti, ttl := expireSeconds.bmod (2 ^ 32), setAt }

def isRevoked (redis : Redis) (jti : String) : Bool :=
  decide (jti ≠ "") && redis.reachable && redis.present (kKeyPrefix ++ jti)

/-- The claims of an accepted request; `auth` is its Authorization header. -/
def authFromRequest (jwt : JWT) (redis : Redis) (auth : Bytes) (nowSeconds : Int) : Option Claims :=
  if auth.length ≤ 7 ∨ auth.take 7 ≠ ascii "Bearer " then none
  else match jwt.verifyAndParse (auth.drop 7) nowSeconds with
    | none => none
    | some claims => if claims.jti ≠ "" ∧ isRevoked redis claims.jti then none else some claims

/-- The claims of the token that logs out, and the key that is set. -/
def handleLogout (jwt : JWT) (redis : Redis) (auth : Bytes) (now : Int) :
    Option (Claims × Option BlacklistKey) :=
  (authFromRequest jwt redis auth (now / 1000)).map fun claims =>
    (claims, if claims.jti = "" then none
      else revoke claims.jti (claims.remainingSeconds (now / 1000)) now)

def bearer (token : Bytes) : Bytes := ascii "Bearer " ++ token

/-- Redis after a logout.  `holds setAt ttl time` tells whether a key with this
TTL is still there. -/
def afterLogout (holds : Int → Int → Int → Bool) (set : Option BlacklistKey) (time : Int) : Redis where
  present key := set.any (fun entry => decide (entry.key = key) && holds entry.setAt entry.ttl time)

/-- A key with a positive TTL is there until it runs out. -/
def Expires (holds : Int → Int → Int → Bool) : Prop :=
  ∀ setAt ttl time, 0 < ttl → (holds setAt ttl time = true ↔ setAt ≤ time ∧ time < setAt + 1000 * ttl)

/-- The request with this token is refused at every later time. -/
def RefusedAfter (jwt : JWT) (holds : Int → Int → Int → Bool) (token : Bytes) (set : Option BlacklistKey)
    (logoutAt : Int) : Prop :=
  ∀ time, logoutAt < time →
    authFromRequest jwt (afterLogout holds set time) (bearer token) (time / 1000) = none

/-- The token has at least 2^31 seconds left, the TTL that the cast makes of
them is not positive, and Redis keeps the key all the same. -/
def KeptWithoutTtl (holds : Int → Int → Int → Bool) (claims : Claims) (logoutAt : Int) : Prop :=
  claims.jti ≠ "" ∧ logoutAt / 1000 < claims.exp ∧ (claims.exp - logoutAt / 1000).bmod (2 ^ 32) ≤ 0 ∧
    ∀ time, logoutAt < time → time / 1000 ≤ claims.exp →
      holds logoutAt ((claims.exp - logoutAt / 1000).bmod (2 ^ 32)) time = true

variable {jwt : JWT} {redis : Redis} {token : Bytes} {claims : Claims} {now logoutAt time : Int}
variable {holds : Int → Int → Int → Bool} {set : Option BlacklistKey}

theorem authFromRequest_bearer (verified : jwt.verifyAndParse token now = some claims) :
    authFromRequest jwt redis (bearer token) now =
      if claims.jti ≠ "" ∧ isRevoked redis claims.jti then none else some claims := by
  have nonempty : token ≠ [] := by
    rintro rfl
    cases verified
  have long : ¬ (bearer token).length ≤ 7 := by
    have positive := List.length_pos_iff.mpr nonempty
    rw [bearer, List.length_append]
    change ¬ 7 + token.length ≤ 7
    omega
  have start : (bearer token).take 7 = ascii "Bearer " := rfl
  have rest : (bearer token).drop 7 = token := rfl
  rw [authFromRequest, if_neg (not_or.mpr ⟨long, not_not.mpr start⟩), rest, verified]

/-- A token that logs out verifies, and it was not revoked before. -/
theorem handleLogout_eq_some (loggedOut : handleLogout jwt redis (bearer token) logoutAt = some (claims, set)) :
    jwt.verifyAndParse token (logoutAt / 1000) = some claims ∧
      set = if claims.jti = "" then none
        else revoke claims.jti (claims.remainingSeconds (logoutAt / 1000)) logoutAt := by
  obtain ⟨accepted, found, same⟩ := Option.map_eq_some_iff.mp loggedOut
  cases same
  refine ⟨?_, rfl⟩
  have rest : (bearer token).drop 7 = token := rfl
  rw [authFromRequest] at found
  split at found
  · cases found
  · rw [rest] at found
    cases verified : jwt.verifyAndParse token (logoutAt / 1000) with
    | none =>
        rw [verified] at found
        cases found
    | some known =>
        rw [verified] at found
        dsimp only at found
        split at found
        · cases found
        · exact found

theorem isRevoked_afterLogout (named : claims.jti ≠ "")
    (set_eq : set = revoke claims.jti (claims.remainingSeconds (logoutAt / 1000)) logoutAt) :
    isRevoked (afterLogout holds set time) claims.jti = true ↔ logoutAt / 1000 < claims.exp ∧
      holds logoutAt ((claims.exp - logoutAt / 1000).bmod (2 ^ 32)) time = true := by
  rw [set_eq, revoke, Claims.remainingSeconds]
  by_cases left : logoutAt / 1000 < claims.exp
  · have some_left : ¬ (claims.jti = "" ∨ claims.exp - logoutAt / 1000 ≤ 0) := by
      rw [not_or]
      exact ⟨named, by omega⟩
    rw [if_pos left, if_neg some_left]
    simp [isRevoked, afterLogout, named, left]
  · rw [if_neg left, if_pos (.inr (Int.le_refl 0))]
    simp [isRevoked, afterLogout, left]

/-- At a later time the token is refused if it has expired or is revoked. -/
theorem refused_iff (loggedOut : handleLogout jwt redis (bearer token) logoutAt = some (claims, set)) :
    authFromRequest jwt (afterLogout holds set time) (bearer token) (time / 1000) = none ↔
      claims.exp < time / 1000 ∨ (claims.jti ≠ "" ∧ logoutAt / 1000 < claims.exp ∧
        holds logoutAt ((claims.exp - logoutAt / 1000).bmod (2 ^ 32)) time = true) := by
  obtain ⟨verified, set_eq⟩ := handleLogout_eq_some loggedOut
  have later := @JWT.verifyAndParse_later jwt token claims _ (time / 1000) verified
  by_cases within : time / 1000 ≤ claims.exp
  · rw [if_pos within] at later
    have current : ¬ claims.exp < time / 1000 := by omega
    rw [authFromRequest_bearer later]
    by_cases named : claims.jti = ""
    · simp [named, current]
    · rw [if_neg named] at set_eq
      have revoked := @isRevoked_afterLogout claims logoutAt time holds set named set_eq
      simp only [ne_eq, named, not_false_eq_true, true_and, revoked, current, false_or]
      split
      · rename_i present
        exact iff_of_true rfl present
      · rename_i absent
        exact iff_of_false (by simp) absent
  · rw [if_neg within] at later
    have expired : claims.exp < time / 1000 := by omega
    have rest : (bearer token).drop 7 = token := rfl
    refine iff_of_true ?_ (.inl expired)
    rw [authFromRequest, rest, later]
    split
    · rfl
    · rfl

/-- A key with a TTL of at most the remaining lifetime is gone in the last
millisecond of the token. -/
theorem not_held_at_end (expires : Expires holds) (left : logoutAt / 1000 < claims.exp)
    (positive : 0 < (claims.exp - logoutAt / 1000).bmod (2 ^ 32)) :
    ¬ holds logoutAt ((claims.exp - logoutAt / 1000).bmod (2 ^ 32)) (1000 * claims.exp + 999) = true := by
  rw [expires _ _ _ positive]
  have within : (claims.exp - logoutAt / 1000).bmod (2 ^ 32) ≤ claims.exp - logoutAt / 1000 := by
    rw [Int.bmod_def]
    split
    · omega
    · omega
  omega

/-! A token of user 7, issued at 1700000000 for a day, under the secret `secret`. -/

private def loginHmac : Bytes :=
  [0, 220, 20, 155, 59, 47, 58, 248, 67, 249, 147, 229, 22, 152, 202, 201,
    17, 187, 29, 253, 130, 120, 193, 221, 158, 135, 244, 244, 64, 28, 18, 122]

private def loginMessage : Bytes :=
  ascii "eyJhbGciOiJIUzI1NiIsInR5cCI6IkpXVCJ9.eyJleHAiOjE3MDAwODY0MDAsImlhdCI6MTcwMDAwMDAwMCwianRpIjoiYTEiLCJ1c2VySWQiOjd9"

def loginToken : Bytes :=
  loginMessage ++ ascii ".ANwUmzsvOvhD-ZPlFpjKyRG7Hf2CeMHdnof09EAcEno"

/-- The keyed hash and the parser, as far as this token needs them. -/
def loginJwt : JWT where
  hmacSha256 message := if message = loginMessage then loginHmac else []
  parse text :=
    if text = ascii "\x7b\"exp\":1700086400,\"iat\":1700000000,\"jti\":\"a1\",\"userId\":7\x7d" then
      some (.object [("exp", .integer 1700086400), ("iat", .integer 1700000000), ("jti", .string "a1"),
        ("userId", .integer 7)])
    else none
  dump _ := []

def loginClaims : Claims := { userId := 7, jti := "a1", iat := 1700000000, exp := 1700086400 }

theorem loginToken_verifies : loginJwt.verifyAndParse loginToken 1700000000 = some loginClaims := by
  decide +kernel

/-- After a logout the token is refused for the rest of its life exactly if
the logout came in the last millisecond of that life. -/
theorem refused_after_logout_iff (jwt : JWT) (holds : Int → Int → Int → Bool) (expires : Expires holds)
    (redis : Redis) (token : Bytes) (logoutAt : Int) (claims : Claims) (set : Option BlacklistKey)
    (loggedOut : handleLogout jwt redis (bearer token) logoutAt = some (claims, set)) :
    RefusedAfter jwt holds token set logoutAt ↔
      1000 * claims.exp + 999 ≤ logoutAt ∨ KeptWithoutTtl holds claims logoutAt := by
  constructor
  · intro refused
    by_cases ended : 1000 * claims.exp + 999 ≤ logoutAt
    · exact .inl ended
    · have last := (refused_iff loggedOut).mp (refused (1000 * claims.exp + 999) (by omega))
      rcases last with expired | ⟨named, left, held⟩
      · omega
      · refine .inr ⟨named, left, ?_, ?_⟩
        · by_contra positive
          exact not_held_at_end expires left (by omega) held
        · intro time after within
          rcases (refused_iff loggedOut).mp (refused time after) with expired | ⟨_, _, present⟩
          · omega
          · exact present
  · intro given time after
    apply (refused_iff loggedOut).mpr
    by_cases expired : claims.exp < time / 1000
    · exact .inl expired
    · rcases given with ended | ⟨named, left, _, kept⟩
      · omega
      · exact .inr ⟨named, left, kept time after (by omega)⟩

/-- A Redis that keeps a key for its TTL and no longer. -/
def keepsForTtl (setAt ttl time : Int) : Bool := decide (setAt ≤ time ∧ time < setAt + 1000 * ttl)

theorem expires_keepsForTtl : Expires keepsForTtl := by
  intro setAt ttl time _
  exact decide_eq_true_iff

private theorem login_logout (logoutAt : Int) (current : logoutAt / 1000 ≤ 1700086400) :
    handleLogout loginJwt { present := fun _ => false } (bearer loginToken) logoutAt = some (loginClaims,
      revoke "a1" (loginClaims.remainingSeconds (logoutAt / 1000)) logoutAt) := by
  have verified := @JWT.verifyAndParse_later _ _ _ _ (logoutAt / 1000) loginToken_verifies
  rw [if_pos (by exact current)] at verified
  rw [handleLogout, authFromRequest_bearer verified]
  rfl

/-- Nobody can use the token after a logout in its last millisecond. -/
theorem last_millisecond_logout : RefusedAfter loginJwt keepsForTtl loginToken none 1700086400999 := by
  have loggedOut := login_logout 1700086400999 (by decide)
  exact (refused_after_logout_iff loginJwt keepsForTtl expires_keepsForTtl _ loginToken 1700086400999
    loginClaims none loggedOut).mpr (.inl (by decide))

/-- The key is gone at the first millisecond of the second in which the token
is last accepted. -/
theorem revoked_token_accepted_in_last_second :
    ¬ ∀ jwt holds, Expires holds → ∀ redis token logoutAt claims set,
      handleLogout jwt redis (bearer token) logoutAt = some (claims, set) →
        RefusedAfter jwt holds token set logoutAt := by
  intro always
  have loggedOut := login_logout 1700000000000 (by decide)
  have refused := always loginJwt keepsForTtl expires_keepsForTtl _ loginToken _ _ _ loggedOut
  rcases (refused_iff loggedOut).mp (refused 1700086400000 (by decide)) with expired | ⟨_, _, held⟩
  · revert expired
    decide
  · revert held
    decide

end JwtRevocation

end MuduoIm.Server
