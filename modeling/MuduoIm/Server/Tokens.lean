import MuduoIm.Common.JWT.RoundTrip
import MuduoIm.Data.Table
import MuduoIm.Server.Handshake
import MuduoIm.Transition.Machine

namespace MuduoIm.Server.Tokens

open MuduoIm.Data MuduoIm.Common MuduoIm.Transition
open MuduoIm.Server.JwtRevocation MuduoIm.Server.Handshake

/-! # The life of the tokens

Every login issues a token for a day.  A logout, a password change and a
deletion of the account revoke the token of their own request, some time after
they have checked it, and no other.  Redis comes and goes; a key that is set
again starts anew.
-/

def expireSeconds : Int := 86400

structure Token where
  text : Bytes
  claims : Claims
deriving DecidableEq

/-- `authorised` is a request that revokes its token when it has succeeded. -/
inductive Phase where
  | idle
  | authorised (claims : Claims)
  | done
deriving DecidableEq, Repr

/-- `now` counts milliseconds.  `issued` and `revocations` are histories, the
latter of the ids that were put into Redis and of the times, the last in front. -/
structure State (Call : Type) where
  now : Int
  reachable : Bool := true
  keys : Table String BlacklistKey := ∅
  calls : Call → Phase := fun _ => .idle
  issued : List Token := []
  revocations : List (String × Int) := []

inductive Event (Call : Type) where
  | login (userId : Int) (jti : String)
  | authorise (call : Call) (token : Bytes)
  | revoke (call : Call)
  | abandon (call : Call)
  | wait (milliseconds : Nat)
  | redis (reachable : Bool)
deriving DecidableEq, Repr

variable {Call : Type}

def State.redis (state : State Call) : Redis where
  reachable := state.reachable
  present key := (state.keys.lookup key).any (fun entry => keepsForTtl entry.setAt entry.ttl state.now)

variable [DecidableEq Call]

def State.goto (state : State Call) (call : Call) (phase : Phase) : State Call :=
  { state with calls := Function.update state.calls call phase }

variable (jwt : JWT)

/-- The ids of the users count from 1, and every login has a new `jti`.  Only
tokens that have been issued are presented. -/
def step (state : State Call) : Event Call → Option (State Call)
  | .login userId jti =>
      let iat := state.now / 1000
      if 0 < userId ∧ userId < 2 ^ 63 ∧ 0 ≤ iat ∧ iat + expireSeconds < 2 ^ 63 ∧ jti ≠ "" ∧
          ∀ token ∈ state.issued, token.claims.jti ≠ jti then
        some { state with issued :=
          { text := jwt.generateWithJti userId jti expireSeconds iat
            claims := { userId, jti, iat, exp := iat + expireSeconds } } :: state.issued }
      else none
  | .authorise call text =>
      match state.calls call with
      | .idle =>
          if ∃ token ∈ state.issued, token.text = text then
            match authFromRequest jwt state.redis (bearer text) (state.now / 1000) with
            | none => some (state.goto call .done)
            | some claims => some (state.goto call (.authorised claims))
          else none
      | _ => none
  | .revoke call =>
      match state.calls call with
      | .authorised claims =>
          match if claims.jti = "" then none
              else revoke claims.jti (claims.remainingSeconds (state.now / 1000)) state.now with
          | some entry =>
              if state.reachable then
                some { state.goto call .done with
                  keys := state.keys.insert entry.key entry
                  revocations := (claims.jti, state.now) :: state.revocations }
              else some (state.goto call .done)
          | none => some (state.goto call .done)
      | _ => none
  | .abandon call =>
      match state.calls call with
      | .authorised _ => some (state.goto call .done)
      | _ => none
  | .wait milliseconds => some { state with now := state.now + milliseconds }
  | .redis reachable => some { state with reachable }

def machine : Machine (State Call) (Event Call) := ⟨step jwt⟩

/-- When the token with this id was last put into Redis. -/
def lastRevoked (jti : String) (revocations : List (String × Int)) : Option Int :=
  revocations.lookup jti

/-- Redis can be asked, and the last revocation of the token, which the key
outlives by what is left of the token's seconds, has not run out. -/
def Revoked (state : State Call) (claims : Claims) : Prop :=
  state.reachable = true ∧ ∃ setAt, lastRevoked claims.jti state.revocations = some setAt ∧
    state.now < 1000 * claims.exp + setAt % 1000

/-- The parser reads what was written into the token of a login. -/
def ReadsBack (jwt : JWT) (state : State Call) : Event Call → Prop
  | .login userId jti =>
      jwt.parse (jwt.dump (JWT.payload userId jti expireSeconds (state.now / 1000))) =
        some (JWT.payload userId jti expireSeconds (state.now / 1000))
  | _ => True

/-- Every token is signed, and no two have one id. -/
structure Issued (jwt : JWT) (state : State Call) : Prop where
  signed : ∀ token ∈ state.issued, jwt.signedClaims token.text = some token.claims
  valid : ∀ token ∈ state.issued, 0 < token.claims.userId ∧ token.claims.exp ≠ 0 ∧ token.claims.jti ≠ "" ∧
    token.claims.exp ≤ state.now / 1000 + expireSeconds
  distinct : ∀ token ∈ state.issued, ∀ other ∈ state.issued,
    token.claims.jti = other.claims.jti → token.claims = other.claims

/-- The keys in Redis are those of the last revocations. -/
def Blacklisted (state : State Call) : Prop :=
  ∀ jti, match lastRevoked jti state.revocations with
    | none => state.keys.lookup (kKeyPrefix ++ jti) = none
    | some setAt => ∃ token ∈ state.issued, token.claims.jti = jti ∧ setAt ≤ state.now ∧
        state.keys.lookup (kKeyPrefix ++ jti) =
          some { key := kKeyPrefix ++ jti, ttl := token.claims.exp - setAt / 1000, setAt }

structure Sound (jwt : JWT) (state : State Call) : Prop where
  issued : Issued jwt state
  blacklisted : Blacklisted state
  authorised : ∀ call claims, state.calls call = .authorised claims → ∃ token ∈ state.issued, token.claims = claims

variable {jwt} {state next : State Call} {call : Call} {claims : Claims} {token : Token}

/-! ## One step -/

theorem Sound.goto {phase : Phase} (sound : Sound jwt state)
    (allowed : ∀ claims, phase = .authorised claims → ∃ token ∈ state.issued, token.claims = claims) :
    Sound jwt (state.goto call phase) where
  issued := ⟨sound.issued.signed, sound.issued.valid, sound.issued.distinct⟩
  blacklisted := sound.blacklisted
  authorised other claims waiting := by
    simp only [State.goto, Function.update_apply] at waiting
    split at waiting
    · exact allowed claims waiting
    · exact sound.authorised other claims waiting

theorem Sound.login {userId : Int} {jti : String} (sound : Sound jwt state)
    (readsBack : ReadsBack jwt state (.login userId jti))
    (stepped : step jwt state (.login userId jti) = some next) : Sound jwt next := by
  dsimp only [step] at stepped
  split at stepped
  · rename_i guard
    obtain ⟨somebody, word, started, ends, named, fresh⟩ := guard
    cases stepped
    have signed := JWT.signedClaims_generateWithJti jwt readsBack
    rw [JWT.claimsOf_payload ⟨by omega, word⟩ ⟨by omega, by unfold expireSeconds at ends; omega⟩
      ⟨by unfold expireSeconds; omega, ends⟩] at signed
    refine ⟨⟨?_, ?_, ?_⟩, ?_, ?_⟩
    · intro token member
      obtain rfl | older := List.mem_cons.mp member
      · exact signed
      · exact sound.issued.signed token older
    · intro token member
      obtain rfl | older := List.mem_cons.mp member
      · refine ⟨somebody, ?_, named, Int.le_refl _⟩
        dsimp only [expireSeconds]
        omega
      · exact sound.issued.valid token older
    · intro token member other among same
      obtain rfl | older := List.mem_cons.mp member
      · obtain rfl | earlier := List.mem_cons.mp among
        · rfl
        · exact absurd same.symm (fresh other earlier)
      · obtain rfl | earlier := List.mem_cons.mp among
        · exact absurd same (fresh token older)
        · exact sound.issued.distinct token older other earlier same
    · intro other
      have before := sound.blacklisted other
      dsimp only
      split at before
      · exact before
      · obtain ⟨token, member, held⟩ := before
        exact ⟨token, List.mem_cons_of_mem _ member, held⟩
    · intro call claims waiting
      obtain ⟨token, member, same⟩ := sound.authorised call claims waiting
      exact ⟨token, List.mem_cons_of_mem _ member, same⟩
  · cases stepped

omit [DecidableEq Call] in
theorem Sound.wait (sound : Sound jwt state) (milliseconds : Nat) :
    Sound jwt { state with now := state.now + milliseconds } where
  issued := by
    refine ⟨sound.issued.signed, fun token member => ?_, sound.issued.distinct⟩
    have valid := sound.issued.valid token member
    refine ⟨valid.1, valid.2.1, valid.2.2.1, ?_⟩
    dsimp only
    omega
  blacklisted jti := by
    have before := sound.blacklisted jti
    dsimp only
    split at before
    · exact before
    · obtain ⟨token, member, same, earlier, held⟩ := before
      exact ⟨token, member, same, by omega, held⟩
  authorised := sound.authorised

omit [DecidableEq Call] in
/-- The claims of an accepted token are those it was issued with. -/
theorem Sound.accepted {now : Int} {redis : Redis} (sound : Sound jwt state) (member : token ∈ state.issued)
    (accepted : authFromRequest jwt redis (bearer token.text) now = some claims) : claims = token.claims := by
  have known := sound.issued.signed token member
  cases verified : jwt.verifyAndParse token.text now with
  | none =>
      have rest : (bearer token.text).drop 7 = token.text := rfl
      rw [authFromRequest, rest, verified] at accepted
      split at accepted <;> cases accepted
  | some found =>
      rw [authFromRequest_bearer verified] at accepted
      obtain ⟨same, _⟩ := JWT.verifyAndParse_eq_some.mp verified
      rw [known] at same
      cases same
      split at accepted
      · cases accepted
      · exact (Option.some.inj accepted).symm

theorem Sound.authorise {text : Bytes} (sound : Sound jwt state)
    (stepped : step jwt state (.authorise call text) = some next) : Sound jwt next := by
  dsimp only [step] at stepped
  split at stepped
  · split at stepped
    · rename_i presented
      obtain ⟨token, member, same⟩ := presented
      split at stepped
      · cases stepped
        exact sound.goto fun _ impossible => by cases impossible
      · rename_i claims accepted
        cases stepped
        rw [← same] at accepted
        refine sound.goto fun other waiting => ⟨token, member, ?_⟩
        cases waiting
        exact (sound.accepted member accepted).symm
    · cases stepped
  · cases stepped

omit [DecidableEq Call] in
/-- The key that revokes a token, with a TTL that the cast leaves as it is. -/
theorem revocation_eq {entry : BlacklistKey} (sound : Sound jwt state) (member : token ∈ state.issued)
    (set : revoke token.claims.jti (token.claims.remainingSeconds (state.now / 1000)) state.now = some entry) :
    entry = { key := kKeyPrefix ++ token.claims.jti, ttl := token.claims.exp - state.now / 1000,
              setAt := state.now } := by
  obtain ⟨_, _, _, lifetime⟩ := sound.issued.valid token member
  rw [revoke] at set
  split at set
  · cases set
  · rename_i lasting
    have left : state.now / 1000 < token.claims.exp := by
      by_contra expired
      have none_left : token.claims.remainingSeconds (state.now / 1000) = 0 := if_neg expired
      rw [none_left] at lasting
      exact lasting (.inr (Int.le_refl 0))
    have remaining : token.claims.remainingSeconds (state.now / 1000) = token.claims.exp - state.now / 1000 :=
      if_pos left
    rw [remaining] at set
    have small : (token.claims.exp - state.now / 1000).bmod (2 ^ 32) = token.claims.exp - state.now / 1000 := by
      unfold expireSeconds at lifetime
      rw [Int.bmod_def]
      omega
    rw [small] at set
    exact (Option.some.inj set).symm

theorem prefixed_inj {jti other : String} : kKeyPrefix ++ jti = kKeyPrefix ++ other ↔ jti = other :=
  String.append_right_inj kKeyPrefix

theorem Sound.revoke (sound : Sound jwt state) (stepped : step jwt state (.revoke call) = some next) :
    Sound jwt next := by
  dsimp only [step] at stepped
  split at stepped
  · rename_i claims waiting
    obtain ⟨token, member, rfl⟩ := sound.authorised call claims waiting
    have done : Sound jwt (state.goto call .done) := sound.goto fun _ impossible => by cases impossible
    rw [if_neg (sound.issued.valid token member).2.2.1] at stepped
    split at stepped
    · rename_i entry set
      split at stepped
      · have written := revocation_eq sound member set
        cases stepped
        refine ⟨⟨sound.issued.signed, sound.issued.valid, sound.issued.distinct⟩, fun jti => ?_, done.authorised⟩
        have before := sound.blacklisted jti
        by_cases revoked : jti = token.claims.jti
        · rw [revoked]
          simp only [lastRevoked, List.lookup_cons_self]
          refine ⟨token, member, rfl, Int.le_refl _, ?_⟩
          rw [written]
          exact AList.lookup_insert _
        · have other : kKeyPrefix ++ jti ≠ entry.key := by
            rw [written]
            exact fun same => revoked (prefixed_inj.mp same)
          have unlisted : lastRevoked jti ((token.claims.jti, state.now) :: state.revocations) =
              lastRevoked jti state.revocations := by
            have differs : (jti == token.claims.jti) = false := by simpa using revoked
            rw [lastRevoked, lastRevoked, List.lookup_cons, differs]
          simp only [unlisted, AList.lookup_insert_ne other]
          exact before
      · cases stepped
        exact done
    · cases stepped
      exact done
  · cases stepped

theorem step_sound {event : Event Call} (sound : Sound jwt state) (readsBack : ReadsBack jwt state event)
    (stepped : step jwt state event = some next) : Sound jwt next := by
  cases event with
  | login userId jti => exact sound.login readsBack stepped
  | authorise call text => exact sound.authorise stepped
  | revoke call => exact sound.revoke stepped
  | abandon call =>
      dsimp only [step] at stepped
      split at stepped
      · cases stepped
        exact sound.goto fun _ impossible => by cases impossible
      · cases stepped
  | wait milliseconds =>
      cases stepped
      exact sound.wait milliseconds
  | redis reachable =>
      cases stepped
      exact ⟨⟨sound.issued.signed, sound.issued.valid, sound.issued.distinct⟩, sound.blacklisted, sound.authorised⟩

/-! ## Which tokens are accepted -/

omit [DecidableEq Call] in
/-- What the requests see of Redis are the revocations that have not run out. -/
theorem isRevoked_iff (sound : Sound jwt state) (member : token ∈ state.issued) :
    isRevoked state.redis token.claims.jti = true ↔ Revoked state token.claims := by
  have named := (sound.issued.valid token member).2.2.1
  have listed := sound.blacklisted token.claims.jti
  simp only [isRevoked, State.redis, Bool.and_eq_true, decide_eq_true_eq, Revoked, named, ne_eq, not_false_eq_true,
    true_and]
  refine and_congr_right' ?_
  split at listed
  · rename_i never
    rw [listed, never]
    simp
  · rename_i setAt last
    obtain ⟨other, among, same, earlier, held⟩ := listed
    have claims := sound.issued.distinct other among token member same
    rw [held, last, claims]
    simp only [Option.any_some, keepsForTtl, decide_eq_true_eq, Option.some.injEq, exists_eq_left']
    omega

omit [DecidableEq Call] in
theorem connection_open_iff (sound : Sound jwt state) (member : token ∈ state.issued) {path : Bytes}
    (carried : tokenOf path = some token.text) :
    connectionHandler jwt path (state.now / 1000) = .online token.claims.userId ↔
      state.now / 1000 ≤ token.claims.exp := by
  obtain ⟨somebody, dated, _⟩ := sound.issued.valid token member
  have verified := @JWT.verifyAndParse_eq_some jwt token.text token.claims (state.now / 1000)
  constructor
  · intro opened
    by_contra expired
    have refused : jwt.verifyAndParse token.text (state.now / 1000) = none := by
      rw [JWT.verifyAndParse, sound.issued.signed token member]
      exact if_pos (.inr (by omega))
    have nobody : extractUserIdFromPath jwt path (state.now / 1000) = -1 := by
      rw [extractUserIdFromPath, carried]
      dsimp only
      rw [JWT.verify, refused]
      rfl
    rw [connectionHandler, nobody] at opened
    cases opened
  · intro current
    exact connectionHandler_eq (verified.mpr ⟨sound.issued.signed token member, dated, current, somebody⟩) carried

/-- At every moment of every run, a token that a login has issued is accepted
with a request exactly as long as it has not expired and is not revoked, which
only a request with this very token can do.  It opens a connection exactly as
long as it has not expired. -/
theorem accepted_iff (start : Int) (events : List (Event Call)) (after : State Call)
    (readsBack : (machine jwt).Meets (ReadsBack jwt) { now := start } events)
    (completed : (machine jwt).run { now := start } events = some after) :
    ∀ token ∈ after.issued,
      (authFromRequest jwt after.redis (bearer token.text) (after.now / 1000) = some token.claims ↔
        after.now / 1000 ≤ token.claims.exp ∧ ¬ Revoked after token.claims) ∧
      ∀ path, tokenOf path = some token.text →
        (connectionHandler jwt path (after.now / 1000) = .online token.claims.userId ↔
          after.now / 1000 ≤ token.claims.exp) := by
  have begun : Sound jwt ({ now := start } : State Call) :=
    { issued := ⟨List.forall_mem_nil _, List.forall_mem_nil _, List.forall_mem_nil _⟩
      blacklisted := fun _ => rfl
      authorised := fun _ _ waiting => by cases waiting }
  have always := Machine.always_of_meets (Sound jwt) begun
    (fun _ _ _ held reads stepped => step_sound held reads stepped) readsBack
  have sound := always.atEnd completed
  intro token member
  obtain ⟨somebody, dated, named, _⟩ := sound.issued.valid token member
  refine ⟨?_, fun path carried => connection_open_iff sound member carried⟩
  have verified := @JWT.verifyAndParse_eq_some jwt token.text token.claims (after.now / 1000)
  by_cases current : after.now / 1000 ≤ token.claims.exp
  · rw [authFromRequest_bearer (verified.mpr ⟨sound.issued.signed token member, dated, current, somebody⟩),
      ← isRevoked_iff sound member]
    simp [named, current]
  · refine iff_of_false (fun accepted => ?_) fun given => current given.1
    have rest : (bearer token.text).drop 7 = token.text := rfl
    have refused : jwt.verifyAndParse token.text (after.now / 1000) = none := by
      rw [JWT.verifyAndParse, sound.issued.signed token member]
      exact if_pos (.inr (by omega))
    rw [authFromRequest, rest, refused] at accepted
    split at accepted <;> cases accepted

/-- The JSON library, as far as the token of user 7 needs it. -/
def issuer : JWT where
  hmacSha256 := loginJwt.hmacSha256
  parse := loginJwt.parse
  dump json :=
    if (json.member "alg").isSome then ascii "\x7b\"alg\":\"HS256\",\"typ\":\"JWT\"\x7d"
    else ascii "\x7b\"exp\":1700086400,\"iat\":1700000000,\"jti\":\"a1\",\"userId\":7\x7d"

theorem issuer_token : issuer.generateWithJti 7 "a1" expireSeconds 1700000000 = loginToken := by
  decide +kernel

/-- The states of a login and of a logout with its token. -/
def loggedIn : State Unit := { now := 1700000000000, issued := [{ text := loginToken, claims := loginClaims }] }

def loggingOut : State Unit := loggedIn.goto () (.authorised loginClaims)

theorem login_and_authorise :
    step issuer ({ now := 1700000000000 } : State Unit) (.login 7 "a1") = some loggedIn ∧
      step issuer loggedIn (.authorise () loginToken) = some loggingOut := by
  have seconds : (1700000000000 : Int) / 1000 = 1700000000 := by decide
  have verified : issuer.verifyAndParse loginToken 1700000000 = some loginClaims := by decide +kernel
  constructor
  · rw [step, seconds, if_pos (by simp [expireSeconds]), issuer_token]
    rfl
  · have accepted : authFromRequest issuer loggedIn.redis (bearer loginToken) 1700000000 = some loginClaims := by
      rw [authFromRequest_bearer verified]
      exact if_neg (by simp [isRevoked, loggedIn, State.redis])
    have presented : ∃ token ∈ loggedIn.issued, token.text = loginToken := ⟨_, .head _, rfl⟩
    have second : loggedIn.now / 1000 = 1700000000 := seconds
    simp only [step, second, accepted, if_pos presented]
    rfl

theorem logout_revokes :
    step issuer { loggingOut with now := 1700000000250 } (.revoke ()) =
      some { loggingOut.goto () .done with
        now := 1700000000250
        keys := AList.insert "jwt_blacklist:a1"
          { key := "jwt_blacklist:a1", ttl := 86400, setAt := 1700000000250 } loggingOut.keys
        revocations := [("a1", 1700000000250)] } := by
  have waiting : loggingOut.calls () = .authorised loginClaims := rfl
  have set : revoke loginClaims.jti (loginClaims.remainingSeconds (1700000000250 / 1000)) 1700000000250 =
      some { key := "jwt_blacklist:a1", ttl := 86400, setAt := 1700000000250 } := by decide
  have named : loginClaims.jti ≠ "" := by decide
  simp only [step, waiting, if_neg named, set]
  rfl

theorem revoked_at_once :
    ∃ after : State Unit, (machine issuer).run { now := 1700000000000 }
        [.login 7 "a1", .authorise () loginToken, .wait 250, .revoke (), .wait 1000] = some after ∧
      authFromRequest issuer after.redis (bearer loginToken) (after.now / 1000) ≠ some loginClaims ∧
      connectionHandler issuer (ascii "/ws?token=" ++ loginToken) (after.now / 1000) = .online 7 := by
  obtain ⟨login, authorise⟩ := login_and_authorise
  have completed : ∃ after : State Unit, (machine issuer).run { now := 1700000000000 }
      [.login 7 "a1", .authorise () loginToken, .wait 250, .revoke (), .wait 1000] = some after ∧
      after.issued = loggedIn.issued ∧ after.now = 1700000001250 ∧ after.reachable = true ∧
      after.revocations = [("a1", 1700000000250)] := by
    have waited : step issuer loggingOut (.wait 250) = some { loggingOut with now := 1700000000250 } := by
      simp [step, loggingOut, loggedIn, State.goto]
    refine ⟨{ loggingOut.goto () .done with
        now := 1700000001250
        keys := AList.insert "jwt_blacklist:a1"
          { key := "jwt_blacklist:a1", ttl := 86400, setAt := 1700000000250 } loggingOut.keys
        revocations := [("a1", 1700000000250)] }, ?_, rfl, rfl, rfl, rfl⟩
    simp only [Machine.run_cons, machine, login, authorise, waited, logout_revokes, Option.bind_some]
    simp [step]
  obtain ⟨after, completed, issued, now, reachable, revocations⟩ := completed
  have written : ReadsBack issuer ({ now := 1700000000000 } : State Unit) (.login 7 "a1") := by
    have seconds : (1700000000000 : Int) / 1000 = 1700000000 := by decide
    rw [ReadsBack, seconds]
    rfl
  have readsBack : (machine issuer).Meets (ReadsBack issuer) ({ now := 1700000000000 } : State Unit)
      [.login 7 "a1", .authorise () loginToken, .wait 250, .revoke (), .wait 1000] := by
    refine Machine.Meets.cons login written (Machine.meets_of_forall fun event member _ => ?_)
    simp only [List.mem_cons, List.not_mem_nil, or_false] at member
    obtain rfl | rfl | rfl | rfl := member <;> trivial
  have present : { text := loginToken, claims := loginClaims } ∈ after.issued := by
    rw [issued]
    exact .head _
  have accepted := accepted_iff 1700000000000 _ after readsBack completed _ present
  refine ⟨after, completed, fun given => ?_, ?_⟩
  · refine (accepted.1.mp given).2 ⟨reachable, 1700000000250, ?_, ?_⟩
    · rw [revocations]
      rfl
    · rw [now]
      decide
  · refine (accepted.2 _ (tokenOf_query (by decide +kernel))).mpr ?_
    rw [now]
    decide

end MuduoIm.Server.Tokens
