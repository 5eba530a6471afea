import CoachingCalendar.Store.Platform
import CoachingCalendar.Store.Schema

/-!
# Tokens

`TokenService`. All tokens are signed with one secret, which is left out. `jsonwebtoken` is a parameter.
Token times are whole seconds, the clock is in milliseconds.
-/

namespace CoachingCalendar.Auth
open Lib

/-! ## jsonwebtoken -/

/-- What a token says. A field that is missing is `undefined`. -/
structure Claims where
  sub : Option String := none
  email : Option String := none
  role : Option CoachRole := none
  purpose : Option String := none
  name : Option String := none
  frontendUrl : Option String := none
  iat : Option Int := none
  exp : Option Int := none
  deriving DecidableEq, Repr

namespace Claims

/-- The times that `jwt.sign` adds. An `iat` of the payload is kept. -/
def stamped (payload : Claims) (expiresIn now : Int) : Claims :=
  let iat := payload.iat.getD (now / 1000)
  { payload with iat := some iat, exp := some (iat + expiresIn) }

def expired (c : Claims) (now : Int) : Bool := c.exp.any (· ≤ now / 1000)

@[simp] theorem stamped_sub (payload : Claims) (expiresIn now : Int) :
    (payload.stamped expiresIn now).sub = payload.sub := rfl

@[simp] theorem stamped_purpose (payload : Claims) (expiresIn now : Int) :
    (payload.stamped expiresIn now).purpose = payload.purpose := rfl

@[simp] theorem stamped_iat (payload : Claims) (expiresIn now : Int) :
    (payload.stamped expiresIn now).iat = some (payload.iat.getD (now / 1000)) := rfl

@[simp] theorem expired_stamped (payload : Claims) (expiresIn now t : Int) :
    (payload.stamped expiresIn now).expired t = decide (payload.iat.getD (now / 1000) + expiresIn ≤ t / 1000) :=
  rfl

end Claims

structure Jwt where
  /-- The signed token for claims that have their times. -/
  encode : Claims → String
  /-- `jwt.verify(token, jwtSecret)` at a time. There is no result when it throws. -/
  verify : String → Int → Option Claims

/-- `jwt.sign(payload, jwtSecret, { expiresIn })` at a time. -/
def Jwt.sign (J : Jwt) (payload : Claims) (expiresIn now : Int) : String :=
  J.encode (payload.stamped expiresIn now)

/-- A signed token reads back as what was signed, until it expires. -/
structure Jwt.ReadsBack (J : Jwt) (c : Claims) : Prop where
  nonempty : J.encode c ≠ ""
  verify : ∀ now, J.verify (J.encode c) now = if c.expired now then none else some c

/-! ## The service -/

def TOKEN_TTL : Int := 30 * 24 * 60 * 60
def GOOGLE_CONNECT_STATE_TTL : Int := 5 * 60
def GOOGLE_CONNECT_STATE_PURPOSE : String := "google-connect"
def COACH_INVITE_TTL : Int := 7 * 24 * 60 * 60
def COACH_INVITE_PURPOSE : String := "coach-invite"
def PASSWORD_RESET_TTL : Int := 60 * 60
def PASSWORD_RESET_PURPOSE : String := "password-reset"

structure AccessTokenPayload where
  sub : String
  email : String
  role : CoachRole
  iat : Option Int := none
  deriving DecidableEq, Repr

def AccessTokenPayload.claims (p : AccessTokenPayload) : Claims :=
  { sub := p.sub, email := p.email, role := p.role, iat := p.iat }

structure CoachInvitePayload where
  email : Option String
  name : Option String
  frontendUrl : Option String
  deriving DecidableEq, Repr

structure PasswordResetTokenPayload where
  coachId : Option String
  iat : Int
  deriving DecidableEq, Repr

namespace TokenService

variable (J : Jwt)

def sign (payload : AccessTokenPayload) (now : Int) : String := J.sign payload.claims TOKEN_TTL now

def verify (token : String) (now : Int) : Except Failure Claims :=
  match J.verify token now with
  | none => throw (.unauthorized (.text "Invalid or expired token"))
  | some payload => return payload

/-- The payload of a token that was signed for a purpose. -/
def verifyPurpose (purpose message token : String) (now : Int) : Except Failure Claims :=
  match J.verify token now with
  | none => throw (.unauthorized (.text message))
  | some payload =>
      if payload.purpose ≠ some purpose then throw (.unauthorized (.text message)) else return payload

def connectStateClaims (coachId : String) : Claims :=
  { sub := coachId, purpose := GOOGLE_CONNECT_STATE_PURPOSE }

def signGoogleConnectState (coachId : String) (now : Int) : String :=
  J.sign (connectStateClaims coachId) GOOGLE_CONNECT_STATE_TTL now

def verifyGoogleConnectState (token : String) (now : Int) : Except Failure (Option String) := do
  let payload ← verifyPurpose J GOOGLE_CONNECT_STATE_PURPOSE "Invalid or expired connect link" token now
  return payload.sub

def inviteClaims (payload : CoachInvitePayload) : Claims :=
  { email := payload.email, name := payload.name, frontendUrl := payload.frontendUrl
    purpose := COACH_INVITE_PURPOSE }

def signCoachInviteToken (payload : CoachInvitePayload) (now : Int) : String :=
  J.sign (inviteClaims payload) COACH_INVITE_TTL now

def verifyCoachInviteToken (token : String) (now : Int) : Except Failure CoachInvitePayload := do
  let payload ← verifyPurpose J COACH_INVITE_PURPOSE "Invalid or expired invite link" token now
  return { email := payload.email, name := payload.name, frontendUrl := payload.frontendUrl }

def resetClaims (coachId : String) : Claims := { sub := coachId, purpose := PASSWORD_RESET_PURPOSE }

def signPasswordResetToken (coachId : String) (now : Int) : String :=
  J.sign (resetClaims coachId) PASSWORD_RESET_TTL now

def verifyPasswordResetToken (token : String) (now : Int) : Except Failure PasswordResetTokenPayload := do
  let payload ← verifyPurpose J PASSWORD_RESET_PURPOSE "Invalid or expired reset link" token now
  match payload.iat with
  | none => throw (.unauthorized (.text "Invalid or expired reset link"))
  | some iat => return { coachId := payload.sub, iat }

end TokenService

/-! ## A token library to run examples on -/

/-- It signs and reads the tokens of a list. -/
def Jwt.sample (known : List (String × Claims)) : Jwt where
  encode c := ((known.find? (·.2 = c)).map (·.1)).getD ""
  verify token now := (known.lookup token).filter fun c => !c.expired now

theorem Jwt.sample_readsBack {known : List (String × Claims)} (token : String) {c : Claims}
    (hs : known.find? (·.2 = c) = some (token, c)) (hv : known.lookup token = some c) (ht : token ≠ "") :
    (Jwt.sample known).ReadsBack c := by
  have he : (Jwt.sample known).encode c = token := by simp [sample, hs]
  refine ⟨he ▸ ht, fun now => ?_⟩
  rw [he]
  cases hx : c.expired now <;> simp [sample, hv, Option.filter, hx]

end CoachingCalendar.Auth
