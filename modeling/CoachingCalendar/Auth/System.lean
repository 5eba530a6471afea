import CoachingCalendar.Auth.Service

/-!
# The account system

Logins, accepted invites, password resets and revocations running at the same time, while the clock goes
forward.
-/

namespace CoachingCalendar.Auth
open Lib Lib.System

inductive Call where
  | login (email password : String)
  | acceptInvite (token password : String)
  | forgotPassword (email : String) (requestOrigin : Option String)
  | resetPassword (token newPassword : String)
  | revokeSessions (coachId : String)
  deriving DecidableEq, Repr

namespace Call

def isReset : Call → Bool
  | .resetPassword _ _ => true
  | _ => false

def body (S : Services) : Call → AuthProg (Option Session)
  | .login email password => do return some (← AuthService.login email password)
  | .acceptInvite token password => do return some (← CoachesService.acceptInvite S.jwt token password)
  | .forgotPassword email requestOrigin => do
      AuthService.forgotPassword email requestOrigin
      return none
  | .resetPassword token newPassword => do
      return some (← AuthService.resetPassword S.jwt token newPassword)
  | .revokeSessions coachId => do return some (← CoachesService.revokeSessions coachId)

end Call

/-- Milliseconds that pass. -/
abbrev Drift := Nat

def authSystem (S : Services) : System Ans Failure (Option Session) World Choice Call Drift where
  exec := exec S
  body := Call.body S
  accept _ w := some w
  drift ms w := { w with clock := w.clock + ms }

abbrev AuthConfig := Config Ans Failure (Option Session) World Call
abbrev AuthGuard := Guard Ans Failure (Option Session) World Call
abbrev AuthEntry := Logged Ans Failure
abbrev AuthMove := Move Choice Call Drift

/-! ## What an entry of the log did -/

/-- The coach whose sessions it revoked, with the stamp. -/
def revocation : Event Ans Failure → Option (String × Int)
  | ⟨.coachUpdate id patch, .ok _⟩ => patch.sessionsRevokedAt.map fun revokedAt => (id, revokedAt)
  | _ => none

def revokes (id : String) (e : AuthEntry) : Bool := (revocation e.toEvent).any (·.1 = id)

/-- The last revocation of a coach. -/
def lastRevocation (id : String) (log : List AuthEntry) : Option AuthEntry := log.reverse.find? (revokes id)

/-- It changed the coach table. -/
def writes : Event Ans Failure → Bool
  | ⟨.coachCreate _, .ok _⟩ => true
  | ⟨.coachUpdate _ _, .ok _⟩ => true
  | _ => false

/-- When the sessions of a coach were last revoked. -/
def stamp (coaches : Table Coach.id) (id : String) : Option Int := (coaches.find id).bind (·.sessionsRevokedAt)

/-- The access tokens of a coach that have been signed. -/
def World.accessTokens (w : World) (coachId : String) : List Minted :=
  w.minted.filter fun m => m.payload.sub = some coachId && m.payload.purpose = none

/-! ## A world and moves to run examples with -/

/-- What the payload of a session of the sample coach says, with the pinned second of a reset. -/
def Claims.session (iat : Option Int) : Claims := AccessTokenPayload.claims ⟨"c1", "coach@example.com", .coach, iat⟩

/-- It reads a reset link from second 1000, two tokens signed half a second later, a plain one and one that a
reset pinned to second 1001, and a plain one from second 1002. The hash of a password is the password. -/
def Services.sample : Services where
  jwt := .sample [("link", (TokenService.resetClaims "c1").stamped PASSWORD_RESET_TTL 1000000),
    ("plain", (Claims.session none).stamped TOKEN_TTL 1000500),
    ("pinned", (Claims.session (some 1001)).stamped TOKEN_TTL 1000500),
    ("late", (Claims.session none).stamped TOKEN_TTL 1002000)]
  compare password hash := password = hash
  hash password _ := password

/-- One coach, at half past second 1000. -/
def World.sample : World where
  coaches := ⟨[.sample], List.nodup_singleton _⟩
  clock := 1000500

/-- The row of the sample coach with a stamp. -/
def stampedCoach (R : Int) : Coach := { Coach.sample with sessionsRevokedAt := some R }

/-- Call `i` issues its next `n` operations, and they go well. -/
def fires (i n : Nat) (ch : Choice := {}) : List AuthMove := List.replicate n (.fire i ch)

end CoachingCalendar.Auth
