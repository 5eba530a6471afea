import CoachingCalendar.Access.Service
import CoachingCalendar.Auth.System
import CoachingCalendar.Lib.Pool

/-!
# The routes as one system

Requests to the four controllers, each behind its guards, and the calendar service that asks for a Google client. They
run at the same time, while the clock goes forward.
-/

namespace CoachingCalendar.Access
open Lib Lib.System
open Auth (Jwt Session AuthService.login AuthService.resetPassword TokenService.verify)

inductive Call where
  | login (email password : String)
  | acceptInvite (token password : String)
  | forgotPassword (email : String) (requestOrigin : Option String)
  | resetPassword (token newPassword : String)
  | findAll (authorization : Option String)
  | me (authorization : Option String)
  | updateMe (authorization : Option String) (dto : UpdateCoachDto)
  | changePassword (authorization : Option String) (dto : ChangePasswordDto)
  | invite (authorization : Option String) (dto : InviteCoachDto)
  | revokeSessions (authorization : Option String) (id : String)
  | setFrontendUrl (authorization : Option String) (id frontendUrl : String)
  | listOrigins (authorization : Option String)
  | addOrigin (authorization : Option String) (k : Nat) (dto : Origins.CreateAllowedOriginDto)
  | removeOrigin (authorization : Option String) (k : Nat) (id : String)
  | connectToken (authorization : Option String)
  | connect (state : String)
  | callback (code : Option String) (state : String)
  | status (authorization : Option String)
  | getClient (coachId : String)
  deriving DecidableEq, Repr

inductive Reply where
  | session (session : Session)
  | coach (coach : Coach)
  | coaches (coaches : List Coach)
  | origin (row : Origins.AllowedOrigin)
  | origins (rows : List Origins.AllowedOrigin)
  | state (state : String)
  | redirect (url : String)
  | status (status : GoogleStatus)
  | client (refreshToken : String)
  | nothing
  deriving DecidableEq, Repr

def Reply.isSession : Reply → Bool
  | .session _ => true
  | _ => false

theorem Reply.isSession_eq {reply : Reply} (h : reply.isSession = true) : ∃ s, reply = .session s := by
  cases reply with
  | session s => exact ⟨s, rfl⟩
  | _ => cases h

namespace Call

variable (S : Services)

def body : Call → AccessProg Reply
  | .login email password => do return .session (← accounts (AuthService.login email password))
  | .acceptInvite token password => do
      return .session (← accounts (Auth.CoachesService.acceptInvite S.jwt token password))
  | .forgotPassword email requestOrigin => do
      accounts (Auth.AuthService.forgotPassword email requestOrigin)
      return .nothing
  | .resetPassword token newPassword => do
      return .session (← accounts (AuthService.resetPassword S.jwt token newPassword))
  | .findAll authorization => do
      let _admin ← adminOnly S.jwt authorization
      return .coaches (← CoachesService.findAll)
  | .me authorization => do return .coach (← JwtAuthGuard.canActivate S.jwt authorization)
  | .updateMe authorization dto => do
      let coach ← JwtAuthGuard.canActivate S.jwt authorization
      return .coach (← CoachesService.update coach.id dto)
  | .changePassword authorization dto => do
      let coach ← JwtAuthGuard.canActivate S.jwt authorization
      CoachesService.changePassword coach dto
      return .nothing
  | .invite authorization dto => do
      let _admin ← adminOnly S.jwt authorization
      CoachesService.invite dto
      return .nothing
  | .revokeSessions authorization id => do
      let _admin ← adminOnly S.jwt authorization
      let session ← accounts (Auth.CoachesService.revokeSessions id)
      return .coach session.coach
  | .setFrontendUrl authorization id frontendUrl => do
      let _admin ← adminOnly S.jwt authorization
      return .coach (← CoachesService.setFrontendUrl id frontendUrl)
  | .listOrigins authorization => do
      let _admin ← adminOnly S.jwt authorization
      return .origins (← AllowedOriginsService.list)
  | .addOrigin authorization k dto => do
      let _admin ← adminOnly S.jwt authorization
      return .origin (← origins (Origins.AllowedOriginsService.add k dto))
  | .removeOrigin authorization k id => do
      let _admin ← adminOnly S.jwt authorization
      origins (Origins.AllowedOriginsService.remove k id)
      return .nothing
  | .connectToken authorization => do
      let coach ← JwtAuthGuard.canActivate S.jwt authorization
      return .state (← GoogleController.connectToken coach)
  | .connect state => do return .redirect (← GoogleController.connect S state)
  | .callback code state => do
      GoogleController.callback S code state
      return .nothing
  | .status authorization => do
      let coach ← JwtAuthGuard.canActivate S.jwt authorization
      return .status (← GoogleOAuthService.status coach.id)
  | .getClient coachId => do return .client (← GoogleOAuthService.getAuthenticatedClient S coachId)

end Call

namespace Call

/-- The `Authorization` header. -/
def header : Call → Option String
  | .findAll authorization | .me authorization | .updateMe authorization _ | .changePassword authorization _
  | .invite authorization _ | .revokeSessions authorization _ | .setFrontendUrl authorization _ _
  | .listOrigins authorization | .addOrigin authorization _ _ | .removeOrigin authorization _ _
  | .connectToken authorization | .status authorization => authorization
  | _ => none

/-- The token that it presents. -/
def token : Call → Option String
  | .acceptInvite token _ | .resetPassword token _ => some token
  | .connect state | .callback _ state => some state
  | call => Auth.extractToken call.header

end Call

/-- Milliseconds that pass. -/
abbrev Drift := Nat

def World.pass (ms : Nat) (w : World) : World :=
  { w with
    accounts := { w.accounts with clock := w.accounts.clock + ms }
    origins := { w.origins with clock := w.origins.clock + ms } }

def accessSystem (S : Services) : System Ans Failure Reply World Choice Call Drift where
  exec := exec S
  body := Call.body S
  accept _ w := some w
  drift := World.pass

abbrev AccessConfig := Config Ans Failure Reply World Call
abbrev AccessGuard := Guard Ans Failure Reply World Call
abbrev AccessEntry := Logged Ans Failure
abbrev AccessMove := Move Choice Call Drift
abbrev Past := List (Event Ans Failure)

/-! ## A world and moves to run examples with -/

/-- The tokens are those that the sample requests are given in second 1000. -/
def Services.sample : Services where
  jwt := .sample [
    ("admin", (Auth.AccessTokenPayload.claims ⟨"a1", "admin@example.com", .admin, none⟩).stamped Auth.TOKEN_TTL 1000000),
    ("coach", (Auth.AccessTokenPayload.claims ⟨"c1", "coach@example.com", .coach, none⟩).stamped Auth.TOKEN_TTL 1000000),
    ("invite", (Auth.TokenService.inviteClaims ⟨"eva@example.com", "Eva", "https://eva.example.com"⟩).stamped
      Auth.COACH_INVITE_TTL 1000000),
    ("second", (Auth.TokenService.inviteClaims ⟨"adam@example.com", "Adam", "https://adam.example.com"⟩).stamped
      Auth.COACH_INVITE_TTL 1000000),
    ("state", (Auth.TokenService.connectStateClaims "c1").stamped Auth.GOOGLE_CONNECT_STATE_TTL 1000000)]
  compare password hash := password = hash
  hash password _ := password
  crypto := .sample
  encryptionKey := "AAECAwQFBgcICQoLDA0ODxAREhMUFRYXGBkaGxwdHh8="
  authUrl state := state

/-- An admin, a coach and one allowed origin. -/
def World.sample : World where
  accounts := {
    coaches := ⟨[{ id := "a1", email := "admin@example.com", passwordHash := "root", name := "Admin", role := .admin },
      .sample], by decide⟩
    clock := 1000000 }
  origins := { table := ⟨⟨[⟨"o1", "https://eva.example.com", none⟩], by decide⟩, by decide⟩, clock := 1000000 }
  connections := .empty

/-- Call `i` issues its next `n` operations, and they go well. -/
def fires (i n : Nat) (ch : Choice := {}) : List AccessMove := List.replicate n (.fire i ch)

end CoachingCalendar.Access
