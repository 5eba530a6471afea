import CoachingCalendar.Auth.Mail
import CoachingCalendar.Common.Crypto
import CoachingCalendar.Lib.Combine
import CoachingCalendar.Origins.Service

/-!
# Guards, coaches and Google accounts

The two guards of the protected routes as they run, `CoachesService` beyond what logs a coach in, and
`GoogleOAuthService`. Their operations come on top of those of the accounts and of the allowed origins. The address of
Google's consent screen is a parameter.
-/

namespace CoachingCalendar.Access
open Lib
open Lib.Prog (perform mayFail)
open Auth (Claims Jwt Session TokenService.verify)

/-! ## Data -/

structure InviteCoachDto where
  email : String
  name : String
  frontendUrl : String
  deriving DecidableEq, Repr

structure UpdateCoachDto where
  name : Option String := none
  preferredLocale : Option String := none
  deriving DecidableEq, Repr

structure ChangePasswordDto where
  currentPassword : String
  newPassword : String
  deriving DecidableEq, Repr

def UpdateCoachDto.apply (dto : UpdateCoachDto) (c : Coach) : Coach :=
  { c with name := dto.name.getD c.name, preferredLocale := dto.preferredLocale.getD c.preferredLocale }

theorem UpdateCoachDto.apply_id (dto : UpdateCoachDto) (c : Coach) : (dto.apply c).id = c.id := rfl

/-- The coach of a site. -/
def withSite (frontendUrl : String) (c : Coach) : Coach := { c with frontendUrl := some frontendUrl }

theorem withSite_id (frontendUrl : String) (c : Coach) : (withSite frontendUrl c).id = c.id := rfl

structure InviteMail where
  address : String
  name : String
  frontendUrl : String
  token : String
  deriving DecidableEq, Repr

structure GoogleConnection extends GoogleIntegration where
  connectedAt : Int
  deriving DecidableEq, Repr

/-- What a connection stores of a Google account. -/
structure GoogleAccount where
  refreshTokenEncrypted : String
  connectedEmail : String
  deriving DecidableEq, Repr

/-! ## Operations -/

inductive CoachOp where
  | findBySite (frontendUrl : String)
  | findMany
  | updateProfile (id : String) (dto : UpdateCoachDto)
  | updateSite (id frontendUrl : String)
  | sendInvite (mail : InviteMail)
  | originFindMany
  | randomBytes (n : Nat)
  /-- The refresh token that Google gives for a code. -/
  | getToken (code : String)
  /-- The address of the Google account. -/
  | userinfo (refreshToken : String)
  | upsertConnection (coachId : Option String) (create update : GoogleAccount) (connectedAt : Int)
  | findConnection (coachId : String)
  deriving DecidableEq, Repr

@[reducible] def CoachOp.Ans : CoachOp → Type
  | .findBySite _ => Option Coach
  | .findMany => List Coach
  | .updateProfile _ _ => Coach
  | .updateSite _ _ => Coach
  | .sendInvite _ => Unit
  | .originFindMany => List Origins.AllowedOrigin
  | .randomBytes _ => Bytes
  | .getToken _ => Option String
  | .userinfo _ => Option String
  | .upsertConnection _ _ _ _ => Unit
  | .findConnection _ => Option GoogleConnection

abbrev Op := Auth.Op ⊕ (Origins.Op ⊕ CoachOp)

@[match_pattern, reducible] def Op.auth (o : Auth.Op) : Op := .inl o
@[match_pattern, reducible] def Op.origins (o : Origins.Op) : Op := .inr (.inl o)
@[match_pattern, reducible] def Op.coaches (o : CoachOp) : Op := .inr (.inr o)

abbrev Ans : Op → Type := SumAns Auth.Ans (SumAns Origins.Ans CoachOp.Ans)

abbrev AccessProg (α : Type) := Prog Ans Failure α

structure Services extends Auth.Services where
  crypto : NodeCrypto
  encryptionKey : String
  /-- `client.generateAuthUrl({ ..., state })`. -/
  authUrl : String → String

structure World where
  accounts : Auth.World
  origins : Origins.World
  invites : List InviteMail := []
  connections : Table fun g : GoogleConnection => g.coachId

/-- How the environment lets an operation go. -/
structure Choice where
  /-- The operation is not performed and fails. -/
  fault : Option Failure := none
  newId : String := ""
  salt : String := ""
  bytes : Bytes := []
  /-- What Google answers. -/
  google : Option String := none

def foreignKey : Failure := .prisma "P2003"

def World.coaches (w : World) : Table Coach.id := w.accounts.coaches

def World.setCoaches (w : World) (coaches : Table Coach.id) : World :=
  { w with accounts := { w.accounts with coaches } }

/-- Another coach has the site. -/
def siteTaken (w : World) (id frontendUrl : String) : Bool :=
  (w.coaches.findFirst fun c => c.id ≠ id && c.frontendUrl = some frontendUrl).isSome

def CoachOp.exec (w : World) : (o : CoachOp) → Choice → Except Failure o.Ans × World
  | .findBySite frontendUrl, ch => mayFail ch.fault w
      (.ok (w.coaches.findFirst fun c => c.frontendUrl = some frontendUrl), w)
  | .findMany, ch => mayFail ch.fault w (.ok w.coaches.rows, w)
  | .updateProfile id dto, ch => mayFail ch.fault w <|
      match w.coaches.find id with
      | none => (.error Auth.recordNotFound, w)
      | some coach => (.ok (dto.apply coach), w.setCoaches (w.coaches.update id dto.apply dto.apply_id))
  | .updateSite id frontendUrl, ch => mayFail ch.fault w <|
      match w.coaches.find id with
      | none => (.error Auth.recordNotFound, w)
      | some coach =>
          if siteTaken w id frontendUrl then (.error Auth.uniqueConstraint, w)
          else (.ok (withSite frontendUrl coach),
            w.setCoaches (w.coaches.update id (withSite frontendUrl) (withSite_id frontendUrl)))
  | .sendInvite mail, ch => mayFail ch.fault w (.ok (), { w with invites := w.invites ++ [mail] })
  | .originFindMany, ch => mayFail ch.fault w (.ok w.origins.table.rows, w)
  | .randomBytes n, ch => (.ok ((ch.bytes.rightpad n 0).take n), w)
  | .getToken _, ch => mayFail ch.fault w (.ok ch.google, w)
  | .userinfo _, ch => mayFail ch.fault w (.ok ch.google, w)
  | .upsertConnection none _ _ _, _ => (.error Auth.invalidQuery, w)
  | .upsertConnection (some coachId) create update connectedAt, ch => mayFail ch.fault w <|
      match w.connections.find coachId with
      | some _ => (.ok (), { w with
          connections := w.connections.update coachId
            (fun g => ⟨⟨g.coachId, update.refreshTokenEncrypted, update.connectedEmail⟩, connectedAt⟩) fun _ => rfl })
      | none =>
          if (w.coaches.find coachId).isNone then (.error foreignKey, w)
          else
            match w.connections.insert
              ⟨⟨coachId, create.refreshTokenEncrypted, create.connectedEmail⟩, w.accounts.clock⟩ with
            | none => (.error Auth.uniqueConstraint, w)
            | some connections => (.ok (), { w with connections })
  | .findConnection coachId, ch => mayFail ch.fault w (.ok (w.connections.find coachId), w)

def exec (S : Services) (w : World) : (o : Op) → Choice → Except Failure (Ans o) × World
  | .inl o, ch =>
      let (r, accounts) := Auth.exec S.toServices w.accounts o ⟨ch.fault, ch.newId, ch.salt⟩
      (r, { w with accounts })
  | .inr (.inl o), ch =>
      let (r, origins) := Origins.exec w.origins o ⟨ch.fault, ch.newId⟩
      (r, { w with origins })
  | .inr (.inr o), ch => o.exec w ch

/-! ## The guards -/

/-- A program of the accounts. -/
def accounts {α : Type} (p : Auth.AuthProg α) : AccessProg α := p.inl

/-- A program of the allowed origins. -/
def origins {α : Type} (p : Origins.OriginProg α) : AccessProg α := p.inl.inr

section Guards

variable (J : Jwt)

/-- The coach that the request is let through as. -/
def JwtAuthGuard.canActivate (authorization : Option String) : AccessProg Coach := do
  match Auth.extractToken authorization with
  | none => throw (.unauthorized (.text "Missing bearer token"))
  | some token =>
      if token = "" then throw (.unauthorized (.text "Missing bearer token"))
      let payload ← accounts (Auth.atPresent (TokenService.verify J token))
      let coach ← perform (Op.auth (.coachFindUnique payload.sub))
      match coach with
      | none => throw (.unauthorized (.text "Account no longer exists"))
      | some coach =>
          if coach.sessionsRevokedAt.any fun revokedAt => payload.iat.any fun iat => iat * 1000 < revokedAt then
            throw (.unauthorized (.text "Session has been revoked, please log in again"))
          return coach

def RolesGuard.canActivate (requiredRoles : List CoachRole) (coach : Option Coach) : AccessProg Unit := do
  if requiredRoles.isEmpty then return ()
  match coach with
  | none => throw (.forbidden (.text "Insufficient role"))
  | some coach => if requiredRoles.contains coach.role then return () else throw (.forbidden (.text "Insufficient role"))

/-- Both guards, as `@Roles(CoachRole.ADMIN)` asks for. -/
def adminOnly (authorization : Option String) : AccessProg Coach := do
  let coach ← JwtAuthGuard.canActivate J authorization
  RolesGuard.canActivate [.admin] (some coach)
  return coach

end Guards

/-! ## The services -/

namespace CoachesService

def findAll : AccessProg (List Coach) := perform (Op.coaches .findMany)

def update (coachId : String) (dto : UpdateCoachDto) : AccessProg Coach :=
  perform (Op.coaches (.updateProfile coachId dto))

def invite (dto : InviteCoachDto) : AccessProg Unit := do
  let existingCoach ← perform (Op.auth (.coachFindByEmail (some dto.email)))
  if existingCoach.isSome then
    throw (.conflict (.text "A coach with that email already exists"))
  let allowedOrigin ← perform (Op.origins (.findByOrigin dto.frontendUrl))
  if allowedOrigin.isNone then
    throw (.notFound (.text "That site is not an allowed origin"))
  let coachForSite ← perform (Op.coaches (.findBySite dto.frontendUrl))
  if coachForSite.isSome then
    throw (.conflict (.text "This site already has a coach assigned"))
  let token ← perform (Op.auth (.sign
    (Auth.TokenService.inviteClaims ⟨dto.email, dto.name, dto.frontendUrl⟩) Auth.COACH_INVITE_TTL))
  perform (Op.coaches (.sendInvite ⟨dto.email, dto.name, dto.frontendUrl, token⟩))

def setFrontendUrl (coachId frontendUrl : String) : AccessProg Coach := do
  let allowedOrigin ← perform (Op.origins (.findByOrigin frontendUrl))
  if allowedOrigin.isNone then
    throw (.notFound (.text "That site is not an allowed origin"))
  let coachForSite ← perform (Op.coaches (.findBySite frontendUrl))
  if coachForSite.any fun coach => coach.id ≠ coachId then
    throw (.conflict (.text "This site already has a coach assigned"))
  perform (Op.coaches (.updateSite coachId frontendUrl))

def changePassword (coach : Coach) (dto : ChangePasswordDto) : AccessProg Unit := do
  let matched ← perform (Op.auth (.compare dto.currentPassword coach.passwordHash))
  if !matched then
    throw (.unauthorized (.text "Current password is incorrect"))
  let passwordHash ← perform (Op.auth (.hash dto.newPassword))
  let _updated ← perform (Op.auth (.coachUpdate coach.id { passwordHash := some passwordHash }))

end CoachesService

def AllowedOriginsService.list : AccessProg (List Origins.AllowedOrigin) := perform (Op.coaches .originFindMany)

structure GoogleStatus where
  connected : Bool
  connectedEmail : Option String := none
  connectedAt : Option Int := none
  deriving DecidableEq, Repr

namespace GoogleOAuthService

variable (S : Services)

/-- A secret, encrypted under a vector that is drawn now. -/
def encryptSecret (secret : String) : AccessProg String := do
  let iv ← perform (Op.coaches (.randomBytes IV_LENGTH))
  match encrypt S.crypto secret S.encryptionKey iv with
  | .ok payload => return payload
  | .error e => throw e

def handleCallback (code coachId : Option String) : AccessProg Unit := do
  match code.filter (· ≠ "") with
  | none => throw (.badRequest (.text "Missing authorization code"))
  | some code =>
      let refreshToken ← perform (Op.coaches (.getToken code))
      match refreshToken.filter (· ≠ "") with
      | none => throw (.badRequest (.text ("Google did not return a refresh token. Revoke prior access at " ++
          "https://myaccount.google.com/permissions and try connecting again.")))
      | some refreshToken =>
          let email ← perform (Op.coaches (.userinfo refreshToken))
          let created ← encryptSecret S refreshToken
          let updated ← encryptSecret S refreshToken
          let connectedAt ← perform (Op.auth .now)
          perform (Op.coaches (.upsertConnection coachId ⟨created, email.getD "unknown"⟩
            ⟨updated, email.getD "unknown"⟩ connectedAt))

def status (coachId : String) : AccessProg GoogleStatus := do
  let connection ← perform (Op.coaches (.findConnection coachId))
  match connection with
  | none => return { connected := false }
  | some g => return { connected := true, connectedEmail := some g.connectedEmail, connectedAt := some g.connectedAt }

/-- The refresh token of the client that the calendar service works with. -/
def getAuthenticatedClient (coachId : String) : AccessProg String := do
  let connection ← perform (Op.coaches (.findConnection coachId))
  match connection with
  | none => throw (.serviceUnavailable (.text "Google Calendar is not connected yet"))
  | some g =>
      match decrypt S.crypto g.refreshTokenEncrypted S.encryptionKey with
      | .ok refreshToken => return refreshToken
      | .error e => throw e

end GoogleOAuthService

namespace GoogleController

variable (S : Services)

def connectToken (coach : Coach) : AccessProg String :=
  perform (Op.auth (.sign (Auth.TokenService.connectStateClaims coach.id) Auth.GOOGLE_CONNECT_STATE_TTL))

/-- The address that the browser is sent to. -/
def connect (state : String) : AccessProg String := do
  let _coachId ← accounts (Auth.atPresent (Auth.TokenService.verifyGoogleConnectState S.jwt state))
  return S.authUrl state

def callback (code : Option String) (state : String) : AccessProg Unit := do
  let coachId ← accounts (Auth.atPresent (Auth.TokenService.verifyGoogleConnectState S.jwt state))
  GoogleOAuthService.handleCallback S code coachId

end GoogleController

end CoachingCalendar.Access
