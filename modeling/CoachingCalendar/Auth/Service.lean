import CoachingCalendar.Auth.Token
import CoachingCalendar.Lib.Pool

/-!
# Accounts

The statements on the coach table, with the calls around them that take time, and the services that
issue them: `AuthService` and the account part of `CoachesService`. The guard of the protected routes
makes one query, so it is a function of the table that the query sees.
-/

namespace CoachingCalendar.Auth
open Lib
open Lib.Prog (perform mayFail)

/-! ## Operations -/

/-- A token that was signed, with the time. -/
structure Minted where
  payload : Claims
  expiresIn : Int
  time : Int
  deriving DecidableEq, Repr

def Minted.claims (m : Minted) : Claims := m.payload.stamped m.expiresIn m.time

structure ResetMail where
  address : String
  name : String
  frontendUrl : String
  token : String
  deriving DecidableEq, Repr

/-- The data of `coach.create`. The id is drawn when it runs. -/
structure NewCoach where
  email : Option String
  name : Option String
  passwordHash : String
  frontendUrl : Option String
  role : CoachRole
  deriving DecidableEq, Repr

/-- The data of `coach.update`. `none` is a field that is not given. -/
structure CoachPatch where
  passwordHash : Option String := none
  sessionsRevokedAt : Option Int := none
  deriving DecidableEq, Repr

def CoachPatch.apply (p : CoachPatch) (c : Coach) : Coach :=
  { c with
    passwordHash := p.passwordHash.getD c.passwordHash
    sessionsRevokedAt := p.sessionsRevokedAt.orElse fun _ => c.sessionsRevokedAt }

theorem CoachPatch.apply_id (p : CoachPatch) (c : Coach) : (p.apply c).id = c.id := rfl

inductive Op where
  | now
  | sign (payload : Claims) (expiresIn : Int)
  | coachFindByEmail (email : Option String)
  | coachFindUnique (id : Option String)
  | coachCreate (data : NewCoach)
  | coachUpdate (id : String) (patch : CoachPatch)
  | compare (password hash : String)
  | hash (password : String)
  | sendReset (mail : ResetMail)
  deriving DecidableEq, Repr

@[reducible] def Ans : Op → Type
  | .now => Int
  | .sign _ _ => String
  | .coachFindByEmail _ => Option Coach
  | .coachFindUnique _ => Option Coach
  | .coachCreate _ => Coach
  | .coachUpdate _ _ => Coach
  | .compare _ _ => Bool
  | .hash _ => String
  | .sendReset _ => Unit

abbrev AuthProg (α : Type) := Prog Ans Failure α

/-- What the account services take from outside. -/
structure Services where
  jwt : Jwt
  /-- `bcrypt.compare(password, hash)`. -/
  compare : String → String → Bool
  /-- `bcrypt.hash(password)` with a salt. -/
  hash : String → String → String

structure World where
  coaches : Table Coach.id
  clock : Int
  minted : List Minted := []
  resets : List ResetMail := []

/-- How the environment lets an operation go. -/
structure Choice where
  /-- The operation is not performed and fails. -/
  fault : Option Failure := none
  newId : String := ""
  salt : String := ""

def recordNotFound : Failure := .prisma "P2025"
def uniqueConstraint : Failure := .prisma "P2002"

/-- A query with a key that is `undefined`. -/
def invalidQuery : Failure := .other "PrismaClientValidationError"

/-- The row of a new coach, when the data is complete. -/
def NewCoach.toCoach (data : NewCoach) (id : String) : Option Coach :=
  match data.email, data.name with
  | some email, some name => some {
      id, email, passwordHash := data.passwordHash, name, role := data.role, frontendUrl := data.frontendUrl }
  | _, _ => none

/-- `email` and `frontendUrl` are unique. -/
def Coach.clashes (c d : Coach) : Bool :=
  c.email = d.email || (c.frontendUrl.isSome && c.frontendUrl = d.frontendUrl)

def exec (S : Services) (w : World) : (o : Op) → Choice → Except Failure (Ans o) × World
  | .now, _ => (.ok w.clock, w)
  | .sign payload expiresIn, _ => (.ok (S.jwt.sign payload expiresIn w.clock),
      { w with minted := w.minted ++ [⟨payload, expiresIn, w.clock⟩] })
  | .coachFindByEmail none, _ => (.error invalidQuery, w)
  | .coachFindByEmail (some email), ch => mayFail ch.fault w
      (.ok (w.coaches.findFirst fun c => c.email = email), w)
  | .coachFindUnique none, _ => (.error invalidQuery, w)
  | .coachFindUnique (some id), ch => mayFail ch.fault w (.ok (w.coaches.find id), w)
  | .coachCreate data, ch => mayFail ch.fault w <|
      match data.toCoach ch.newId with
      | none => (.error invalidQuery, w)
      | some coach =>
          if (w.coaches.findFirst (Coach.clashes coach)).isSome then (.error uniqueConstraint, w)
          else
            match w.coaches.insert coach with
            | none => (.error uniqueConstraint, w)
            | some coaches => (.ok coach, { w with coaches })
  | .coachUpdate id patch, ch => mayFail ch.fault w <|
      match w.coaches.find id with
      | none => (.error recordNotFound, w)
      | some coach => (.ok (patch.apply coach),
          { w with coaches := w.coaches.update id patch.apply patch.apply_id })
  | .compare password hash, ch => mayFail ch.fault w (.ok (S.compare password hash), w)
  | .hash password, ch => mayFail ch.fault w (.ok (S.hash password ch.salt), w)
  | .sendReset mail, ch => mayFail ch.fault w (.ok (), { w with resets := w.resets ++ [mail] })

/-! ## The services -/

/-- What a call returns. `revokeSessions` returns no token. -/
structure Session where
  accessToken : Option String
  coach : Coach
  deriving DecidableEq, Repr

/-- The result of a check at the present time. -/
def atPresent {α : Type} (check : Int → Except Failure α) : AuthProg α := do
  let now ← perform Op.now
  match check now with
  | .ok a => return a
  | .error e => throw e

def signAccessToken (payload : AccessTokenPayload) : AuthProg String :=
  perform (Op.sign payload.claims TOKEN_TTL)

variable (J : Jwt)

namespace AuthService

def login (email password : String) : AuthProg Session := do
  let coach ← perform (Op.coachFindByEmail (some email))
  match coach with
  | none => throw (.unauthorized (.text "Invalid email or password"))
  | some coach =>
      let matched ← perform (Op.compare password coach.passwordHash)
      if !matched then
        throw (.unauthorized (.text "Invalid email or password"))
      let accessToken ← signAccessToken { sub := coach.id, email := coach.email, role := coach.role }
      return { accessToken, coach }

def forgotPassword (email : String) (requestOrigin : Option String) : AuthProg Unit := do
  let coach ← perform (Op.coachFindByEmail (some email))
  match coach with
  | none => return ()
  | some coach =>
      match coach.frontendUrl <|> requestOrigin with
      | none => return ()
      | some frontendUrl =>
          if frontendUrl = "" then return ()
          let token ← perform (Op.sign (TokenService.resetClaims coach.id) PASSWORD_RESET_TTL)
          perform (Op.sendReset { address := coach.email, name := coach.name, frontendUrl, token })

def resetPassword (token newPassword : String) : AuthProg Session := do
  let reset ← atPresent (TokenService.verifyPasswordResetToken J token)
  let coach ← perform (Op.coachFindUnique reset.coachId)
  match coach with
  | none => throw (.unauthorized (.text "Invalid or expired reset link"))
  | some coach =>
      if coach.sessionsRevokedAt.any fun revokedAt => reset.iat * 1000 < revokedAt then
        throw (.unauthorized (.text "This reset link has already been used"))
      let passwordHash ← perform (Op.hash newPassword)
      let sessionsRevokedAt ← perform Op.now
      let updated ← perform (Op.coachUpdate coach.id
        { passwordHash := some passwordHash, sessionsRevokedAt := some sessionsRevokedAt })
      let accessToken ← signAccessToken {
        sub := updated.id, email := updated.email, role := updated.role
        iat := some (sessionsRevokedAt / 1000 + 1) }
      return { accessToken, coach := updated }

end AuthService

namespace CoachesService

def acceptInvite (token password : String) : AuthProg Session := do
  let invite ← atPresent (TokenService.verifyCoachInviteToken J token)
  let existing ← perform (Op.coachFindByEmail invite.email)
  if existing.isSome then
    throw (.conflict (.text "This invite has already been used"))
  let passwordHash ← perform (Op.hash password)
  let coach ← perform (Op.coachCreate {
    email := invite.email, name := invite.name, passwordHash, frontendUrl := invite.frontendUrl, role := .coach })
  let accessToken ← signAccessToken { sub := coach.id, email := coach.email, role := coach.role }
  return { accessToken, coach }

def revokeSessions (coachId : String) : AuthProg Session := do
  let sessionsRevokedAt ← perform Op.now
  let coach ← perform (Op.coachUpdate coachId { sessionsRevokedAt := some sessionsRevokedAt })
  return { accessToken := none, coach }

end CoachesService

/-! ## The guard -/

/-- The token of an `Authorization` header. -/
def extractToken (authorization : Option String) : Option String :=
  match authorization with
  | none => none
  | some header =>
      if "Bearer ".toList <+: header.toList then
        some (String.ofList (header.toList.drop "Bearer ".toList.length))
      else none

/-- The coach that a request is let through as. The token is verified at `now`, the query sees `coaches`. -/
def canActivate (now : Int) (coaches : Table Coach.id) (authorization : Option String) : Except Failure Coach := do
  match extractToken authorization with
  | none => throw (.unauthorized (.text "Missing bearer token"))
  | some token =>
      if token = "" then throw (.unauthorized (.text "Missing bearer token"))
      let payload ← TokenService.verify J token now
      match payload.sub with
      | none => throw invalidQuery
      | some sub =>
          match coaches.find sub with
          | none => throw (.unauthorized (.text "Account no longer exists"))
          | some coach =>
              if coach.sessionsRevokedAt.any fun revokedAt => payload.iat.any fun iat => iat * 1000 < revokedAt then
                throw (.unauthorized (.text "Session has been revoked, please log in again"))
              return coach

end CoachingCalendar.Auth
