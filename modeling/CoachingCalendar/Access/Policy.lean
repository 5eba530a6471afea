import CoachingCalendar.Access.System
import CoachingCalendar.Lib.License

/-!
# The policy

What every request may write, and what it must have seen before. A request that is let through as a coach may write for
this coach, an admin may invite and correct others, and a signed link stands for whom it was signed for.
-/

namespace CoachingCalendar.Access
open Lib
open Auth (Jwt AccessTokenPayload.claims TOKEN_TTL)

/-! ## What a request has seen -/

/-- The guard let it through as the coach. -/
def Admitted (J : Jwt) (past : Past) (authorization : Option String) (coach : Coach) : Prop :=
  ∃ now : Int, ⟨Op.auth .now, .ok now⟩ ∈ past ∧
    ⟨Op.auth (.coachFindUnique (some coach.id)), .ok (some coach)⟩ ∈ past ∧
    Auth.canActivate J now ⟨[coach], List.nodup_singleton _⟩ authorization = .ok coach

/-- Both guards let it through. -/
def Administers (J : Jwt) (past : Past) (authorization : Option String) : Prop :=
  ∃ admin, Admitted J past authorization admin ∧ admin.role = .admin

/-- The site was an allowed origin. -/
def OriginFound (past : Past) (origin : String) : Prop :=
  ∃ row, ⟨Op.origins (.findByOrigin origin), .ok (some row)⟩ ∈ past

def FoundByEmail (past : Past) (email : String) (coach : Coach) : Prop :=
  ⟨Op.auth (.coachFindByEmail (some email)), .ok (some coach)⟩ ∈ past

def Matched (past : Past) (password : String) (coach : Coach) : Prop :=
  ⟨Op.auth (.compare password coach.passwordHash), .ok true⟩ ∈ past

def Signed (past : Past) (payload : Auth.Claims) (expiresIn : Int) (token : String) : Prop :=
  ⟨Op.auth (.sign payload expiresIn), .ok token⟩ ∈ past

/-- The token stood for `a` at a time that was read off the clock. -/
def Verified {α : Type} (past : Past) (check : Int → Except Failure α) (a : α) : Prop :=
  ∃ now : Int, ⟨Op.auth .now, .ok now⟩ ∈ past ∧ check now = .ok a

/-- The reset link was verified for the coach, and none had been used since it was signed. -/
def MayReset (J : Jwt) (past : Past) (token : String) (coach : Coach) : Prop :=
  ∃ reset, Verified past (Auth.TokenService.verifyPasswordResetToken J token) reset ∧ reset.coachId = some coach.id ∧
    ⟨Op.auth (.coachFindUnique (some coach.id)), .ok (some coach)⟩ ∈ past ∧
    ∀ R, coach.sessionsRevokedAt = some R → R ≤ reset.iat * 1000

/-- The data is what Google gave for the code, the token encrypted. -/
def Encrypted (S : Services) (past : Past) (code : Option String) (account : GoogleAccount) : Prop :=
  ∃ code' refreshToken iv, code = some code' ∧ iv.length = IV_LENGTH ∧
    ⟨Op.coaches (.getToken code'), .ok (some refreshToken)⟩ ∈ past ∧
    encrypt S.crypto refreshToken S.encryptionKey iv = .ok account.refreshTokenEncrypted

/-! ## What it may do -/

/-- It writes nothing that another request can see. -/
def Op.reads : Op → Bool
  | .auth .now | .auth (.coachFindByEmail _) | .auth (.coachFindUnique _) | .auth (.compare _ _) => true
  | .auth (.hash _) => true
  | .origins (.create _) | .origins (.delete _) => false
  | .origins _ => true
  | .coaches (.findBySite _) | .coaches .findMany | .coaches .originFindMany | .coaches (.randomBytes _) => true
  | .coaches (.getToken _) | .coaches (.userinfo _) | .coaches (.findConnection _) => true
  | _ => false

section

variable (S : Services) (past : Past)

/-- An operation that a request may issue after what it has seen. -/
inductive Permitted : Call → Op → Prop
  | read {call o} : o.reads = true → Permitted call o
  | login {email password coach} : FoundByEmail past email coach → Matched past password coach →
      Permitted (.login email password)
        (.auth (.sign (AccessTokenPayload.claims ⟨coach.id, coach.email, coach.role, none⟩) TOKEN_TTL))
  | accept {token password hash} {invite : Auth.CoachInvitePayload} :
      Verified past (Auth.TokenService.verifyCoachInviteToken S.jwt token) invite →
      Permitted (.acceptInvite token password)
        (.auth (.coachCreate ⟨invite.email, invite.name, hash, invite.frontendUrl, .coach⟩))
  | accepted {token password data} {coach : Coach} : ⟨Op.auth (.coachCreate data), .ok coach⟩ ∈ past →
      Permitted (.acceptInvite token password)
        (.auth (.sign (AccessTokenPayload.claims ⟨coach.id, coach.email, coach.role, none⟩) TOKEN_TTL))
  | forgot {email requestOrigin coach} : FoundByEmail past email coach →
      Permitted (.forgotPassword email requestOrigin)
        (.auth (.sign (Auth.TokenService.resetClaims coach.id) Auth.PASSWORD_RESET_TTL))
  | resetMail {email requestOrigin coach frontendUrl token} : FoundByEmail past email coach →
      Signed past (Auth.TokenService.resetClaims coach.id) Auth.PASSWORD_RESET_TTL token →
      Permitted (.forgotPassword email requestOrigin) (.auth (.sendReset ⟨coach.email, coach.name, frontendUrl, token⟩))
  | reset {token newPassword coach hash revokedAt} : MayReset S.jwt past token coach →
      Permitted (.resetPassword token newPassword) (.auth (.coachUpdate coach.id ⟨some hash, some revokedAt⟩))
  | resetSession {token newPassword row iat} {coach : Coach} : MayReset S.jwt past token row → coach.id = row.id →
      Permitted (.resetPassword token newPassword)
        (.auth (.sign (AccessTokenPayload.claims ⟨coach.id, coach.email, coach.role, iat⟩) TOKEN_TTL))
  | updateMe {authorization dto coach} : Admitted S.jwt past authorization coach →
      Permitted (.updateMe authorization dto) (.coaches (.updateProfile coach.id dto))
  | changePassword {authorization dto coach hash} : Admitted S.jwt past authorization coach →
      Matched past dto.currentPassword coach →
      Permitted (.changePassword authorization dto) (.auth (.coachUpdate coach.id ⟨some hash, none⟩))
  | invite {authorization dto} : Administers S.jwt past authorization → OriginFound past dto.frontendUrl →
      Permitted (.invite authorization dto)
        (.auth (.sign (Auth.TokenService.inviteClaims ⟨dto.email, dto.name, dto.frontendUrl⟩) Auth.COACH_INVITE_TTL))
  | inviteMail {authorization dto token} : Administers S.jwt past authorization →
      Signed past (Auth.TokenService.inviteClaims ⟨dto.email, dto.name, dto.frontendUrl⟩) Auth.COACH_INVITE_TTL token →
      Permitted (.invite authorization dto) (.coaches (.sendInvite ⟨dto.email, dto.name, dto.frontendUrl, token⟩))
  | revoke {authorization id revokedAt} : Administers S.jwt past authorization →
      Permitted (.revokeSessions authorization id) (.auth (.coachUpdate id ⟨none, some revokedAt⟩))
  | setSite {authorization id frontendUrl} : Administers S.jwt past authorization → OriginFound past frontendUrl →
      Permitted (.setFrontendUrl authorization id frontendUrl) (.coaches (.updateSite id frontendUrl))
  | addOrigin {authorization k dto} : Administers S.jwt past authorization →
      Permitted (.addOrigin authorization k dto) (.origins (.create dto))
  | removeOrigin {authorization k id} : Administers S.jwt past authorization →
      Permitted (.removeOrigin authorization k id) (.origins (.delete id))
  | connectToken {authorization coach} : Admitted S.jwt past authorization coach →
      Permitted (.connectToken authorization)
        (.auth (.sign (Auth.TokenService.connectStateClaims coach.id) Auth.GOOGLE_CONNECT_STATE_TTL))
  | callback {code state coachId create update connectedAt} :
      Verified past (Auth.TokenService.verifyGoogleConnectState S.jwt state) coachId →
      Encrypted S past code create → Encrypted S past code update →
      Permitted (.callback code state) (.coaches (.upsertConnection coachId create update connectedAt))

end

/-- The answers that an operation can get. -/
def Answered (S : Services) : (o : Op) → Except Failure (Ans o) → Prop
  | .auth .now, .error _ => False
  | .auth (.sign _ _), .error _ => False
  | .auth (.sign payload expiresIn), .ok token => ∃ now, token = S.jwt.sign payload expiresIn now
  | .auth (.coachFindByEmail email), .ok (some coach) => email = some coach.email
  | .auth (.coachFindUnique id), .ok (some coach) => id = some coach.id
  | .auth (.coachCreate data), .ok coach => data.toCoach coach.id = some coach
  | .auth (.coachUpdate id _), .ok coach => coach.id = id
  | .auth (.compare password hash), .ok matched => matched = S.compare password hash
  | .coaches (.randomBytes _), .error _ => False
  | .coaches (.randomBytes n), .ok bytes => bytes.length = n
  | _, _ => True

/-! ## What a request has seen stays seen -/

section Mono

variable {S : Services} {J : Jwt} {past past' : Past} {authorization : Option String} {coach : Coach}

theorem Admitted.mono (h : Admitted J past authorization coach) (hp : past ⊆ past') :
    Admitted J past' authorization coach := by
  obtain ⟨now, hnow, hfound, hok⟩ := h
  exact ⟨now, hp hnow, hp hfound, hok⟩

theorem Administers.mono (h : Administers J past authorization) (hp : past ⊆ past') :
    Administers J past' authorization := by
  obtain ⟨admin, ha, hrole⟩ := h
  exact ⟨admin, ha.mono hp, hrole⟩

theorem OriginFound.mono {origin : String} (h : OriginFound past origin) (hp : past ⊆ past') :
    OriginFound past' origin := by
  obtain ⟨row, hrow⟩ := h
  exact ⟨row, hp hrow⟩

theorem Verified.mono {α : Type} {check : Int → Except Failure α} {a : α} (h : Verified past check a)
    (hp : past ⊆ past') : Verified past' check a := by
  obtain ⟨now, hnow, hok⟩ := h
  exact ⟨now, hp hnow, hok⟩

theorem MayReset.mono {token : String} (h : MayReset J past token coach) (hp : past ⊆ past') :
    MayReset J past' token coach := by
  obtain ⟨reset, hv, hid, hfound, hnew⟩ := h
  exact ⟨reset, hv.mono hp, hid, hp hfound, hnew⟩

theorem Encrypted.mono {code : Option String} {account : GoogleAccount} (h : Encrypted S past code account)
    (hp : past ⊆ past') : Encrypted S past' code account := by
  obtain ⟨code', refreshToken, iv, hcode, hiv, htoken, he⟩ := h
  exact ⟨code', refreshToken, iv, hcode, hiv, hp htoken, he⟩

theorem Permitted.mono {call : Call} {o : Op} (hp : past ⊆ past') (h : Permitted S past call o) :
    Permitted S past' call o := by
  cases h with
  | read ho => exact .read ho
  | login hf hm => exact .login (hp hf) (hp hm)
  | accept hv => exact .accept (hv.mono hp)
  | accepted hc => exact .accepted (hp hc)
  | forgot hf => exact .forgot (hp hf)
  | resetMail hf hs => exact .resetMail (hp hf) (hp hs)
  | reset hr => exact .reset (hr.mono hp)
  | resetSession hr hid => exact .resetSession (hr.mono hp) hid
  | updateMe ha => exact .updateMe (ha.mono hp)
  | changePassword ha hm => exact .changePassword (ha.mono hp) (hp hm)
  | invite ha ho => exact .invite (ha.mono hp) (ho.mono hp)
  | inviteMail ha hs => exact .inviteMail (ha.mono hp) (hp hs)
  | revoke ha => exact .revoke (ha.mono hp)
  | setSite ha ho => exact .setSite (ha.mono hp) (ho.mono hp)
  | addOrigin ha => exact .addOrigin (ha.mono hp)
  | removeOrigin ha => exact .removeOrigin (ha.mono hp)
  | connectToken ha => exact .connectToken (ha.mono hp)
  | callback hv hc hu => exact .callback (hv.mono hp) (hc.mono hp) (hu.mono hp)

end Mono

/-- The licence of the routes. -/
def policy (S : Services) : License Ans Failure Call where
  answers := Answered S
  permits call past := Permitted S past call
  mono := Permitted.mono

end CoachingCalendar.Access
