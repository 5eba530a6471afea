import CoachingCalendar.Auth.Lemmas.Steps
import CoachingCalendar.Lib.Checks

/-! # The course of one call -/

namespace CoachingCalendar.Auth
open Lib Lib.Prog Lib.System

abbrev Past := List (Event Ans Failure)

/-- The answers that an operation can get. -/
def Answered : (o : Op) → Except Failure (Ans o) → Prop
  | .now, .error _ => False
  | .sign _ _, .error _ => False
  | .coachFindUnique id, .ok (some coach) => id = some coach.id
  | .coachUpdate id patch, .ok coach =>
      coach.id = id ∧ ∀ R, patch.sessionsRevokedAt = some R → coach.sessionsRevokedAt = some R
  | _, _ => True

theorem exec_answered {S : Services} {w w' : World} {o : Op} {ch : Choice} {r : Except Failure (Ans o)}
    (h : exec S w o ch = (r, w')) : Answered o r := by
  cases o with
  | coachFindUnique id =>
      cases id with
      | none => cases h; trivial
      | some id =>
          rcases mayFail_cases h with ⟨_, rfl, _⟩ | h
          · trivial
          · cases h
            cases hf : w.coaches.find id with
            | none => trivial
            | some coach => exact congrArg some (Table.find_key hf).symm
  | coachUpdate id patch =>
      rcases mayFail_cases h with ⟨_, rfl, _⟩ | h
      · trivial
      · split at h
        · cases h; trivial
        · rename_i coach hf
          cases h
          exact ⟨(Table.find_key hf : coach.id = id), fun R hR => by simp [CoachPatch.apply, hR]⟩
  | now => cases h; trivial
  | sign _ _ => cases h; trivial
  | coachFindByEmail _ => trivial
  | coachCreate _ => trivial
  | compare _ _ => trivial
  | hash _ => trivial
  | sendReset _ => trivial

/-- It looked a coach up by id. -/
def looksUp : Event Ans Failure → Bool
  | ⟨.coachFindUnique _, _⟩ => true
  | _ => false

/-- What a reset has done before its update: it verified the token, found the coach not revoked since the
token was signed, and wrote nothing. -/
structure BeforeUpdate (J : Jwt) (token : String) (past : Past) (coach : Coach) : Prop where
  verified : ∃ t reset, TokenService.verifyPasswordResetToken J token t = .ok reset ∧
    reset.coachId = some coach.id ∧ ∀ R, coach.sessionsRevokedAt = some R → R ≤ reset.iat * 1000
  found : ⟨.coachFindUnique (some coach.id), .ok (some coach)⟩ ∈ past
  unwritten : ∀ e ∈ past, writes e = false

namespace Call

def revokes : Call → Bool
  | .resetPassword _ _ | .revokeSessions _ => true
  | _ => false

/-- A coach is looked up by id once. It is updated with the time as its stamp, and by a reset only after
its checks. -/
def allowed (J : Jwt) (call : Call) (past : Past) : Op → Prop
  | .coachFindUnique _ => ∀ e ∈ past, looksUp e = false
  | .coachUpdate id patch =>
      (∃ R, patch.sessionsRevokedAt = some R ∧ ⟨.now, .ok R⟩ ∈ past) ∧
        ∀ token newPassword, call = .resetPassword token newPassword →
          ∃ coach, coach.id = id ∧ BeforeUpdate J token past coach
  | _ => True

/-- What a call has done when it returns a session. -/
structure Granted (call : Call) (past : Past) (session : Session) : Prop where
  coach : ∃ e ∈ past, returnedCoach e = some session.coach
  stamped : ∀ e ∈ past, ∀ p, revocation e = some p →
    p.1 = session.coach.id ∧ session.coach.sessionsRevokedAt = some p.2
  revoked : call.revokes = true → ∃ e ∈ past, (revocation e).isSome
  unrevoked : call.revokes = false → ∀ e ∈ past, revocation e = none
  token : ∀ token, session.accessToken = some token → ∃ payload, ⟨.sign payload TOKEN_TTL, .ok token⟩ ∈ past ∧
    payload.sub = some session.coach.id ∧ payload.purpose = none ∧
    payload.iat = if call.isReset then session.coach.sessionsRevokedAt.map (· / 1000 + 1) else none

/-- How a call ends. -/
def final (call : Call) (past : Past) : Except Failure (Option Session) → Prop
  | .ok (some session) => call.Granted past session
  | .ok none => True
  | .error _ => call.isReset → ∀ e ∈ past, writes e = false

def protocol (J : Jwt) (call : Call) : Protocol Ans Failure Past where
  answers := Answered
  next := Protocol.record.next
  allowed := call.allowed J

@[simp] theorem protocol_next (J : Jwt) (call : Call) (past : Past) (e : Event Ans Failure) :
    (call.protocol J).next past e = past ++ [e] := rfl

end Call

section Follows

variable {J : Jwt} {call : Call}

/-- The end of a call that returns a session. -/
def Call.ends (call : Call) (past : Past) (r : Except Failure Session) : Prop := call.final past (r.map some)

theorem atPresent_follows {α : Type} {check : Int → Except Failure α} {past : Past}
    {final : Past → Except Failure α → Prop}
    (hok : ∀ t a, check t = .ok a → final (past ++ [⟨.now, .ok t⟩]) (.ok a))
    (herr : ∀ t e, final (past ++ [⟨.now, .ok t⟩]) (.error e)) :
    (atPresent check).Follows (call.protocol J) final past := by
  refine .perform_bind trivial (fun t _ => ?_) fun e he => he.elim
  cases hc : check t with
  | ok a => exact hok t a hc
  | error e => exact herr t e

theorem Call.Granted.plain (hc : call.revokes = false) (hr : call.isReset = false) {past : Past} {coach : Coach}
    {token : String} (hcoach : ∃ e ∈ past, returnedCoach e = some coach) (hpast : ∀ e ∈ past, revocation e = none) :
    call.Granted (past ++ [⟨.sign (AccessTokenPayload.claims ⟨coach.id, coach.email, coach.role, none⟩) TOKEN_TTL,
      .ok token⟩]) ⟨some token, coach⟩ := by
  have hall : ∀ e ∈ past ++ [⟨.sign (AccessTokenPayload.claims ⟨coach.id, coach.email, coach.role, none⟩) TOKEN_TTL,
      .ok token⟩], revocation e = none := by
    intro e he
    rcases List.mem_append.mp he with he | he
    · exact hpast e he
    · rw [List.mem_singleton.mp he]; rfl
  obtain ⟨e, he, hec⟩ := hcoach
  refine ⟨⟨e, List.mem_append_left _ he, hec⟩, fun e he p hp => ?_, fun h => ?_, fun _ => hall, ?_⟩
  · rw [hall e he] at hp; cases hp
  · rw [hc] at h; cases h
  · rintro _ ⟨⟩
    exact ⟨_, List.mem_append_right _ (List.mem_singleton.mpr rfl), rfl, rfl, by rw [hr]; rfl⟩

theorem login_follows (email password : String) :
    (AuthService.login email password).Follows ((Call.login email password).protocol J)
      (Call.login email password).ends [] := by
  refine .perform_bind trivial (fun found _ => ?_) fun e _ => fun h => nomatch h
  cases found with
  | none => exact fun h => nomatch h
  | some coach =>
      refine .perform_bind trivial (fun matched _ => ?_) fun e _ => fun h => nomatch h
      cases matched with
      | false => exact fun h => nomatch h
      | true =>
          refine .perform_bind trivial (fun token _ => ?_) fun e he => he.elim
          exact .plain rfl rfl ⟨_, List.mem_cons_self, rfl⟩ (by simp [revocation])

theorem acceptInvite_follows (token password : String) :
    (CoachesService.acceptInvite J token password).Follows ((Call.acceptInvite token password).protocol J)
      (Call.acceptInvite token password).ends [] := by
  unfold CoachesService.acceptInvite
  rw [bind_eq, follows_bind]
  refine atPresent_follows (fun t invite _ => ?_) fun _ _ => fun h => nomatch h
  refine .perform_bind trivial (fun existing _ => ?_) fun e _ => fun h => nomatch h
  cases existing with
  | some _ => exact fun h => nomatch h
  | none =>
      refine .perform_bind trivial (fun hash _ => ?_) fun e _ => fun h => nomatch h
      refine .perform_bind trivial (fun coach _ => ?_) fun e _ => fun h => nomatch h
      refine .perform_bind trivial (fun accessToken _ => ?_) fun e he => he.elim
      exact .plain rfl rfl ⟨⟨.coachCreate _, .ok coach⟩, by simp, rfl⟩
        (by simp [revocation])

theorem revokeSessions_follows (coachId : String) :
    (CoachesService.revokeSessions coachId).Follows ((Call.revokeSessions coachId).protocol J)
      (Call.revokeSessions coachId).ends [] := by
  refine .perform_bind trivial (fun R _ => ?_) fun e he => he.elim
  refine .perform_bind ⟨⟨R, rfl, List.mem_cons_self⟩, nofun⟩ (fun coach hcoach => ?_) fun e _ => fun h => nomatch h
  have hid : coach.id = coachId := hcoach.1
  have hR : coach.sessionsRevokedAt = some R := hcoach.2 R rfl
  refine ⟨⟨⟨.coachUpdate _ _, .ok coach⟩, by simp, rfl⟩, ?_, fun _ =>
    ⟨⟨.coachUpdate _ _, .ok coach⟩, by simp, rfl⟩, nofun, nofun⟩
  simp [revocation, hR, hid]

theorem resetPassword_follows (token newPassword : String) :
    (AuthService.resetPassword J token newPassword).Follows ((Call.resetPassword token newPassword).protocol J)
      (Call.resetPassword token newPassword).ends [] := by
  unfold AuthService.resetPassword
  rw [bind_eq, follows_bind]
  refine atPresent_follows (fun t reset hreset => ?_) fun t e => fun _ => by simp [writes]
  refine .perform_bind (by simp [Call.protocol, Call.allowed, looksUp]) (fun found hfound => ?_) fun e _ => fun _ =>
    by simp [writes]
  cases found with
  | none => exact fun _ => by simp [writes]
  | some coach =>
      have hid : reset.coachId = some coach.id := hfound
      dsimp only
      split
      · exact fun _ => by simp [writes]
      · rename_i hnew
        have hnew : ∀ R, coach.sessionsRevokedAt = some R → R ≤ reset.iat * 1000 := by
          intro R hR
          simpa [hR] using hnew
        refine .perform_bind trivial (fun hash _ => ?_) fun e _ => fun _ => by simp [writes]
        refine .perform_bind trivial (fun R _ => ?_) fun e he => he.elim
        refine .perform_bind ⟨⟨R, rfl, by simp⟩, ?_⟩ (fun updated hupdated => ?_) fun e _ => fun _ => by simp [writes]
        · rintro _ _ ⟨⟩
          exact ⟨coach, rfl, ⟨t, reset, hreset, hid, hnew⟩, by simp [hid], by simp [writes]⟩
        · have hid' : updated.id = coach.id := hupdated.1
          have hR : updated.sessionsRevokedAt = some R := hupdated.2 R rfl
          refine .perform_bind trivial (fun accessToken _ => ?_) fun e he => he.elim
          refine ⟨⟨⟨.coachUpdate _ _, .ok updated⟩, by simp, rfl⟩, ?_, fun _ =>
            ⟨⟨.coachUpdate _ _, .ok updated⟩, by simp, rfl⟩, nofun, ?_⟩
          · simp [revocation, hR, hid']
          · rintro _ ⟨⟩
            exact ⟨AccessTokenPayload.claims ⟨updated.id, updated.email, updated.role, some (R / 1000 + 1)⟩,
              by simp, rfl, rfl, by simp [Call.isReset, hR, AccessTokenPayload.claims]⟩

theorem forgotPassword_follows (email : String) (requestOrigin : Option String) :
    (AuthService.forgotPassword email requestOrigin).Follows
      ((Call.forgotPassword email requestOrigin).protocol J) (fun _ _ => True) [] := by
  refine .perform_bind trivial (fun found _ => ?_) fun _ _ => trivial
  cases found with
  | none => trivial
  | some coach =>
      dsimp only
      split
      · trivial
      · split
        · trivial
        · refine .perform_bind trivial (fun token _ => ?_) fun e he => he.elim
          exact follows_perform.mpr ⟨trivial, fun _ _ => trivial⟩

theorem Call.body_follows (S : Services) (call : Call) :
    (call.body S).Follows (call.protocol S.jwt) call.final [] := by
  have some_session : ∀ {p : AuthProg Session}, p.Follows (call.protocol S.jwt) call.ends [] →
      (p.bind fun session => .pure (some session)).Follows (call.protocol S.jwt) call.final [] := by
    intro p hp
    rw [follows_bind]
    refine hp.mono fun past r hr => ?_
    cases r <;> exact hr
  cases call with
  | login email password => exact some_session (login_follows email password)
  | acceptInvite token password => exact some_session (acceptInvite_follows token password)
  | forgotPassword email requestOrigin =>
      show (Prog.bind _ _).Follows _ _ _
      rw [follows_bind]
      refine (forgotPassword_follows email requestOrigin).mono fun past r _ => ?_
      cases r with
      | ok _ => trivial
      | error _ => exact fun h => nomatch h
  | resetPassword token newPassword => exact some_session (resetPassword_follows token newPassword)
  | revokeSessions coachId => exact some_session (revokeSessions_follows coachId)

end Follows

end CoachingCalendar.Auth
