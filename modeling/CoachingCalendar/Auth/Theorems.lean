import CoachingCalendar.Auth.Lemmas.Runs

/-!
# What holds of sessions
-/

namespace CoachingCalendar.Auth
open Lib Lib.System

/-! ## The purpose of a token -/

inductive TokenKind where
  | access | connectState | invite | reset
  deriving DecidableEq, Repr

/-- What one of the four signers was given. -/
inductive Signed where
  | access (payload : AccessTokenPayload)
  | connectState (coachId : String)
  | invite (payload : CoachInvitePayload)
  | reset (coachId : String)
  deriving DecidableEq, Repr

namespace Signed

def kind : Signed → TokenKind
  | access _ => .access
  | connectState _ => .connectState
  | invite _ => .invite
  | reset _ => .reset

def payload : Signed → Claims
  | access p => p.claims
  | connectState coachId => TokenService.connectStateClaims coachId
  | invite p => TokenService.inviteClaims p
  | reset coachId => TokenService.resetClaims coachId

def expiresIn : Signed → Int
  | access _ => TOKEN_TTL
  | connectState _ => GOOGLE_CONNECT_STATE_TTL
  | invite _ => COACH_INVITE_TTL
  | reset _ => PASSWORD_RESET_TTL

def claims (s : Signed) (signedAt : Int) : Claims := s.payload.stamped s.expiresIn signedAt

/-- The token that the signer returns. -/
def token (J : Jwt) (signedAt : Int) : Signed → String
  | access p => TokenService.sign J p signedAt
  | connectState coachId => TokenService.signGoogleConnectState J coachId signedAt
  | invite p => TokenService.signCoachInviteToken J p signedAt
  | reset coachId => TokenService.signPasswordResetToken J coachId signedAt

theorem token_eq (J : Jwt) (s : Signed) (signedAt : Int) : s.token J signedAt = J.encode (s.claims signedAt) := by
  cases s <;> rfl

end Signed

/-- The consumer of a kind of token throws. For access tokens that is the guard. -/
def Rejects (J : Jwt) (consumer : TokenKind) (now : Int) (coaches : Table Coach.id) (token : String) : Prop :=
  match consumer with
  | .access => ∃ e, canActivate J now coaches (some ("Bearer " ++ token)) = .error e
  | .connectState => ∃ e, TokenService.verifyGoogleConnectState J token now = .error e
  | .invite => ∃ e, TokenService.verifyCoachInviteToken J token now = .error e
  | .reset => ∃ e, TokenService.verifyPasswordResetToken J token now = .error e

/-- A connect-state or reset token is presented to the guard before it expires, its coach exists, and the
sessions of the coach were not revoked after the second in which it was signed. -/
structure Signed.Crosses (s : Signed) (consumer : TokenKind) (signedAt now : Int) (coaches : Table Coach.id) :
    Prop where
  guard : consumer = .access
  unexpired : now / 1000 < signedAt / 1000 + s.expiresIn
  coach : ∃ coachId coach, (s = .connectState coachId ∨ s = .reset coachId) ∧
    coaches.find coachId = some coach ∧
    ∀ revokedAt, coach.sessionsRevokedAt = some revokedAt → revokedAt ≤ signedAt / 1000 * 1000

/-- What the payload of a kind says about its purpose. -/
def TokenKind.purpose : TokenKind → Option String
  | .access => none
  | .connectState => some GOOGLE_CONNECT_STATE_PURPOSE
  | .invite => some COACH_INVITE_PURPOSE
  | .reset => some PASSWORD_RESET_PURPOSE

theorem TokenKind.purpose_injective {k k' : TokenKind} (h : k.purpose = k'.purpose) : k = k' := by
  revert h; cases k <;> cases k' <;> decide

theorem Signed.payload_purpose (s : Signed) : s.payload.purpose = s.kind.purpose := by cases s <;> rfl

theorem Signed.claims_of_coach {s : Signed} {coachId : String} (hs : s = .connectState coachId ∨ s = .reset coachId)
    (signedAt now : Int) : (s.claims signedAt).sub = some coachId ∧ (s.claims signedAt).iat = some (signedAt / 1000) ∧
      ((s.claims signedAt).expired now = false ↔ now / 1000 < signedAt / 1000 + s.expiresIn) := by
  rcases hs with rfl | rfl
  · exact ⟨rfl, rfl, by simp [claims, payload, TokenService.connectStateClaims]⟩
  · exact ⟨rfl, rfl, by simp [claims, payload, TokenService.resetClaims]⟩

/-- A token is rejected by the consumer of another kind if and only if it is not one of these. -/
theorem token_rejected_iff {J : Jwt} {s : Signed} {consumer : TokenKind} {signedAt now : Int}
    {coaches : Table Coach.id} (hk : s.kind ≠ consumer) (hJ : J.ReadsBack (s.claims signedAt)) :
    Rejects J consumer now coaches (s.token J signedAt) ↔ ¬ s.Crosses consumer signedAt now coaches := by
  rw [s.token_eq]
  have hp : (s.claims signedAt).purpose ≠ consumer.purpose :=
    fun h => hk (TokenKind.purpose_injective (s.payload_purpose.symm.trans h))
  cases consumer with
  | access =>
      rw [Rejects, refused_iff, ← not_exists]
      refine not_congr ?_
      simp only [canActivate_ok hJ]
      constructor
      · rintro ⟨coach, hx, ⟨coachId, hs, hf⟩, hnew⟩
        have hcoach : s = .connectState coachId ∨ s = .reset coachId := by
          cases s with
          | access p => exact absurd rfl hk
          | invite p => cases hs
          | connectState id => cases hs; exact .inl rfl
          | reset id => cases hs; exact .inr rfl
        obtain ⟨_, hi, ht⟩ := Signed.claims_of_coach hcoach signedAt now
        exact ⟨rfl, ht.mp hx, coachId, coach, hcoach, hf, fun R hR => hnew R _ hR hi⟩
      · rintro ⟨_, hx, coachId, coach, hcoach, hf, hnew⟩
        obtain ⟨hs, hi, ht⟩ := Signed.claims_of_coach hcoach signedAt now
        refine ⟨coach, ht.mpr hx, ⟨coachId, hs, hf⟩, fun R iat hR hiat => ?_⟩
        cases hi.symm.trans hiat
        exact hnew R hR
  | connectState =>
      obtain ⟨e, he⟩ := verifyPurpose_error now hJ hp
      exact iff_of_true ⟨e, by rw [TokenService.verifyGoogleConnectState, he, bind_error]⟩ fun h => by cases h.guard
  | invite =>
      obtain ⟨e, he⟩ := verifyPurpose_error now hJ hp
      exact iff_of_true ⟨e, by rw [TokenService.verifyCoachInviteToken, he, bind_error]⟩ fun h => by cases h.guard
  | reset =>
      obtain ⟨e, he⟩ := verifyPurpose_error now hJ hp
      exact iff_of_true ⟨e, by rw [TokenService.verifyPasswordResetToken, he, bind_error]⟩ fun h => by cases h.guard

/-- A reset token is no invite. -/
theorem token_rejected_iff_reset :
    Rejects (.sample [("t", (Signed.reset "c1").claims 0)]) .invite 0 World.sample.coaches
      ((Signed.reset "c1").token (.sample [("t", (Signed.reset "c1").claims 0)]) 0) :=
  (token_rejected_iff (by decide) (Jwt.sample_readsBack "t" (by decide) (by decide) (by decide))).mpr
    fun h => by cases h.guard

/-- The connect-state token of a coach is good for a session. -/
theorem token_not_rejected : ¬ ∀ (J : Jwt) (s : Signed) (consumer : TokenKind) (signedAt now : Int)
    (coaches : Table Coach.id), s.kind ≠ consumer → J.ReadsBack (s.claims signedAt) →
    Rejects J consumer now coaches (s.token J signedAt) := by
  intro hall
  have hJ : (Jwt.sample [("t", (Signed.connectState "c1").claims 0)]).ReadsBack ((Signed.connectState "c1").claims 0) :=
    Jwt.sample_readsBack "t" (by decide) (by decide) (by decide)
  obtain ⟨e, he⟩ := hall _ (.connectState "c1") .access 0 0 World.sample.coaches (by decide) hJ
  have hok : canActivate _ 0 World.sample.coaches _ = .ok .sample :=
    (canActivate_ok hJ).mpr ⟨by decide, ⟨"c1", rfl, rfl⟩, fun _ _ h => by cases h⟩
  rw [Signed.token_eq, hok] at he
  cases he

/-! ## Revocations -/

/-- From `c` to `c'`: the guard rejects every access token of a coach that was signed before the stamp of a
revocation that has completed in `c`. -/
def RevokedForGood (S : Services) (c c' : AuthConfig) : Prop :=
  ∀ i call session R, call.revokes = true → c.Ended i call (.ok (some session)) →
    session.coach.sessionsRevokedAt = some R →
    ∀ m ∈ c'.world.accessTokens session.coach.id, m.time < R → S.jwt.ReadsBack m.claims →
    ∀ now, ∃ e, canActivate S.jwt now c'.world.coaches (some ("Bearer " ++ S.jwt.encode m.claims)) = .error e

theorem revoked_for_good {S : Services} {w : World} {c c' : AuthConfig}
    (h : (authSystem S).Run stampsGoForward (.start w) c) (h' : (authSystem S).Run stampsGoForward c c') :
    RevokedForGood S c c' := by
  intro i call session R hcall hend hR m hm ht hJ now
  have hgranted : call.Granted (c.past i) session := ended_final h hend
  -- the revocation in the log
  obtain ⟨e, he, hsome⟩ := hgranted.revoked hcall
  obtain ⟨p, hp⟩ := Option.isSome_iff_exists.mp hsome
  obtain ⟨hid, hstamp⟩ := hgranted.stamped e he p hp
  cases hR.symm.trans hstamp
  obtain ⟨l, hl, _, rfl⟩ := mem_past he
  obtain ⟨_, ⟨R', hR', hle⟩, hold⟩ := run_inForce (h.trans h') l (h'.log_grows.subset hl) p hp
  rw [hid] at hR' hold
  refine refused_iff.mpr fun coach hok => ?_
  obtain ⟨_, ⟨id, hsub, hf⟩, hnew⟩ := (canActivate_ok hJ).mp hok
  have hm' := (List.mem_filter.mp hm).2
  simp only [Bool.and_eq_true, decide_eq_true_eq] at hm'
  cases hm'.1.symm.trans hsub
  rw [stamp, hf] at hR'
  have hiat := hnew R' _ hR' rfl
  cases hp' : m.payload.iat with
  | none =>
      simp only [hp', Option.getD_none] at hiat
      omega
  | some iat =>
      have := hold m hm iat hp' ht
      simp only [hp', Option.getD_some] at hiat
      omega

/-- A login, and a revocation two seconds later. -/
theorem revoked_for_good_login : ∃ c c', (authSystem .sample).Run stampsGoForward (.start .sample) c ∧
    (authSystem .sample).Run stampsGoForward c c' ∧
    c.Ended 1 (.revokeSessions "c1") (.ok (some ⟨none, stampedCoach 1002500⟩)) ∧
    ⟨.session none, TOKEN_TTL, 1000500⟩ ∈ c'.world.accessTokens "c1" ∧ RevokedForGood .sample c c' := by
  obtain ⟨c, h, hp⟩ := run_of_play (S := authSystem .sample) (G := stampsGoForward) (c := .start .sample)
    ([.spawn (.login "coach@example.com" "hash")] ++ fires 0 3 ++ [.drift 2000, .spawn (.revokeSessions "c1")] ++
      fires 1 2)
    (fun c => c.returned 1 = some (.revokeSessions "c1", some ⟨none, stampedCoach 1002500⟩) &&
      ((authSystem .sample).play stampsGoForward [.drift 1000] c).any fun c' =>
        c'.world.accessTokens "c1" = [⟨.session none, TOKEN_TTL, 1000500⟩]) (by decide)
  rw [Bool.and_eq_true, decide_eq_true_eq, Option.any_eq_true] at hp
  obtain ⟨hr, c', hc', hm⟩ := hp
  have h' := play_run hc'
  exact ⟨c, c', h, h', Config.ended_of_returned hr, by rw [of_decide_eq_true hm]; exact List.mem_singleton.mpr rfl,
    revoked_for_good h h'⟩

/-- A reset, and a revocation a fifth of a second later: the token of the reset is from the next second. -/
theorem not_revoked_for_good : ¬ ∀ (S : Services) (w : World) (c c' : AuthConfig),
    (authSystem S).Run .any (.start w) c → (authSystem S).Run .any c c' → RevokedForGood S c c' := by
  intro hall
  obtain ⟨c, h, hp⟩ := run_of_play (S := authSystem .sample) (G := .any) (c := .start .sample)
    ([.spawn (.resetPassword "link" "hash")] ++ fires 0 6 ++ [.drift 200, .spawn (.revokeSessions "c1")] ++ fires 1 2)
    (fun c => c.returned 1 = some (.revokeSessions "c1", some ⟨none, stampedCoach 1000700⟩) &&
      c.world.accessTokens "c1" = [⟨.session (some 1001), TOKEN_TTL, 1000500⟩] &&
      c.world.coaches.find "c1" = some (stampedCoach 1000700)) (by decide)
  simp only [Bool.and_eq_true, decide_eq_true_eq] at hp
  obtain ⟨⟨hr, hm⟩, hf⟩ := hp
  have hJ : Services.sample.jwt.ReadsBack (Minted.claims ⟨.session (some 1001), TOKEN_TTL, 1000500⟩) :=
    Jwt.sample_readsBack "pinned" (by decide) (by decide) (by decide)
  obtain ⟨e, he⟩ := hall .sample .sample c c h .refl 1 _ _ 1000700 rfl (Config.ended_of_returned hr) rfl
    ⟨.session (some 1001), TOKEN_TTL, 1000500⟩ (hm ▸ List.mem_singleton.mpr rfl) (by decide) hJ 1000700
  have hok : canActivate _ 1000700 c.world.coaches _ = .ok (stampedCoach 1000700) :=
    (canActivate_ok hJ).mpr ⟨by decide, ⟨"c1", rfl, hf⟩, by rintro _ _ ⟨⟩ ⟨⟩; decide⟩
  rw [hok] at he
  cases he

/-! ## Reset links -/

/-- At most one call with the link succeeds, and a call with the link that throws has not changed the coach
table. -/
def LinkWorksOnce (S : Services) (G : AuthGuard) (w : World) (token : String) (c : AuthConfig) : Prop :=
  (∀ i j newPassword newPassword' session session',
    c.Ended i (.resetPassword token newPassword) (.ok (some session)) →
    c.Ended j (.resetPassword token newPassword') (.ok (some session')) → i = j) ∧
  ∀ i newPassword e c₁ c₂, c.Ended i (.resetPassword token newPassword) (.error e) →
    (authSystem S).Run G (.start w) c₁ → (authSystem S).Step G c₁ c₂ → (authSystem S).Run G c₂ c →
    Config.FiredBy i c₁ c₂ → c₂.world.coaches = c₁.world.coaches

theorem link_works_once {S : Services} {w : World} {c : AuthConfig} {coachId : String} {signedAt : Int}
    (hJ : S.jwt.ReadsBack ((TokenService.resetClaims coachId).stamped PASSWORD_RESET_TTL signedAt))
    (h : (authSystem S).Run (linkUsedAlone (TokenService.signPasswordResetToken S.jwt coachId signedAt) coachId
      (signedAt / 1000)) (.start w) c) :
    LinkWorksOnce S (linkUsedAlone (TokenService.signPasswordResetToken S.jwt coachId signedAt) coachId
      (signedAt / 1000)) w (TokenService.signPasswordResetToken S.jwt coachId signedAt) c := by
  generalize ht : TokenService.signPasswordResetToken S.jwt coachId signedAt = token at *
  refine ⟨fun i j p q s t hi hj => ?_, fun i p e c₁ c₂ hi _ hs h₂ hfired => ?_⟩
  · have used : ∀ {i p s}, c.Ended i (.resetPassword token p) (.ok (some s)) →
        ∃ l ∈ c.log, l.tid = i ∧ ByLink token c l := by
      intro i p s hi
      have hgranted : Call.Granted _ (c.past i) s := ended_final h hi
      obtain ⟨e, he, hsome⟩ := hgranted.revoked rfl
      obtain ⟨l, hl, rfl, rfl⟩ := mem_past he
      exact ⟨l, hl, rfl, by rw [Config.callOf, hi]; simp [Call.link], hsome⟩
    obtain ⟨l, hl, rfl, hb⟩ := used hi
    obtain ⟨l', hl', rfl, hb'⟩ := used hj
    exact (run_linkUsed hJ ht h).once l hl l' hl' hb hb'
  · obtain ⟨x, ch, hx, hlog⟩ := hs.firedBy hfired
    refine exec_coaches hx (ended_final h hi rfl x (System.mem_past.mpr ⟨⟨x, i⟩, ?_, rfl, rfl⟩))
    exact h₂.log_grows.subset (hlog ▸ List.mem_append_right _ (List.mem_singleton.mpr rfl))

theorem link_readsBack :
    Services.sample.jwt.ReadsBack ((TokenService.resetClaims "c1").stamped PASSWORD_RESET_TTL 1000000) :=
  Jwt.sample_readsBack "link" (by decide) (by decide) (by decide)

/-- A reset, and the link once more. -/
theorem link_works_once_replayed : ∃ c, (authSystem .sample).Run
      (linkUsedAlone (TokenService.signPasswordResetToken Services.sample.jwt "c1" 1000000) "c1" (1000000 / 1000))
      (.start .sample) c ∧ (c.isQuiet = true ∧ (c.returned 0).isSome = true ∧ (c.returned 1).isSome = false) ∧
    LinkWorksOnce .sample
      (linkUsedAlone (TokenService.signPasswordResetToken Services.sample.jwt "c1" 1000000) "c1" (1000000 / 1000))
      .sample (TokenService.signPasswordResetToken Services.sample.jwt "c1" 1000000) c := by
  obtain ⟨c, h, hp⟩ := run_of_play (S := authSystem .sample) (c := .start .sample)
    (G := linkUsedAlone (TokenService.signPasswordResetToken Services.sample.jwt "c1" 1000000) "c1" (1000000 / 1000))
    ([.spawn (.resetPassword "link" "new")] ++ fires 0 6 ++ [.spawn (.resetPassword "link" "again")] ++ fires 1 2)
    (fun c => c.isQuiet && ((c.returned 0).isSome && !(c.returned 1).isSome)) (by decide)
  simp only [Bool.and_eq_true, Bool.not_eq_true'] at hp
  exact ⟨c, h, hp, link_works_once link_readsBack h⟩

/-- Two calls read the coach before either has updated it. -/
theorem link_works_twice : ¬ ∀ (S : Services) (w : World) (c : AuthConfig) (coachId : String) (signedAt : Int),
    S.jwt.ReadsBack ((TokenService.resetClaims coachId).stamped PASSWORD_RESET_TTL signedAt) →
    (authSystem S).Run .any (.start w) c →
    LinkWorksOnce S .any w (TokenService.signPasswordResetToken S.jwt coachId signedAt) c := by
  intro hall
  obtain ⟨c, h, hp⟩ := run_of_play (S := authSystem .sample) (G := .any) (c := .start .sample)
    ([.spawn (.resetPassword "link" "one"), .spawn (.resetPassword "link" "two")] ++ fires 0 4 ++ fires 1 4 ++
      fires 0 2 ++ fires 1 2)
    (fun c => (c.returned 0).any (fun r => r.1 = .resetPassword "link" "one" && r.2.isSome) &&
      (c.returned 1).any fun r => r.1 = .resetPassword "link" "two" && r.2.isSome) (by decide)
  have ended : ∀ {i newPassword}, (c.returned i).any (fun r => r.1 = .resetPassword "link" newPassword && r.2.isSome) →
      ∃ session, c.Ended i (.resetPassword "link" newPassword) (.ok (some session)) := by
    intro i newPassword hr
    obtain ⟨⟨call, s⟩, hc, hs⟩ := (Option.any_eq_true _ _).mp hr
    simp only [Bool.and_eq_true, decide_eq_true_eq, Option.isSome_iff_exists] at hs
    obtain ⟨rfl, session, rfl⟩ := hs
    exact ⟨session, Config.ended_of_returned hc⟩
  rw [Bool.and_eq_true] at hp
  obtain ⟨s, hs⟩ := ended hp.1
  obtain ⟨t, ht⟩ := ended hp.2
  have hlink : TokenService.signPasswordResetToken Services.sample.jwt "c1" 1000000 = "link" := by decide
  have := (hall .sample .sample c "c1" 1000000 link_readsBack h).1 0 1 "one" "two" s t (hlink ▸ hs) (hlink ▸ ht)
  cases this

/-! ## Fresh sessions -/

/-- The guard lets a token through until it expires. -/
def Accepted (S : Services) (coaches : Table Coach.id) (m : Minted) : Prop :=
  ∀ now, m.claims.expired now = false →
    ∃ coach, canActivate S.jwt now coaches (some ("Bearer " ++ S.jwt.encode m.claims)) = .ok coach

theorem accepted_iff {S : Services} {coaches : Table Coach.id} {m : Minted} {id : String}
    (hJ : S.jwt.ReadsBack m.claims) (hexp : m.expiresIn = TOKEN_TTL) (hsub : m.payload.sub = some id) :
    Accepted S coaches m ↔ (coaches.find id).isSome ∧
      ∀ R, stamp coaches id = some R → R ≤ m.payload.iat.getD (m.time / 1000) * 1000 := by
  constructor
  · intro h
    -- at the second of the token it has not expired
    obtain ⟨coach, hok⟩ := h (m.payload.iat.getD (m.time / 1000) * 1000) (by
      simp only [Minted.claims, Claims.expired_stamped, hexp, TOKEN_TTL, decide_eq_false_iff_not]
      omega)
    obtain ⟨_, ⟨_, hs, hf⟩, hnew⟩ := (canActivate_ok hJ).mp hok
    cases hsub.symm.trans hs
    refine ⟨by rw [hf]; rfl, fun R hR => hnew R _ ?_ rfl⟩
    rwa [stamp, hf] at hR
  · rintro ⟨hcoach, hnew⟩ now hx
    obtain ⟨coach, hf⟩ := Option.isSome_iff_exists.mp hcoach
    refine ⟨coach, (canActivate_ok hJ).mpr ⟨hx, ⟨id, hsub, hf⟩, ?_⟩⟩
    rintro R _ hR ⟨⟩
    exact hnew R (by rw [stamp, hf]; exact hR)

/-- From `c`, before call `i` started, to `c'` there is no revocation of the coach. For a reset: none after its
own. -/
def UnrevokedSince (c c' : AuthConfig) (i : Nat) (call : Call) (coachId : String) : Prop :=
  if call.isReset then ∃ e, lastRevocation coachId c'.log = some e ∧ e.tid = i
  else ∀ e ∈ c'.log.drop c.log.length, revokes coachId e = false

/-- Call `i`, which starts after `c` and has returned a token in `c'`. -/
structure FreshSession (S : Services) (c c' : AuthConfig) (i : Nat) (call : Call) (session : Session)
    (token : String) : Prop where
  started : c.threads.length ≤ i
  ended : c'.Ended i call (.ok (some session))
  token : session.accessToken = some token
  unrevoked : UnrevokedSince c c' i call session.coach.id
  readsBack : ∀ m ∈ c'.world.minted, S.jwt.ReadsBack m.claims

section Fresh

variable {S : Services} {w : World} {c c' : AuthConfig} {i : Nat} {call : Call} {session : Session} {token : String}

/-- The token of a call that starts after a revocation is accepted if and only if it comes from a reset or the
second in which it is signed does not start before the stamp. -/
theorem fresh_session_accepted_iff (h : (authSystem S).Run .any (.start w) c) (h' : (authSystem S).Run .any c c')
    (hf : FreshSession S c c' i call session token) :
    ∃ m ∈ c'.world.accessTokens session.coach.id, token = S.jwt.encode m.claims ∧
      (Accepted S c'.world.coaches m ↔ call.isReset = true ∨
        ∀ R, stamp c.world.coaches session.coach.id = some R → R ≤ m.time / 1000 * 1000) := by
  have hrun := h.trans h'
  have hgranted : call.Granted (c'.past i) session := ended_final hrun hf.ended
  obtain ⟨payload, hsign, hsub, hpurpose, hiat⟩ := hgranted.token token hf.token
  obtain ⟨l, hl, _, hle⟩ := mem_past hsign
  obtain ⟨m, hm, rfl, hexp, htoken⟩ := run_signed hrun l hl _ _ _ hle
  refine ⟨m, List.mem_filter.mpr ⟨hm, by simp [hsub, hpurpose]⟩, htoken, ?_⟩
  obtain ⟨e, he, hcoach⟩ := hgranted.coach
  obtain ⟨l', hl', _, rfl⟩ := mem_past he
  have hthere := run_returnedCoach hrun l' hl' _ hcoach
  have hunrevoked := hf.unrevoked
  rw [accepted_iff (hf.readsBack m hm) hexp hsub, hiat]
  cases hreset : call.isReset with
  | true =>
      -- the stamp is the reset's own
      rw [UnrevokedSince, if_pos hreset] at hunrevoked
      obtain ⟨own, hlast, rfl⟩ := hunrevoked
      obtain ⟨R, hR, hstamp⟩ := run_lastRevocation hrun hlast
      have hown := hgranted.stamped own.toEvent
        (System.mem_past.mpr ⟨own, List.mem_reverse.mp (List.mem_of_find?_eq_some hlast), rfl, rfl⟩) _ hR
      simp only [hthere, true_and, if_true, true_or, iff_true, hstamp, hown.2, Option.map_some, Option.getD_some]
      rintro _ ⟨⟩
      omega
  | false =>
      rw [UnrevokedSince, hreset, if_neg Bool.false_ne_true] at hunrevoked
      rw [run_stamp h' hunrevoked]
      simp [hthere]

end Fresh

/-- A revocation, and a login a second and a half later. -/
theorem fresh_session_accepted_iff_late : ∃ c c', (authSystem .sample).Run .any (.start .sample) c ∧
    (authSystem .sample).Run .any c c' ∧ stamp c.world.coaches "c1" = some 1000500 ∧
    ∃ m ∈ c'.world.accessTokens "c1", m.time = 1002000 ∧ Accepted .sample c'.world.coaches m := by
  obtain ⟨c, h, hp⟩ := run_of_play (S := authSystem .sample) (G := .any) (c := .start .sample)
    ([.spawn (.revokeSessions "c1")] ++ fires 0 2)
    (fun c => stamp c.world.coaches "c1" = some 1000500 && c.threads.length = 1 && c.log.length = 2 &&
      ((authSystem .sample).play .any
        ([.drift 1500, .spawn (.login "coach@example.com" "hash")] ++ fires 1 3) c).any fun c' =>
        c'.returned 1 = some (.login "coach@example.com" "hash", some ⟨some "late", stampedCoach 1000500⟩) &&
        c'.world.minted = [⟨.session none, TOKEN_TTL, 1002000⟩] &&
        (c'.log.drop 2).all fun e => !revokes "c1" e) (by decide)
  simp only [Bool.and_eq_true, decide_eq_true_eq, Option.any_eq_true, List.all_eq_true, Bool.not_eq_true'] at hp
  obtain ⟨⟨⟨hstamp, hlen⟩, hlog⟩, c', hc', ⟨hr, hm⟩, hrev⟩ := hp
  have h' := play_run hc'
  have hJ : Services.sample.jwt.ReadsBack (Minted.claims ⟨.session none, TOKEN_TTL, 1002000⟩) :=
    Jwt.sample_readsBack "late" (by decide) (by decide) (by decide)
  have hf : FreshSession .sample c c' 1 _ _ "late" :=
    ⟨Nat.le_of_eq hlen, Config.ended_of_returned hr, rfl,
      by rw [UnrevokedSince, if_neg (by decide), hlog]; exact hrev, by
      intro m hmem
      rw [hm] at hmem
      rw [List.mem_singleton.mp hmem]
      exact hJ⟩
  obtain ⟨m, hmem, _, hiff⟩ := fresh_session_accepted_iff h h' hf
  have htime := (List.mem_filter.mp hmem).1
  rw [hm] at htime
  refine ⟨c, c', h, h', hstamp, m, hmem, by rw [List.mem_singleton.mp htime], hiff.mpr (.inr fun R hR => ?_)⟩
  cases hstamp.symm.trans hR
  rw [List.mem_singleton.mp htime]
  decide

/-- A revocation, and a login in the same second. -/
theorem fresh_session_not_accepted : ¬ ∀ (S : Services) (w : World) (c c' : AuthConfig) (i : Nat) (call : Call)
    (session : Session) (token : String), (authSystem S).Run .any (.start w) c → (authSystem S).Run .any c c' →
    FreshSession S c c' i call session token →
    ∃ m ∈ c'.world.accessTokens session.coach.id, token = S.jwt.encode m.claims ∧
      Accepted S c'.world.coaches m := by
  intro hall
  obtain ⟨c, h, hp⟩ := run_of_play (S := authSystem .sample) (G := .any) (c := .start .sample)
    ([.spawn (.revokeSessions "c1")] ++ fires 0 2)
    (fun c => c.threads.length = 1 && c.log.length = 2 &&
      ((authSystem .sample).play .any ([.spawn (.login "coach@example.com" "hash")] ++ fires 1 3) c).any fun c' =>
        c'.returned 1 = some (.login "coach@example.com" "hash", some ⟨some "plain", stampedCoach 1000500⟩) &&
        c'.world.minted = [⟨.session none, TOKEN_TTL, 1000500⟩] && stamp c'.world.coaches "c1" = some 1000500 &&
        (c'.log.drop 2).all fun e => !revokes "c1" e) (by decide)
  simp only [Bool.and_eq_true, decide_eq_true_eq, Option.any_eq_true, List.all_eq_true, Bool.not_eq_true'] at hp
  obtain ⟨⟨hlen, hlog⟩, c', hc', ⟨⟨hr, hm⟩, hstamp⟩, hrev⟩ := hp
  have hJ : Services.sample.jwt.ReadsBack (Minted.claims ⟨.session none, TOKEN_TTL, 1000500⟩) :=
    Jwt.sample_readsBack "plain" (by decide) (by decide) (by decide)
  obtain ⟨m, hmem, _, hok⟩ := hall .sample .sample c c' 1 _ _ "plain" h (play_run hc')
    ⟨Nat.le_of_eq hlen, Config.ended_of_returned hr, rfl,
      by rw [UnrevokedSince, if_neg (by decide), hlog]; exact hrev, by
      intro m hmem
      rw [hm] at hmem
      rw [List.mem_singleton.mp hmem]
      exact hJ⟩
  have hmem := (List.mem_filter.mp hmem).1
  rw [hm] at hmem
  obtain rfl := List.mem_singleton.mp hmem
  have hle := ((accepted_iff hJ rfl rfl).mp hok).2 1000500 hstamp
  revert hle
  decide

end CoachingCalendar.Auth
