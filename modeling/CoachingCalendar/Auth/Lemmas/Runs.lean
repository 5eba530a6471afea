import CoachingCalendar.Auth.Conditions
import CoachingCalendar.Auth.Lemmas.Protocol
import CoachingCalendar.Auth.Lemmas.Tokens

/-! # What runs of the account system keep -/

namespace CoachingCalendar.Auth
open Lib Lib.Prog Lib.System

variable {S : Services} {G : AuthGuard} {w w' : World} {c c' : AuthConfig}

/-- A condition on configurations that holds along every run. -/
theorem authRun_recorded {I : AuthConfig → Prop} (h : (authSystem S).Run G (.start w) c) (h₀ : I (.start w))
    (hspawn : ∀ (c : AuthConfig) call, (authSystem S).Run G (.start w) c → I c →
      I ⟨c.world, c.threads ++ [⟨call, call.body S⟩], c.log⟩)
    (hdrift : ∀ (c : AuthConfig) (ms : Nat), I c → I ⟨{ c.world with clock := c.world.clock + ms }, c.threads, c.log⟩)
    (hfire : ∀ (c : AuthConfig) i call o k ch r w', (authSystem S).Run G (.start w) c → I c →
      c.threads[i]? = some ⟨call, .op o k⟩ → call.allowed S.jwt (c.past i) o → exec S c.world o ch = (r, w') →
      G.event c ⟨⟨o, r⟩, i⟩ → I ⟨w', c.threads.set i ⟨call, k r⟩, c.log ++ [⟨⟨o, r⟩, i⟩]⟩) : I c := by
  refine h.recorded (R := Call.protocol S.jwt) (fun _ => rfl) (Call.body_follows S)
    (fun _ _ _ _ => exec_answered rfl) h₀ ?_ hdrift ?_
  · rintro c call _ hrun hI ⟨⟩
    exact hspawn c call hrun hI
  · exact fun c i call o k ch r w' hrun hI hi ha hx _ he => hfire c i call o k ch r w' hrun hI hi ha hx he

theorem ended_final (h : (authSystem S).Run G (.start w) c) {i : Nat} {call : Call}
    {r : Except Failure (Option Session)} (hi : c.Ended i call r) : call.final (c.past i) r := by
  have := h.follows_past (R := Call.protocol S.jwt) (fun _ => rfl) (Call.body_follows S)
    (fun _ _ _ _ => exec_answered rfl) hi
  cases r <;> exact this

theorem run_clock (h : (authSystem S).Run G (.start w) c) :
    ∀ e ∈ c.log, ∀ t : Int, e.toEvent = ⟨.now, .ok t⟩ → t ≤ c.world.clock := by
  refine authRun_recorded (I := fun c => ∀ e ∈ c.log, ∀ t : Int, e.toEvent = ⟨.now, .ok t⟩ → t ≤ c.world.clock) h
    (by simp [Config.start]) (fun _ _ _ hI => hI) ?_ ?_
  · intro c ms hI e he t ht
    have := hI e he t ht
    show t ≤ c.world.clock + ms
    omega
  · intro c i call o k ch r w' _ hI _ _ hx _ e he t ht
    rw [show w'.clock = c.world.clock from exec_clock hx]
    rcases List.mem_append.mp he with he | he
    · exact hI e he t ht
    · rw [List.mem_singleton.mp he] at ht
      cases ht
      cases hx
      exact Int.le_refl _

theorem mem_past {i : Nat} {e : Event Ans Failure} (he : e ∈ c.past i) : ∃ l ∈ c.log, l.tid = i ∧ l.toEvent = e :=
  System.mem_past.mp he

theorem allowed_stamp (h : (authSystem S).Run G (.start w) c) {i : Nat} {call : Call} {o : Op}
    {r : Except Failure (Ans o)} (ha : call.allowed S.jwt (c.past i) o) {p : String × Int}
    (hp : revocation ⟨o, r⟩ = some p) : p.2 ≤ c.world.clock := by
  cases o with
  | coachUpdate id patch =>
      obtain ⟨⟨R, hR, hnow⟩, _⟩ := ha
      obtain ⟨l, hl, _, hle⟩ := mem_past hnow
      cases r with
      | error _ => cases hp
      | ok _ =>
          obtain ⟨_, hR', rfl⟩ := Option.map_eq_some_iff.mp hp
          cases hR.symm.trans hR'
          exact run_clock h l hl R hle
  | _ => cases hp

/-! ## Revoked sessions stay revoked -/

/-- Every revocation is still in force, and the tokens that were signed before it are from before it. -/
def InForce (c : AuthConfig) : Prop :=
  ∀ e ∈ c.log, ∀ p, revocation e.toEvent = some p → p.2 ≤ c.world.clock ∧
    (∃ R, stamp c.world.coaches p.1 = some R ∧ p.2 ≤ R) ∧
    ∀ m ∈ c.world.accessTokens p.1, ∀ iat, m.payload.iat = some iat → m.time < p.2 → iat * 1000 < p.2

theorem InForce.fire {i : Nat} {call : Call} {o : Op} {ch : Choice} {r : Except Failure (Ans o)}
    {ths : List (Thread Ans Failure (Option Session) Call)} (h : InForce c)
    (hrun : (authSystem S).Run stampsGoForward (.start w) c) (ha : call.allowed S.jwt (c.past i) o)
    (hx : exec S c.world o ch = (r, w')) (hg : stampsGoForward.event c ⟨⟨o, r⟩, i⟩) :
    InForce ⟨w', ths, c.log ++ [⟨⟨o, r⟩, i⟩]⟩ := by
  intro e he p hp
  rw [show w'.clock = c.world.clock from exec_clock hx]
  -- a token signed now is not from before the stamp
  have htokens : p.2 ≤ c.world.clock →
      (∀ m ∈ c.world.accessTokens p.1, ∀ iat, m.payload.iat = some iat → m.time < p.2 → iat * 1000 < p.2) →
      ∀ m ∈ w'.accessTokens p.1, ∀ iat, m.payload.iat = some iat → m.time < p.2 → iat * 1000 < p.2 := by
    intro hclock hold m hm iat hiat ht
    obtain ⟨hm, hsub⟩ := List.mem_filter.mp hm
    rcases exec_minted hx hm with hm | hm
    · exact hold m (List.mem_filter.mpr ⟨hm, hsub⟩) iat hiat ht
    · omega
  rcases List.mem_append.mp he with he | he
  · obtain ⟨hclock, ⟨R, hR, hle⟩, hm⟩ := h e he p hp
    refine ⟨hclock, ?_, htokens hclock hm⟩
    by_cases hnew : ∃ R', revocation ⟨o, r⟩ = some (p.1, R')
    · obtain ⟨R', hR'⟩ := hnew
      have := (hg _ hR').1 R hR
      exact ⟨R', exec_stamp_of_revocation hx hR', Int.le_trans hle this⟩
    · exact ⟨R, (exec_stamp hx fun R' hR' => hnew ⟨R', hR'⟩).trans hR, hle⟩
  · rw [List.mem_singleton.mp he] at hp
    have hclock := allowed_stamp hrun ha hp
    exact ⟨hclock, ⟨p.2, exec_stamp_of_revocation hx hp, Int.le_refl _⟩,
      htokens hclock fun m hm iat hiat => (hg p hp).2 m hm iat hiat⟩

theorem run_inForce (h : (authSystem S).Run stampsGoForward (.start w) c) : InForce c := by
  refine authRun_recorded h (fun _ he => nomatch he) (fun _ _ _ hI => hI) ?_ ?_
  · intro c ms hI e he p hp
    obtain ⟨hclock, hR, hm⟩ := hI e he p hp
    refine ⟨?_, hR, hm⟩
    show p.2 ≤ c.world.clock + ms
    omega
  · exact fun c i call o k ch r w' hrun hI _ ha hx hg => hI.fire hrun ha hx hg

/-! ## Reset links -/

/-- A revocation by a call with the link. -/
def ByLink (token : String) (c : AuthConfig) (e : AuthEntry) : Prop :=
  (c.callOf e.tid).any (·.link = some token) = true ∧ (revocation e.toEvent).isSome = true

/-- At most one call has used the link, and then the coach is revoked after the second of the link. A row
that a call has read is up to date when the coach was not revoked since. -/
structure LinkUsed (token coachId : String) (iat : Int) (c : AuthConfig) : Prop where
  once : ∀ e ∈ c.log, ∀ e' ∈ c.log, ByLink token c e → ByLink token c e' → e.tid = e'.tid
  used : ∀ e ∈ c.log, ByLink token c e → ∃ R, stamp c.world.coaches coachId = some R ∧ iat * 1000 < R
  read : ∀ i coach, ⟨.coachFindUnique (some coachId), .ok (some coach)⟩ ∈ c.past i →
    (∀ x ∈ since (fun x => x.tid = i && finds coachId x) c.log, revokes coachId x = false) →
    stamp c.world.coaches coachId = coach.sessionsRevokedAt

variable {token coachId : String} {iat : Int}

theorem revokes_of_revocation {e : AuthEntry} {R : Int} (h : revocation e.toEvent = some (coachId, R)) :
    revokes coachId e = true := by simp [revokes, h]

theorem LinkUsed.read_fire {i : Nat} {call : Call} {o : Op} {ch : Choice} {r : Except Failure (Ans o)}
    {ths : List (Thread Ans Failure (Option Session) Call)} (h : LinkUsed token coachId iat c)
    (ha : call.allowed S.jwt (c.past i) o) (hx : exec S c.world o ch = (r, w')) (j : Nat) (coach : Coach)
    (hj : ⟨.coachFindUnique (some coachId), .ok (some coach)⟩ ∈
      (⟨w', ths, c.log ++ [⟨⟨o, r⟩, i⟩]⟩ : AuthConfig).past j)
    (hs : ∀ x ∈ since (fun x => x.tid = j && finds coachId x) (c.log ++ [⟨⟨o, r⟩, i⟩]), revokes coachId x = false) :
    stamp w'.coaches coachId = coach.sessionsRevokedAt := by
  rw [past_append] at hj
  rw [since_append] at hs
  by_cases hnew : (i = j && finds coachId ⟨⟨o, r⟩, i⟩) = true
  · simp only [Bool.and_eq_true, decide_eq_true_eq] at hnew
    obtain ⟨rfl, hfinds⟩ := hnew
    have hlooks : looksUp ⟨o, r⟩ = true := by
      unfold finds at hfinds
      split at hfinds
      · rename_i heq
        cases heq; rfl
      · cases hfinds
    rw [if_pos rfl] at hj
    rcases List.mem_append.mp hj with hold | hlast
    · -- it has not looked the coach up before
      cases o with
      | coachFindUnique _ => cases (ha _ hold).symm.trans rfl
      | _ => cases hlooks
    · cases List.mem_singleton.mp hlast
      rcases mayFail_cases hx with ⟨_, he, _⟩ | hx
      · cases he
      · simp only [Prod.mk.injEq, Except.ok.injEq] at hx
        rw [← hx.2, stamp, hx.1]
        rfl
  · rw [if_neg hnew] at hs
    obtain ⟨hrev, hs⟩ := List.forall_mem_cons.mp hs
    rw [exec_stamp hx fun R hR => by rw [revokes_of_revocation hR] at hrev; cases hrev]
    rcases List.mem_append.mp hj with hold | hlast
    · exact h.read j coach hold hs
    · split at hlast
      · rename_i hij
        obtain rfl : i = j := hij
        cases List.mem_singleton.mp hlast
        exact absurd (by simp [finds]) hnew
      · cases hlast

theorem byLink_append {th : Thread Ans Failure (Option Session) Call} {log : List AuthEntry} {e : AuthEntry}
    (he : e.tid < c.threads.length) : ByLink token ⟨w', c.threads ++ [th], log⟩ e ↔ ByLink token c e := by
  rw [ByLink, ByLink, callOf_append he]

theorem byLink_set {i : Nat} {call : Call} {p p' : AuthProg (Option Session)} {log : List AuthEntry} {e : AuthEntry}
    (hi : c.threads[i]? = some ⟨call, p⟩) :
    ByLink token ⟨w', c.threads.set i ⟨call, p'⟩, log⟩ e ↔ ByLink token c e := by
  rw [ByLink, ByLink, callOf_set hi]

variable {signedAt : Int}

section Link

variable (hJ : S.jwt.ReadsBack ((TokenService.resetClaims coachId).stamped PASSWORD_RESET_TTL signedAt))
variable (ht : TokenService.signPasswordResetToken S.jwt coachId signedAt = token)
include hJ ht

/-- A call with the link that updates a coach updates the coach of the link, whom it found not revoked since
the second of the link. -/
theorem allowed_link {newPassword id : String} {patch : CoachPatch} {past : Past}
    (ha : (Call.resetPassword token newPassword).allowed S.jwt past (.coachUpdate id patch)) :
    id = coachId ∧ ∃ coach, ⟨.coachFindUnique (some coachId), .ok (some coach)⟩ ∈ past ∧
      ∀ R, coach.sessionsRevokedAt = some R → R ≤ signedAt / 1000 * 1000 := by
  obtain ⟨_, hlink⟩ := ha
  obtain ⟨coach, rfl, ⟨t, reset, hreset, hid, hnew⟩, hfound, _⟩ := hlink _ _ rfl
  obtain ⟨hiat, hsub⟩ := verifyPasswordResetToken_ok hJ (ht ▸ hreset)
  cases hsub.symm.trans hid
  have hiat : signedAt / 1000 = reset.iat := Option.some.inj hiat
  exact ⟨rfl, coach, hfound, hiat ▸ hnew⟩

theorem LinkUsed.first {i : Nat} {call : Call} {o : Op} {r : Except Failure (Ans o)} {k}
    (h : LinkUsed token coachId (signedAt / 1000) c) (hi : c.threads[i]? = some ⟨call, .op o k⟩)
    (ha : call.allowed S.jwt (c.past i) o)
    (hg : (linkUsedAlone token coachId (signedAt / 1000)).event c ⟨⟨o, r⟩, i⟩)
    (hb : ByLink token c ⟨⟨o, r⟩, i⟩) :
    (∃ R, revocation ⟨o, r⟩ = some (coachId, R) ∧ signedAt / 1000 * 1000 < R) ∧
      ∀ e ∈ c.log, ¬ ByLink token c e := by
  obtain ⟨hlink, hsome⟩ := hb
  obtain ⟨p, hp⟩ := Option.isSome_iff_exists.mp hsome
  have hcall : call.link = some token := by
    simpa [Config.callOf, hi] using hlink
  cases call with
  | resetPassword t newPassword =>
      cases hcall
      cases o with
      | coachUpdate id patch =>
          obtain ⟨rfl, coach, hfound, hnew⟩ := allowed_link hJ ht ha
          have hid : p.1 = id := by
            cases r with
            | error _ => cases hp
            | ok _ => obtain ⟨_, _, rfl⟩ := Option.map_eq_some_iff.mp hp; rfl
          have hguard := hg p hp hid
          rw [if_pos hlink] at hguard
          refine ⟨⟨p.2, hid ▸ hp, hguard.1⟩, fun e he hb' => ?_⟩
          obtain ⟨R, hR, hlt⟩ := h.used e he hb'
          rw [h.read i coach hfound hguard.2] at hR
          have := hnew R hR
          omega
      | _ => cases hp
  | _ => cases hcall

theorem run_linkUsed (h : (authSystem S).Run (linkUsedAlone token coachId (signedAt / 1000)) (.start w) c) :
    LinkUsed token coachId (signedAt / 1000) c := by
  refine authRun_recorded h ⟨fun _ he => (nomatch he), fun _ he => (nomatch he), fun _ _ he => (nomatch he)⟩ ?_ ?_ ?_
  · intro c call hrun hI
    exact ⟨fun e he e' he' hb hb' => hI.once e he e' he' ((byLink_append (hrun.log_tid e he)).mp hb)
        ((byLink_append (hrun.log_tid e' he')).mp hb'),
      fun e he hb => hI.used e he ((byLink_append (hrun.log_tid e he)).mp hb), hI.read⟩
  · exact fun c ms hI => ⟨hI.once, hI.used, hI.read⟩
  · intro c i call o k ch r w' hrun hI hi ha hx hg
    have hfirst := hI.first (r := r) hJ ht hi ha hg
    refine ⟨fun e he e' he' hb hb' => ?_, fun e he hb => ?_, hI.read_fire ha hx⟩
    · rcases List.mem_append.mp he with he | he <;> rcases List.mem_append.mp he' with he' | he'
      · exact hI.once e he e' he' ((byLink_set hi).mp hb) ((byLink_set hi).mp hb')
      · rw [List.mem_singleton.mp he'] at hb'
        exact absurd ((byLink_set hi).mp hb) ((hfirst ((byLink_set hi).mp hb')).2 e he)
      · rw [List.mem_singleton.mp he] at hb
        exact absurd ((byLink_set hi).mp hb') ((hfirst ((byLink_set hi).mp hb)).2 e' he')
      · rw [List.mem_singleton.mp he, List.mem_singleton.mp he']
    · by_cases hnew : ByLink token c ⟨⟨o, r⟩, i⟩
      · obtain ⟨⟨R, hR, hlt⟩, _⟩ := hfirst hnew
        exact ⟨R, exec_stamp_of_revocation hx hR, hlt⟩
      · rcases List.mem_append.mp he with he | he
        · obtain ⟨R, hR, hlt⟩ := hI.used e he ((byLink_set hi).mp hb)
          by_cases hrev : ∃ R', revocation ⟨o, r⟩ = some (coachId, R')
          · obtain ⟨R', hR'⟩ := hrev
            have hguard := hg _ hR' rfl
            rw [if_neg fun hlink => hnew ⟨hlink, by simp [hR']⟩] at hguard
            have := hguard R hR
            exact ⟨R', exec_stamp_of_revocation hx hR', by omega⟩
          · exact ⟨R, (exec_stamp hx fun R' hR' => hrev ⟨R', hR'⟩).trans hR, hlt⟩
        · rw [List.mem_singleton.mp he] at hb
          exact absurd ((byLink_set hi).mp hb) hnew

end Link

/-! ## Fresh sessions -/

theorem run_returnedCoach (h : (authSystem S).Run G (.start w) c) :
    ∀ e ∈ c.log, ∀ coach, returnedCoach e.toEvent = some coach → (c.world.coaches.find coach.id).isSome := by
  refine authRun_recorded (I := fun c => ∀ e ∈ c.log, ∀ coach, returnedCoach e.toEvent = some coach →
    (c.world.coaches.find coach.id).isSome) h (fun _ he => nomatch he) (fun _ _ _ hI => hI) (fun _ _ hI => hI) ?_
  intro c i call o k ch r w' _ hI _ _ hx _ e he coach hc
  rcases List.mem_append.mp he with he | he
  · exact exec_coach hx (hI e he coach hc)
  · rw [List.mem_singleton.mp he] at hc
    exact exec_returnedCoach hx hc

theorem run_signed (h : (authSystem S).Run G (.start w) c) :
    ∀ e ∈ c.log, ∀ payload expiresIn token, e.toEvent = ⟨.sign payload expiresIn, .ok token⟩ →
      ∃ m ∈ c.world.minted, m.payload = payload ∧ m.expiresIn = expiresIn ∧ token = S.jwt.encode m.claims := by
  refine authRun_recorded (I := fun c => ∀ e ∈ c.log, ∀ payload expiresIn token,
    e.toEvent = ⟨.sign payload expiresIn, .ok token⟩ → ∃ m ∈ c.world.minted, m.payload = payload ∧
      m.expiresIn = expiresIn ∧ token = S.jwt.encode m.claims) h (fun _ he => nomatch he) (fun _ _ _ hI => hI)
    (fun _ _ hI => hI) ?_
  intro c i call o k ch r w' _ hI _ _ hx _ e he payload expiresIn token ht
  rcases List.mem_append.mp he with he | he
  · obtain ⟨m, hm, hrest⟩ := hI e he payload expiresIn token ht
    exact ⟨m, exec_minted_subset hx hm, hrest⟩
  · rw [List.mem_singleton.mp he] at ht
    cases ht
    obtain ⟨hm, rfl⟩ := exec_signed hx
    exact ⟨_, hm, rfl, rfl, rfl⟩

theorem lastRevocation_append {id : String} {log : List AuthEntry} {e : AuthEntry} :
    lastRevocation id (log ++ [e]) = if revokes id e then some e else lastRevocation id log := by
  cases h : revokes id e <;> simp [lastRevocation, h]

theorem run_lastRevocation (h : (authSystem S).Run G (.start w) c) {id : String} {e : AuthEntry}
    (he : lastRevocation id c.log = some e) :
    ∃ R, revocation e.toEvent = some (id, R) ∧ stamp c.world.coaches id = some R := by
  revert e
  refine authRun_recorded (I := fun c => ∀ {e}, lastRevocation id c.log = some e →
    ∃ R, revocation e.toEvent = some (id, R) ∧ stamp c.world.coaches id = some R) h (fun he => nomatch he)
    (fun _ _ _ hI => hI) (fun _ _ hI => hI) ?_
  intro c i call o k ch r w' _ hI _ _ hx _ e he
  rw [lastRevocation_append] at he
  split at he
  · rename_i hrev
    cases he
    obtain ⟨⟨id', R⟩, hR, hid⟩ := (Option.any_eq_true _ _).mp hrev
    obtain rfl : id' = id := of_decide_eq_true hid
    exact ⟨R, hR, exec_stamp_of_revocation hx hR⟩
  · rename_i hrev
    obtain ⟨R, hR, hstamp⟩ := hI he
    exact ⟨R, hR, (exec_stamp hx fun R' hR' => hrev (revokes_of_revocation hR')).trans hstamp⟩

theorem run_stamp (h : (authSystem S).Run G c c') {id : String}
    (hrev : ∀ e ∈ c'.log.drop c.log.length, revokes id e = false) :
    stamp c'.world.coaches id = stamp c.world.coaches id := by
  induction h with
  | refl => rfl
  | @tail c₁ c₂ h hs ih =>
      have hlen := h.log_grows.length_le
      cases hs with
      | spawn _ ha => cases ha; exact ih hrev
      | @fire i _ o _ ch r w' _ hx _ =>
          rw [List.drop_append_of_le_length hlen] at hrev
          rw [exec_stamp hx fun R hR => ?_, ih fun e he => hrev e (List.mem_append_left _ he)]
          have := hrev ⟨⟨o, r⟩, i⟩ (List.mem_append_right _ (List.mem_singleton.mpr rfl))
          rw [revokes_of_revocation hR] at this
          cases this
      | drift _ => exact ih hrev

end CoachingCalendar.Auth
