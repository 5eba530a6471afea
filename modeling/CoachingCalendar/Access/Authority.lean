import CoachingCalendar.Access.Lemmas.Runs

/-!
# Who changes an account

Requests run in any order, and every query may fail. A column of a coach is written by the coach, by a link that was
signed for the coach, or by an admin, each only the columns that are theirs. Nobody becomes an admin.
-/

namespace CoachingCalendar.Access
open Lib Lib.Prog Lib.System

/-! ## Changes of a row -/

section

variable (S : Services) (past : Past)

/-- A change of a coach that a call is entitled to, after what it has seen. -/
inductive Alters : Call → Coach → Coach → Prop
  | updateMe {authorization dto row coach} : Admitted S.jwt past authorization row → row.id = coach.id →
      Alters (.updateMe authorization dto) coach (dto.apply coach)
  | changePassword {authorization dto row coach hash} : Admitted S.jwt past authorization row → row.id = coach.id →
      Matched past dto.currentPassword row →
      Alters (.changePassword authorization dto) coach { coach with passwordHash := hash }
  | reset {token newPassword row coach hash revokedAt} : MayReset S.jwt past token row → row.id = coach.id →
      Alters (.resetPassword token newPassword) coach
        { coach with passwordHash := hash, sessionsRevokedAt := some revokedAt }
  | revoke {authorization coach revokedAt} : Administers S.jwt past authorization →
      Alters (.revokeSessions authorization coach.id) coach { coach with sessionsRevokedAt := some revokedAt }
  | setSite {authorization coach frontendUrl} : Administers S.jwt past authorization → OriginFound past frontendUrl →
      Alters (.setFrontendUrl authorization coach.id frontendUrl) coach { coach with frontendUrl := some frontendUrl }

end

variable {S : Services} {G : AccessGuard} {past : Past} {call : Call} {o : Op} {w : World} {c c' : AccessConfig}

theorem Permitted.alters (h : Permitted S past call o) {coach : Coach} {f : Coach → Coach}
    (ho : o.rewrites = some (coach.id, f)) : Alters S past call coach (f coach) := by
  cases h with
  | read hr => rw [reads_rewrites hr] at ho; cases ho
  | reset hr =>
      obtain ⟨hid, rfl⟩ : _ = coach.id ∧ _ = f := by simpa [Op.rewrites] using ho
      exact .reset hr hid
  | updateMe ha =>
      obtain ⟨hid, rfl⟩ : _ = coach.id ∧ _ = f := by simpa [Op.rewrites] using ho
      exact .updateMe ha hid
  | changePassword ha hm =>
      obtain ⟨hid, rfl⟩ : _ = coach.id ∧ _ = f := by simpa [Op.rewrites] using ho
      exact .changePassword ha hid hm
  | revoke ha =>
      obtain ⟨rfl, rfl⟩ : _ = coach.id ∧ _ = f := by simpa [Op.rewrites] using ho
      exact .revoke ha
  | setSite ha hs =>
      obtain ⟨rfl, rfl⟩ : _ = coach.id ∧ _ = f := by simpa [Op.rewrites] using ho
      exact .setSite ha hs
  | _ => cases ho

/-- Every coach stays, and whoever changes the row is entitled to the change. Every coach that is new has accepted an
invite. -/
theorem coaches_alteredBy (h : (accessSystem S).Run G (.start w) c) (hs : (accessSystem S).Step G c c') :
    (∀ coach ∈ c.world.coaches, ∃ coach' ∈ c'.world.coaches, coach'.id = coach.id ∧
      (coach' = coach ∨ ∃ i call, Config.FiredBy i c c' ∧ c.callOf i = some call ∧
        Alters S (c.past i) call coach coach')) ∧
    ∀ coach ∈ c'.world.coaches, c.world.coaches.find coach.id = none →
      ∃ i token password invite, Config.FiredBy i c c' ∧ c.callOf i = some (.acceptInvite token password) ∧
        Verified (c.past i) (Auth.TokenService.verifyCoachInviteToken S.jwt token) invite ∧
        invite.email = some coach.email ∧ invite.name = some coach.name ∧ invite.frontendUrl = coach.frontendUrl ∧
        coach.role = .coach := by
  have hs' := hs
  cases hs' with
  | spawn _ ha =>
      cases ha
      refine ⟨fun coach hc => ⟨coach, hc, rfl, .inl rfl⟩, fun coach hc hn => ?_⟩
      exact absurd rfl (Table.find_none.mp hn coach hc)
  | drift ms =>
      refine ⟨fun coach hc => ⟨coach, hc, rfl, .inl rfl⟩, fun coach hc hn => ?_⟩
      exact absurd rfl (Table.find_none.mp hn coach hc)
  | @fire i call o k ch r w' hi hx _ =>
      have hfired : Config.FiredBy i c ⟨w', c.threads.set i ⟨call, k r⟩, c.log ++ [⟨⟨o, r⟩, i⟩]⟩ := ⟨_, rfl, rfl⟩
      obtain ⟨call, hcall, hp, ha⟩ := access_licensed.step h hs rfl
      refine ⟨fun coach hc => ?_, fun coach hc hn => ?_⟩
      · rcases exec_row hx (Table.find_some.mpr ⟨hc, rfl⟩) with hf | ⟨f, ho, hf⟩
        · exact ⟨coach, Table.find_mem hf, rfl, .inl rfl⟩
        · exact ⟨f coach, Table.find_mem hf, Table.find_key hf, .inr ⟨i, call, hfired, hcall, hp.alters ho⟩⟩
      · obtain ⟨data, he⟩ := exec_new hx (Table.find_some.mpr ⟨hc, rfl⟩) hn
        cases he
        obtain ⟨hemail, hname, hsite, hrole⟩ := toCoach_some ha
        cases hp with
        | read hr => cases hr
        | accept hv => exact ⟨i, _, _, _, hfired, hcall, hv, hemail, hname, hsite, hrole⟩

/-- The sample coach takes another name. -/
theorem coaches_alteredBy_name : ∃ c c', (accessSystem .sample).Run .any (.start .sample) c ∧
    (accessSystem .sample).Step .any c c' ∧ ∃ coach ∈ c.world.coaches, ∃ coach' ∈ c'.world.coaches,
      coach'.name ≠ coach.name ∧ ∃ i call, Config.FiredBy i c c' ∧ c.callOf i = some call ∧
        Alters .sample (c.past i) call coach coach' := by
  obtain ⟨c, h, hp⟩ := run_of_play (S := accessSystem .sample) (G := .any) (c := .start .sample)
    (.spawn (.updateMe (some "Bearer coach") { name := some "Kata" }) :: fires 0 2)
    (fun c => (c.world.coaches.rows.any fun coach => coach.id = "c1" && coach.name = "Coach") &&
      ((accessSystem .sample).next .any c (.fire 0 {})).any fun c' =>
        c'.world.coaches.rows.all fun coach => coach.id = "c1" → coach.name = "Kata") (by decide +kernel)
  simp only [Bool.and_eq_true, List.any_eq_true, decide_eq_true_eq, Option.any_eq_true, List.all_eq_true] at hp
  obtain ⟨⟨coach, hc, hid, hname⟩, c', hc', hall⟩ := hp
  obtain ⟨coach', hm, hid', he | hal⟩ := (coaches_alteredBy h (step_of_next hc')).1 coach hc
  · have := hall coach' hm (hid'.trans hid)
    rw [he, hname] at this
    exact absurd this (by decide)
  · refine ⟨c, c', h, step_of_next hc', coach, hc, coach', hm, ?_, hal⟩
    rw [hall coach' hm (hid'.trans hid), hname]
    decide

/-! ## Admins -/

/-- It invites, corrects or revokes others, or changes the allowed origins. -/
def Op.adminOnly : Op → Bool
  | .origins (.create _) | .origins (.delete _) => true
  | .coaches (.sendInvite _) | .coaches (.updateSite _ _) => true
  | .auth (.sign payload _) => payload.purpose = some Auth.COACH_INVITE_PURPOSE
  | .auth (.coachUpdate _ patch) => patch.passwordHash = none
  | _ => false

theorem reads_adminOnly (h : o.reads = true) : o.adminOnly = false := by
  rcases o with o | o | o
  · cases o <;> first | rfl | cases h
  · cases o <;> first | rfl | cases h
  · cases o <;> first | rfl | cases h

theorem Permitted.administers (h : Permitted S past call o) (ho : o.adminOnly = true) :
    Administers S.jwt past call.header := by
  cases h with
  | read hr => rw [reads_adminOnly hr] at ho; cases ho
  | invite ha _ => exact ha
  | inviteMail ha _ => exact ha
  | revoke ha => exact ha
  | setSite ha _ => exact ha
  | addOrigin ha => exact ha
  | removeOrigin ha => exact ha
  | _ => simp [Op.adminOnly, Auth.AccessTokenPayload.claims, Auth.TokenService.resetClaims,
      Auth.TokenService.connectStateClaims, Auth.COACH_INVITE_PURPOSE, Auth.PASSWORD_RESET_PURPOSE,
      Auth.GOOGLE_CONNECT_STATE_PURPOSE] at ho

/-- In every run nobody becomes an admin, and what admins may do is done by requests that were let through as one who
was an admin at the start. -/
theorem only_admins (h : (accessSystem S).Run G (.start w) c) :
    (∀ coach ∈ c.world.coaches, coach.role = .admin →
      ∃ admin ∈ w.coaches, admin.role = .admin ∧ admin.id = coach.id ∧ admin.email = coach.email) ∧
    ∀ l ∈ c.log, l.op.adminOnly = true → ∃ call, c.callOf l.tid = some call ∧
      ∃ admin ∈ w.coaches, admin.role = .admin ∧
        ∃ row, row.id = admin.id ∧ Admitted S.jwt (c.past l.tid) call.header row := by
  have hk := run_known h
  refine ⟨fun coach hc hrole => ?_, fun l hl ho => ?_⟩
  · obtain ⟨admin, hm, hid, hw⟩ := hk.admin (Table.find_some.mpr ⟨hc, rfl⟩) hrole
    exact ⟨admin, hm, (congrArg Prod.snd hw).trans hrole, hid, congrArg Prod.fst hw⟩
  · obtain ⟨call, hcall, hp, _⟩ := access_licensed.log h l hl
    exact ⟨call, hcall, hk.administers (hp.administers ho)⟩

/-- The sample admin invites Eva. -/
theorem only_admins_invite : ∃ c, (accessSystem .sample).Run .any (.start .sample) c ∧
    ∃ l ∈ c.log, l.op.adminOnly = true ∧ ∃ call, c.callOf l.tid = some call ∧
      ∃ admin ∈ World.sample.coaches, admin.role = .admin ∧
        ∃ row, row.id = admin.id ∧ Admitted Services.sample.jwt (c.past l.tid) call.header row := by
  obtain ⟨c, h, hp⟩ := run_of_play (S := accessSystem .sample) (G := .any) (c := .start .sample)
    (.spawn (.invite (some "Bearer admin") ⟨"eva@example.com", "Eva", "https://eva.example.com"⟩) :: fires 0 7)
    (fun c => c.log.any fun l => l.op.adminOnly) (by decide +kernel)
  obtain ⟨l, hl, ho⟩ := List.any_eq_true.mp hp
  exact ⟨c, h, l, hl, ho, (only_admins h).2 l hl ho⟩

end CoachingCalendar.Access
