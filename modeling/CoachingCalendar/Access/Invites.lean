import CoachingCalendar.Access.Lemmas.Tokens

/-!
# Invites and reset links

An account begins with an invite that an admin sent to its address, and no invite makes two. A link goes to whom it was
signed for.
-/

namespace CoachingCalendar.Access
open Lib Lib.Prog Lib.System

variable {S : Services} {G : AccessGuard} {w : World} {c : AccessConfig} {past : Past} {call : Call}

/-- It created the coach. -/
def creates (coach : Coach) (e : AccessEntry) : Prop := ∃ data, e.toEvent = ⟨.auth (.coachCreate data), .ok coach⟩

/-! ## Who was invited -/

theorem run_created (h : (accessSystem S).Run G (.start w) c) : ∀ id coach, c.world.coaches.find id = some coach →
    w.coaches.find id = none → ∃ l ∈ c.log, ∃ coach', creates coach' l ∧ coach'.email = coach.email := by
  refine accessRun_recorded (I := fun c => ∀ id coach, c.world.coaches.find id = some coach →
    w.coaches.find id = none → ∃ l ∈ c.log, ∃ coach', creates coach' l ∧ coach'.email = coach.email) h ?_
    (fun _ _ _ hI => hI) (fun _ _ hI => hI) ?_
  · intro id coach hf hn
    rw [show (Config.start w : AccessConfig).world = w from rfl, hn] at hf
    cases hf
  · intro c i call o k ch r w' _ hI _ _ hx _ _ id coach hf hn
    cases hold : c.world.coaches.find id with
    | some row =>
        obtain ⟨coach', hf', hw⟩ := exec_who hx hold
        cases hf.symm.trans hf'
        obtain ⟨l, hl, coach₁, hcr, he⟩ := hI id row hold hn
        exact ⟨l, List.mem_append_left _ hl, coach₁, hcr, he.trans (congrArg Prod.fst hw).symm⟩
    | none =>
        obtain ⟨data, he⟩ := exec_new hx hf hold
        exact ⟨_, List.mem_append_right _ (List.mem_singleton.mpr rfl), coach, ⟨data, he⟩, rfl⟩

theorem creates_invite (h : (accessSystem S).Run G (.start w) c) {l : AccessEntry} (hl : l ∈ c.log) {coach : Coach}
    (hcr : creates coach l) : ∃ token password invite, c.callOf l.tid = some (.acceptInvite token password) ∧
      Verified (c.past l.tid) (Auth.TokenService.verifyCoachInviteToken S.jwt token) invite ∧
      invite.email = some coach.email := by
  obtain ⟨data, he⟩ := hcr
  obtain ⟨call, hcall, hp, ha⟩ := access_licensed.log h l hl
  obtain ⟨⟨o, r⟩, i⟩ := l
  cases he
  cases hp with
  | read hr => cases hr
  | accept hv => exact ⟨_, _, _, hcall, hv, (toCoach_some ha).1⟩

theorem Permitted.invites {payload : Auth.Claims} {expiresIn : Int}
    (h : Permitted S past call (.auth (.sign payload expiresIn)))
    (hp : payload.purpose = some Auth.COACH_INVITE_PURPOSE) : ∃ authorization dto, call = .invite authorization dto ∧
      payload = Auth.TokenService.inviteClaims ⟨dto.email, dto.name, dto.frontendUrl⟩ ∧
      expiresIn = Auth.COACH_INVITE_TTL ∧ Administers S.jwt past authorization ∧ OriginFound past dto.frontendUrl := by
  cases h with
  | read hr => cases hr
  | invite ha ho => exact ⟨_, _, rfl, rfl, rfl, ha, ho⟩
  | _ => simp [Auth.AccessTokenPayload.claims, Auth.TokenService.resetClaims, Auth.TokenService.connectStateClaims,
      Auth.COACH_INVITE_PURPOSE, Auth.PASSWORD_RESET_PURPOSE, Auth.GOOGLE_CONNECT_STATE_PURPOSE] at hp

/-- Without forged tokens every account that was not there at the start is for an address that an admin signed an invite
for, to a site that was an allowed origin then. -/
theorem accounts_invited (h : (accessSystem S).Run (authentic S) (.start w) c) {coach : Coach}
    (hc : coach ∈ c.world.coaches) (hn : w.coaches.find coach.id = none) :
    (∃ m ∈ w.accounts.minted, m.payload.purpose = some Auth.COACH_INVITE_PURPOSE ∧
      m.payload.email = some coach.email) ∨
    ∃ i authorization dto token, c.callOf i = some (.invite authorization dto) ∧ dto.email = coach.email ∧
      Signed (c.past i) (Auth.TokenService.inviteClaims ⟨coach.email, dto.name, dto.frontendUrl⟩) Auth.COACH_INVITE_TTL
        token ∧
      OriginFound (c.past i) dto.frontendUrl ∧ ∃ admin ∈ w.coaches, admin.role = .admin ∧
        ∃ row, row.id = admin.id ∧ Admitted S.jwt (c.past i) authorization row := by
  obtain ⟨l, hl, coach', hcr, hemail⟩ := run_created h coach.id coach (Table.find_some.mpr ⟨hc, rfl⟩) hn
  obtain ⟨token, password, invite, hcall, hv, hinvite⟩ := creates_invite h hl hcr
  obtain ⟨m, hm, hpurpose, hm'⟩ := invite_genuine h hcall rfl hv
  rw [hinvite, hemail] at hm'
  rcases run_minted h m hm with hm | ⟨i, hs⟩
  · exact .inl ⟨m, hm, hpurpose, hm'⟩
  · obtain ⟨l', hl', rfl, he⟩ := mem_past.mp hs
    obtain ⟨call, hcall', hp, _⟩ := access_licensed.log h l' hl'
    rw [show l'.op = _ from congrArg Event.op he] at hp
    obtain ⟨authorization, dto, rfl, hdto, hexpires, ha, ho⟩ := hp.invites hpurpose
    have hto : dto.email = coach.email := by
      rw [hdto] at hm'
      exact Option.some.inj hm'
    rw [hdto, hto, hexpires] at hs
    exact .inr ⟨l'.tid, authorization, dto, _, hcall', hto, hs, ho, (run_known h).administers ha⟩

/-- The sample admin invites Eva, and Eva accepts. -/
theorem accounts_invited_eva : ∃ c, (accessSystem .sample).Run (authentic .sample) (.start .sample) c ∧
    ∃ coach ∈ c.world.coaches, World.sample.coaches.find coach.id = none ∧
      ((∃ m ∈ World.sample.accounts.minted, m.payload.purpose = some Auth.COACH_INVITE_PURPOSE ∧
        m.payload.email = some coach.email) ∨
      ∃ i authorization dto token, c.callOf i = some (.invite authorization dto) ∧ dto.email = coach.email ∧
        Signed (c.past i) (Auth.TokenService.inviteClaims ⟨coach.email, dto.name, dto.frontendUrl⟩)
          Auth.COACH_INVITE_TTL token ∧
        OriginFound (c.past i) dto.frontendUrl ∧ ∃ admin ∈ World.sample.coaches, admin.role = .admin ∧
          ∃ row, row.id = admin.id ∧ Admitted Services.sample.jwt (c.past i) authorization row) := by
  obtain ⟨c, h, hp⟩ := run_of_play (S := accessSystem .sample) (G := authentic .sample) (c := .start .sample)
    ([.spawn (.login "admin@example.com" "root")] ++ fires 0 3 ++
      [.spawn (.invite (some "Bearer admin") ⟨"eva@example.com", "Eva", "https://eva.example.com"⟩)] ++ fires 1 7 ++
      [.spawn (.acceptInvite "invite" "secret")] ++ fires 2 5 { newId := "c2" })
    (fun c => c.world.coaches.rows.any fun coach => coach.id = "c2") (by decide +kernel)
  obtain ⟨coach, hc, hid⟩ := List.any_eq_true.mp hp
  have hn : World.sample.coaches.find coach.id = none := by rw [of_decide_eq_true hid]; decide
  exact ⟨c, h, coach, hc, hn, accounts_invited h hc hn⟩

/-! ## One account an invite -/

theorem run_created_apart (h : (accessSystem S).Run G (.start w) c) : ∀ l ∈ c.log, ∀ l' ∈ c.log, ∀ coach coach',
    creates coach l → creates coach' l' → l.tid ≠ l'.tid → coach.id ≠ coach'.id ∧ coach.email ≠ coach'.email := by
  refine accessRun_recorded (I := fun c => ∀ l ∈ c.log, ∀ l' ∈ c.log, ∀ coach coach', creates coach l →
    creates coach' l' → l.tid ≠ l'.tid → coach.id ≠ coach'.id ∧ coach.email ≠ coach'.email) h
    (fun _ hl => absurd hl List.not_mem_nil) (fun _ _ _ hI => hI) (fun _ _ hI => hI) ?_
  intro c i call o k ch r w' hrun hI _ _ hx _ _
  -- what was created before is in the table when another coach is created
  have older : ∀ l ∈ c.log, ∀ coach coach', creates coach l → creates coach' ⟨⟨o, r⟩, i⟩ →
      coach.id ≠ coach'.id ∧ coach.email ≠ coach'.email := by
    rintro l hl coach coach' ⟨data, he⟩ ⟨data', he'⟩
    obtain ⟨row, hf, hw⟩ := (run_known hrun).read l hl coach (by rw [he]; rfl)
    cases he'
    obtain ⟨hn, hapart⟩ := create_fresh hx
    refine ⟨fun hid => ?_, fun hemail => ?_⟩
    · rw [hid, hn] at hf; cases hf
    · exact hapart row (Table.find_mem hf) ((congrArg Prod.fst hw).trans hemail)
  intro l hl l' hl' coach coach' hcr hcr' hne
  rcases List.mem_append.mp hl with hl | hl <;> rcases List.mem_append.mp hl' with hl' | hl'
  · exact hI l hl l' hl' coach coach' hcr hcr' hne
  · obtain rfl := List.mem_singleton.mp hl'
    exact older l hl coach coach' hcr hcr'
  · obtain rfl := List.mem_singleton.mp hl
    obtain ⟨hid, hemail⟩ := older l' hl' coach' coach hcr' hcr
    exact ⟨hid.symm, hemail.symm⟩
  · rw [List.mem_singleton.mp hl, List.mem_singleton.mp hl'] at hne
    exact absurd rfl hne

/-- Two accepted invites, at whatever time and in whatever order, made two accounts with two addresses. A link cannot
have been both. -/
theorem invite_accepted_once (hJ : ∀ token now now' p p', S.jwt.verify token now = some p →
      S.jwt.verify token now' = some p' → p = p') (h : (accessSystem S).Run G (.start w) c) {i j : Nat} (hne : i ≠ j)
    {token token' password password' : String} {s s' : Auth.Session}
    (hi : c.Ended i (.acceptInvite token password) (.ok (.session s)))
    (hj : c.Ended j (.acceptInvite token' password') (.ok (.session s'))) :
    s.coach.id ≠ s'.coach.id ∧ s.coach.email ≠ s'.coach.email ∧ token ≠ token' := by
  obtain ⟨data, hm⟩ := access_licensed.ended h hi
  obtain ⟨data', hm'⟩ := access_licensed.ended h hj
  obtain ⟨l, hl, rfl, he⟩ := mem_past.mp hm
  obtain ⟨l', hl', rfl, he'⟩ := mem_past.mp hm'
  obtain ⟨hid, hemail⟩ := run_created_apart h l hl l' hl' s.coach s'.coach ⟨data, he⟩ ⟨data', he'⟩ hne
  refine ⟨hid, hemail, ?_⟩
  rintro rfl
  obtain ⟨_, _, invite, hc, ⟨now, _, hv⟩, hinvite⟩ := creates_invite h hl ⟨data, he⟩
  obtain ⟨_, _, invite', hc', ⟨now', _, hv'⟩, hinvite'⟩ := creates_invite h hl' ⟨data', he'⟩
  rw [Config.callOf, hi] at hc
  rw [Config.callOf, hj] at hc'
  cases hc
  cases hc'
  obtain ⟨p, hp, _, hpe⟩ := invite_some hv
  obtain ⟨p', hp', _, hpe'⟩ := invite_some hv'
  rw [hJ _ _ _ _ _ hp hp', hpe', hinvite', hinvite] at hpe
  exact hemail (Option.some.inj hpe).symm

/-- Eva and Adam accept their invites. -/
theorem invite_accepted_once_two : ∃ c, (accessSystem .sample).Run .any (.start .sample) c ∧ ∃ s s' : Auth.Session,
    c.Ended 0 (.acceptInvite "invite" "secret") (.ok (.session s)) ∧
    c.Ended 1 (.acceptInvite "second" "secret") (.ok (.session s')) ∧ s.coach.id ≠ s'.coach.id ∧
      s.coach.email ≠ s'.coach.email ∧ "invite" ≠ "second" := by
  obtain ⟨c, h, hp⟩ := run_of_play (S := accessSystem .sample) (G := .any) (c := .start .sample)
    ([.spawn (.acceptInvite "invite" "secret"), .spawn (.acceptInvite "second" "secret")] ++
      fires 0 5 { newId := "c2" } ++ fires 1 5 { newId := "c3" })
    (fun c => ((c.returned 0).any fun x => x.1 = .acceptInvite "invite" "secret" && x.2.isSession) &&
      (c.returned 1).any fun x => x.1 = .acceptInvite "second" "secret" && x.2.isSession) (by decide +kernel)
  simp only [Bool.and_eq_true, Option.any_eq_true, decide_eq_true_eq] at hp
  obtain ⟨⟨⟨_, reply⟩, hr, rfl, hs⟩, ⟨_, reply'⟩, hr', rfl, hs'⟩ := hp
  obtain ⟨s, rfl⟩ := Reply.isSession_eq hs
  obtain ⟨s', rfl⟩ := Reply.isSession_eq hs'
  have hi := Config.ended_of_returned hr
  have hj := Config.ended_of_returned hr'
  refine ⟨c, h, s, s', hi, hj, invite_accepted_once ?_ h (by decide) hi hj⟩
  intro token now now' p p' hv hv'
  exact Option.some.inj ((Option.filter_eq_some_iff.mp hv).1.symm.trans (Option.filter_eq_some_iff.mp hv').1)

/-! ## Where links go -/

theorem run_resets (h : (accessSystem S).Run G (.start w) c) : ∀ mail ∈ c.world.accounts.resets,
    mail ∈ w.accounts.resets ∨ ∃ l ∈ c.log, l.op = .auth (.sendReset mail) := by
  refine accessRun_recorded (I := fun c => ∀ mail ∈ c.world.accounts.resets,
    mail ∈ w.accounts.resets ∨ ∃ l ∈ c.log, l.op = .auth (.sendReset mail)) h (fun _ hm => .inl hm)
    (fun _ _ _ hI => hI) (fun _ _ hI => hI) ?_
  intro c i call o k ch r w' _ hI _ _ hx _ _ mail hm
  rcases exec_resets hx hm with hm | ho
  · exact (hI mail hm).imp id fun ⟨l, hl, hop⟩ => ⟨l, List.mem_append_left _ hl, hop⟩
  · exact .inr ⟨_, List.mem_append_right _ (List.mem_singleton.mpr rfl), ho⟩

theorem run_invites (h : (accessSystem S).Run G (.start w) c) : ∀ mail ∈ c.world.invites,
    mail ∈ w.invites ∨ ∃ l ∈ c.log, l.op = .coaches (.sendInvite mail) := by
  refine accessRun_recorded (I := fun c => ∀ mail ∈ c.world.invites,
    mail ∈ w.invites ∨ ∃ l ∈ c.log, l.op = .coaches (.sendInvite mail)) h (fun _ hm => .inl hm)
    (fun _ _ _ hI => hI) (fun _ _ hI => hI) ?_
  intro c i call o k ch r w' _ hI _ _ hx _ _ mail hm
  rcases exec_invites hx hm with hm | ho
  · exact (hI mail hm).imp id fun ⟨l, hl, hop⟩ => ⟨l, List.mem_append_left _ hl, hop⟩
  · exact .inr ⟨_, List.mem_append_right _ (List.mem_singleton.mpr rfl), ho⟩

theorem signed_between (h : (accessSystem S).Run G (.start w) c) {i : Nat} {payload : Auth.Claims} {expiresIn : Int}
    {token : String} (hs : Signed (c.past i) payload expiresIn token) :
    SignedBetween S w c.world payload expiresIn token := by
  obtain ⟨l, hl, _, he⟩ := mem_past.mp hs
  exact (run_signed h).2 l hl payload expiresIn token he

theorem run_resets_signed (h : (accessSystem S).Run G (.start w) c) : ∀ mail ∈ c.world.accounts.resets,
    mail ∈ w.accounts.resets ∨ ∃ coach ∈ c.world.coaches, coach.email = mail.address ∧
      SignedBetween S w c.world (Auth.TokenService.resetClaims coach.id) Auth.PASSWORD_RESET_TTL mail.token := by
  refine fun mail hm => (run_resets h mail hm).imp id fun ⟨l, hl, hop⟩ => ?_
  obtain ⟨call, _, hp, _⟩ := access_licensed.log h l hl
  rw [hop] at hp
  cases hp with
  | read hr => cases hr
  | @resetMail _ _ coach _ _ hf hs =>
      obtain ⟨l', hl', _, he⟩ := mem_past.mp hf
      obtain ⟨row, hrow, hw⟩ := (run_known h).read l' hl' coach (by rw [he]; rfl)
      refine ⟨row, Table.find_mem hrow, congrArg Prod.fst hw, ?_⟩
      rw [show row.id = coach.id from Table.find_key hrow]
      exact signed_between h hs

theorem run_invites_signed (h : (accessSystem S).Run G (.start w) c) : ∀ mail ∈ c.world.invites,
    mail ∈ w.invites ∨ SignedBetween S w c.world
      (Auth.TokenService.inviteClaims ⟨mail.address, mail.name, mail.frontendUrl⟩) Auth.COACH_INVITE_TTL mail.token := by
  refine fun mail hm => (run_invites h mail hm).imp id fun ⟨l, hl, hop⟩ => ?_
  obtain ⟨call, _, hp, _⟩ := access_licensed.log h l hl
  rw [hop] at hp
  cases hp with
  | read hr => cases hr
  | inviteMail _ hs => exact signed_between h hs

/-- A reset link goes to the address of the coach that it was signed for, and an invite to the address that it is for.
-/
theorem links_addressed (h : (accessSystem S).Run G (.start w) c) :
    (∀ mail ∈ c.world.accounts.resets, mail ∈ w.accounts.resets ∨
      ∃ coach ∈ c.world.coaches, coach.email = mail.address ∧
        ∃ now, mail.token = S.jwt.sign (Auth.TokenService.resetClaims coach.id) Auth.PASSWORD_RESET_TTL now) ∧
    ∀ mail ∈ c.world.invites, mail ∈ w.invites ∨
      ∃ now, mail.token = S.jwt.sign (Auth.TokenService.inviteClaims ⟨mail.address, mail.name, mail.frontendUrl⟩)
        Auth.COACH_INVITE_TTL now := by
  refine ⟨fun mail hm => (run_resets_signed h mail hm).imp id ?_,
    fun mail hm => (run_invites_signed h mail hm).imp id ?_⟩
  · rintro ⟨coach, hcoach, hemail, now, _, _, htoken⟩
    exact ⟨coach, hcoach, hemail, now, htoken⟩
  · rintro ⟨now, _, _, htoken⟩
    exact ⟨now, htoken⟩

/-- The sample admin invites Eva. -/
theorem links_addressed_eva : ∃ c, (accessSystem .sample).Run .any (.start .sample) c ∧ ∃ mail ∈ c.world.invites,
    mail.address = "eva@example.com" ∧ (mail ∈ World.sample.invites ∨
      ∃ now, mail.token = Services.sample.jwt.sign
        (Auth.TokenService.inviteClaims ⟨mail.address, mail.name, mail.frontendUrl⟩) Auth.COACH_INVITE_TTL now) := by
  obtain ⟨c, h, hp⟩ := run_of_play (S := accessSystem .sample) (G := .any) (c := .start .sample)
    (.spawn (.invite (some "Bearer admin") ⟨"eva@example.com", "Eva", "https://eva.example.com"⟩) :: fires 0 7)
    (fun c => c.world.invites.any fun mail => mail.address = "eva@example.com") (by decide +kernel)
  obtain ⟨mail, hm, ha⟩ := List.any_eq_true.mp hp
  exact ⟨c, h, mail, hm, of_decide_eq_true ha, (links_addressed h).2 mail hm⟩

end CoachingCalendar.Access
