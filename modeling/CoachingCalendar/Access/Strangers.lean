import CoachingCalendar.Access.Lemmas.Tokens

/-!
# An account that nobody opens

Nobody logs in as the coach, nobody asks for a reset link to the coach's address, and no token of the coach is around.
Then no request of others, in any order, gets at the account: tokens of the coach are signed only for who has proved to
be the coach, and everything but the site and the revocation of sessions takes such a token.
-/

namespace CoachingCalendar.Access
open Lib Lib.Prog Lib.System

/-- What admins cannot change. -/
def personal (c : Coach) : Coach := { c with sessionsRevokedAt := none, frontendUrl := none }

/-- A login with the password of the coach, or a request for a link to the coach's address. -/
def Call.actsFor (S : Services) (coach : Coach) : Call → Prop
  | .login email password => email = coach.email ∧ S.compare password coach.passwordHash = true
  | .forgotPassword email _ => email = coach.email
  | _ => False

/-- Nobody has got at the account of `coach₀`. -/
structure Untouched (w : World) (coach₀ : Coach) (c : AccessConfig) : Prop where
  row : ∃ coach, c.world.coaches.find coach₀.id = some coach ∧ personal coach = personal coach₀
  read : ∀ l ∈ c.log, ∀ coach, returnedCoach l.toEvent = some coach → coach.id = coach₀.id →
    personal coach = personal coach₀
  created : ∀ l ∈ c.log, ∀ data coach, l.toEvent = ⟨.auth (.coachCreate data), .ok coach⟩ → coach.id ≠ coach₀.id
  tokens : ∀ m ∈ c.world.accounts.minted, m.payload.sub ≠ some coach₀.id
  connection : c.world.connections.find coach₀.id = w.connections.find coach₀.id

variable {S : Services} {w w' : World} {c : AccessConfig} {coach₀ : Coach} {i : Nat} {call : Call} {o : Op}
variable {ch : Choice} {r : Except Failure (Ans o)}

section Step

variable (hu : Untouched w coach₀ c) (h : (accessSystem S).Run (authentic S) (.start w) c)
variable (hcall : c.callOf i = some call) (hp : Permitted S (c.past i) call o)

include hu h hcall in
theorem Untouched.refused {coach : Coach} (ha : Admitted S.jwt (c.past i) call.header coach) : coach.id ≠ coach₀.id := by
  obtain ⟨m, hm, hsub⟩ := admitted_genuine h hcall ha
  exact fun hid => hu.tokens m hm (hid ▸ hsub)

include hu h hcall in
theorem Untouched.unreset {token newPassword : String} (hc : call = .resetPassword token newPassword) {coach : Coach}
    (hr : MayReset S.jwt (c.past i) token coach) : coach.id ≠ coach₀.id := by
  obtain ⟨m, hm, hsub⟩ := reset_genuine h hcall hc hr
  exact fun hid => hu.tokens m hm (hid ▸ hsub)

include hu in
theorem Untouched.found {e : Event Ans Failure} (he : e ∈ c.past i) {coach : Coach} (hc : returnedCoach e = some coach)
    (hid : coach.id = coach₀.id) : personal coach = personal coach₀ := by
  obtain ⟨l, hl, _, rfl⟩ := mem_past.mp he
  exact hu.read l hl coach hc hid

include hu h hcall hp in
theorem Untouched.unsigned (ha : ¬ call.actsFor S coach₀) {payload : Auth.Claims} {expiresIn : Int}
    (ho : o = .auth (.sign payload expiresIn)) : payload.sub ≠ some coach₀.id := by
  intro hsub
  subst ho
  cases hp with
  | read hr => cases hr
  | @login email password coach hf hm =>
      have hid : coach.id = coach₀.id := Option.some.inj hsub
      have hpersonal := hu.found hf rfl hid
      obtain ⟨l, hl, _, he⟩ := mem_past.mp hf
      obtain ⟨_, _, _, hans⟩ := access_licensed.log h l hl
      obtain ⟨l', hl', _, he'⟩ := mem_past.mp hm
      obtain ⟨_, _, _, hans'⟩ := access_licensed.log h l' hl'
      have hemail : email = coach.email := by
        cases l; cases he; exact Option.some.inj hans
      have hmatch : true = S.compare password coach.passwordHash := by
        cases l'; cases he'; exact hans'
      exact ha ⟨hemail.trans (congrArg (·.email) hpersonal),
        (congrArg (·.passwordHash) hpersonal) ▸ hmatch.symm⟩
  | @accepted _ _ data coach hm =>
      obtain ⟨l, hl, _, he⟩ := mem_past.mp hm
      exact hu.created l hl data coach he (Option.some.inj hsub)
  | @forgot email _ coach hf =>
      have hid : coach.id = coach₀.id := Option.some.inj hsub
      have hpersonal := hu.found hf rfl hid
      obtain ⟨l, hl, _, he⟩ := mem_past.mp hf
      obtain ⟨_, _, _, hans⟩ := access_licensed.log h l hl
      have hemail : email = coach.email := by
        cases l; cases he; exact Option.some.inj hans
      exact ha (hemail.trans (congrArg (·.email) hpersonal))
  | resetSession hr hid => exact hu.unreset h hcall rfl hr (hid.symm.trans (Option.some.inj hsub))
  | invite _ _ => cases hsub
  | connectToken had => exact hu.refused h hcall had (Option.some.inj hsub)

include hu h hcall hp in
theorem Untouched.unwritten {f : Coach → Coach} (ho : o.rewrites = some (coach₀.id, f)) (coach : Coach) :
    personal (f coach) = personal coach := by
  cases hp with
  | read hr => rw [reads_rewrites hr] at ho; cases ho
  | reset hr =>
      obtain ⟨hid, _⟩ : _ = coach₀.id ∧ _ = f := by simpa [Op.rewrites] using ho
      exact absurd hid (hu.unreset h hcall rfl hr)
  | updateMe ha =>
      obtain ⟨hid, _⟩ : _ = coach₀.id ∧ _ = f := by simpa [Op.rewrites] using ho
      exact absurd hid (hu.refused h hcall ha)
  | changePassword ha _ =>
      obtain ⟨hid, _⟩ : _ = coach₀.id ∧ _ = f := by simpa [Op.rewrites] using ho
      exact absurd hid (hu.refused h hcall ha)
  | revoke _ => cases ho; rfl
  | setSite _ _ => cases ho; rfl
  | _ => cases ho

include hu h hcall hp in
theorem Untouched.fire (ha : ¬ call.actsFor S coach₀) (hx : exec S c.world o ch = (r, w'))
    (ths : List (Thread Ans Failure Reply Call)) : Untouched w coach₀ ⟨w', ths, c.log ++ [⟨⟨o, r⟩, i⟩]⟩ := by
  obtain ⟨coach, hf, hpersonal⟩ := hu.row
  have hrow : ∃ coach', w'.coaches.find coach₀.id = some coach' ∧ personal coach' = personal coach₀ := by
    rcases exec_row hx hf with hf' | ⟨f, ho, hf'⟩
    · exact ⟨coach, hf', hpersonal⟩
    · exact ⟨f coach, hf', (hu.unwritten h hcall hp ho coach).trans hpersonal⟩
  refine ⟨hrow, fun l hl coach' hc hid => ?_, fun l hl data coach' he hid => ?_, fun m hm => ?_, ?_⟩
  · rcases List.mem_append.mp hl with hl | hl
    · exact hu.read l hl coach' hc hid
    · rw [List.mem_singleton.mp hl] at hc
      obtain ⟨coach'', hf'', hpersonal''⟩ := hrow
      have := exec_returned hx hc
      rw [hid] at this
      cases hf''.symm.trans this
      exact hpersonal''
  · rcases List.mem_append.mp hl with hl | hl
    · exact hu.created l hl data coach' he hid
    · obtain rfl := List.mem_singleton.mp hl
      cases he
      rw [← hid, (create_fresh hx).1] at hf
      cases hf
  · rcases exec_minted hx hm with hm | he
    · exact hu.tokens m hm
    · exact hu.unsigned h hcall hp ha (congrArg Event.op he)
  · rcases exec_connection hx coach₀.id with he | ⟨create, update, connectedAt, rfl, _⟩
    · exact he.trans hu.connection
    · cases hp with
      | read hr => cases hr
      | callback hv _ _ =>
          obtain ⟨m, hm, _, hsub, _⟩ := connect_genuine h hcall rfl hv
          exact absurd hsub (hu.tokens m hm)

end Step

theorem run_untouched {coach : Coach} (hc : coach ∈ w.coaches)
    (ht : ∀ m ∈ w.accounts.minted, m.payload.sub ≠ some coach.id)
    (h : (accessSystem S).Run (authentic S) (.start w) c)
    (ha : ∀ i call, c.callOf i = some call → ¬ call.actsFor S coach) : Untouched w coach c := by
  generalize hs : (Config.start w : AccessConfig) = c₀ at h
  induction h with
  | refl =>
      subst hs
      exact ⟨⟨coach, Table.find_some.mpr ⟨hc, rfl⟩, rfl⟩, fun _ hl => absurd hl List.not_mem_nil,
        fun _ hl => absurd hl List.not_mem_nil, ht, rfl⟩
  | @tail c₁ c₂ hrun hstep ih =>
      subst hs
      have hu := ih fun i call hi => ha i call (hstep.callOf hi)
      have hstep' := hstep
      cases hstep' with
      | spawn _ hacc => cases hacc; exact ⟨hu.row, hu.read, hu.created, hu.tokens, hu.connection⟩
      | drift _ => exact ⟨hu.row, hu.read, hu.created, hu.tokens, hu.connection⟩
      | fire _ hx _ =>
          obtain ⟨call, hcall, hp, _⟩ := access_licensed.step hrun hstep rfl
          exact hu.fire hrun hcall hp (ha _ call (hstep.callOf hcall)) hx _

/-- A coach who does not log in, and for whom nobody asks for a reset link, keeps the account whatever others do in any
order: admins correct the site and revoke sessions, everything else stays, the Google account too, and no token of the
coach comes up. -/
theorem stranger_keeps_out {coach : Coach} (hc : coach ∈ w.coaches)
    (ht : ∀ m ∈ w.accounts.minted, m.payload.sub ≠ some coach.id)
    (h : (accessSystem S).Run (authentic S) (.start w) c)
    (ha : ∀ i call, c.callOf i = some call → ¬ call.actsFor S coach) :
    (∃ coach' ∈ c.world.coaches, coach'.id = coach.id ∧ personal coach' = personal coach) ∧
      c.world.connections.find coach.id = w.connections.find coach.id ∧
      ∀ m ∈ c.world.accounts.minted, m.payload.sub ≠ some coach.id := by
  have hu := run_untouched hc ht h ha
  obtain ⟨coach', hf, hp⟩ := hu.row
  exact ⟨⟨coach', Table.find_mem hf, Table.find_key hf, hp⟩, hu.connection, hu.tokens⟩

/-- The admin logs in and revokes the sessions of the sample coach, whose password somebody else does not guess. -/
theorem stranger_keeps_out_guess : ∃ c, (accessSystem .sample).Run (authentic .sample) (.start .sample) c ∧
    (c.world.coaches.find "c1").any (fun coach => coach.sessionsRevokedAt.isSome) = true ∧
    ∃ coach' ∈ c.world.coaches, coach'.id = "c1" ∧ personal coach' = personal Coach.sample := by
  obtain ⟨c, h, hp⟩ := run_of_play (S := accessSystem .sample) (G := authentic .sample) (c := .start .sample)
    ([.spawn (.login "admin@example.com" "root")] ++ fires 0 3 ++
      [.spawn (.revokeSessions (some "Bearer admin") "c1")] ++ fires 1 4 ++
      [.spawn (.login "coach@example.com" "guess")] ++ fires 2 2)
    (fun c => c.threads.map (·.call) = [.login "admin@example.com" "root",
        .revokeSessions (some "Bearer admin") "c1", .login "coach@example.com" "guess"] &&
      (c.world.coaches.find "c1").any fun coach => coach.sessionsRevokedAt.isSome) (by decide +kernel)
  simp only [Bool.and_eq_true, decide_eq_true_eq] at hp
  have hc : Coach.sample ∈ World.sample.coaches := List.mem_cons_of_mem _ List.mem_cons_self
  refine ⟨c, h, hp.2, (stranger_keeps_out hc ?_ h fun i call hi => ?_).1⟩
  · exact fun _ hm => absurd hm List.not_mem_nil
  · have hcall : [Call.login "admin@example.com" "root", .revokeSessions (some "Bearer admin") "c1",
        .login "coach@example.com" "guess"][i]? = some call := by
      rw [← hp.1, List.getElem?_map]
      exact hi
    rcases i with _ | _ | _ | i
    · cases hcall; exact fun ha => absurd ha.1 (by decide)
    · cases hcall; exact id
    · cases hcall; exact fun ha => absurd ha.2 (by decide)
    · cases hcall

end CoachingCalendar.Access
