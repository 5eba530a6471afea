import CoachingCalendar.Auth.Lemmas.Resets
import CoachingCalendar.Origins.Service

/-! # What holds of a request for a reset -/

namespace CoachingCalendar.Auth
open Lib Lib.Prog

variable {S : Services} {w : World} {coach : Coach} {email : String} {requestOrigin : Option String}
variable {env : List (Entry World Ans Failure) → Choice}

/-! ## Silence -/

/-- An email with an account comes out like one without exactly when the lookup fails, or there is no site to link to,
or the delivery goes well. -/
theorem forgotPassword_silent_iff {coaches : Table Coach.id} {delivery : Option Failure}
    (hnew : ∀ c ∈ w.coaches, c.email ≠ coach.email) (hinsert : w.coaches.insert coach = some coaches)
    (henv : ∀ t, t ≠ [] → (env t).fault = delivery) :
    ((AuthService.forgotPassword coach.email requestOrigin).run (exec S) env { w with coaches } []).result =
        ((AuthService.forgotPassword coach.email requestOrigin).run (exec S) env w []).result ↔
      (env []).fault.isSome ∨ linkBase coach requestOrigin = none ∨ delivery = none := by
  have without : w.coaches.findFirst (fun c => c.email = coach.email) = none :=
    Table.findFirst_none.mpr fun c hc => by simpa using hnew c hc
  have found : coaches.findFirst (fun c => c.email = coach.email) = some coach := by
    unfold Table.findFirst at without ⊢
    rw [(Table.insert_some hinsert).2, List.find?_append, without]
    simp
  rw [forgotPassword_result henv, forgotPassword_result henv, settled_injective, found, without]
  cases (env []).fault <;> cases hb : linkBase coach requestOrigin <;> simp [hb]

/-- The sample world without accounts. -/
def World.noAccounts : World := { World.sample with coaches := .empty }

/-- The mail server is down, and nobody knows where a link would go. -/
theorem forgotPassword_silent_iff_nowhere :
    ((AuthService.forgotPassword "coach@example.com" none).run (exec .sample) (fun _ => { fault := some (.other "smtp") })
        { World.noAccounts with coaches := World.sample.coaches } []).result =
      ((AuthService.forgotPassword "coach@example.com" none).run (exec .sample)
        (fun _ => { fault := some (.other "smtp") }) .noAccounts []).result :=
  (@forgotPassword_silent_iff .sample .noAccounts .sample none (fun _ => { fault := some (.other "smtp") })
    World.sample.coaches (some (.other "smtp")) (fun _ hc => absurd hc Table.not_mem_empty) rfl fun _ _ => rfl).mpr
    (.inr (.inl rfl))

/-- The mail server is down, and the request with an account fails. -/
theorem forgotPassword_tells : ¬ ∀ (S : Services) (w : World) (coach : Coach) (coaches : Table Coach.id)
    (requestOrigin : Option String) (env : List (Entry World Ans Failure) → Choice),
    (∀ c ∈ w.coaches, c.email ≠ coach.email) → w.coaches.insert coach = some coaches →
    ((AuthService.forgotPassword coach.email requestOrigin).run (exec S) env { w with coaches } []).result =
      ((AuthService.forgotPassword coach.email requestOrigin).run (exec S) env w []).result := by
  intro hall
  have h := hall .sample .noAccounts .sample World.sample.coaches (some "https://coach.example.com")
    (fun t => { fault := if t = [] then none else some (.other "smtp") }) (fun _ hc => absurd hc Table.not_mem_empty) rfl
  revert h
  decide

/-! ## Where a reset link goes -/

section Link

variable (newUrl : String → Option Url) (origin referer : Option String)

/-- A reset mail is for a coach with the email, and its link is on the coach's own site, or on that of the caller for
a coach who has none. -/
theorem reset_link_site : Ends (exec S) (AuthController.forgotPassword newUrl email origin referer) w fun _ w' =>
    w'.resets = w.resets ∨ ∃ mail, w'.resets = w.resets ++ [mail] ∧ mail.LeadsTo mail.frontendUrl ∧
      ∃ coach ∈ w.coaches, coach.email = email ∧ mail.address = coach.email ∧
        (coach.frontendUrl = some mail.frontendUrl ∨
          coach.frontendUrl = none ∧ resolveRequestOrigin newUrl origin referer = some mail.frontendUrl) := by
  refine forgotPassword_ends.mono fun _ w' h => h.imp_right ?_
  rintro ⟨coach, hmem, site, hemail, hbase, hmail⟩
  refine ⟨_, hmail, ResetMail.leadsTo_frontendUrl _, coach, hmem, hemail, rfl, ?_⟩
  have hsite := (Option.filter_eq_some_iff.mp hbase).1
  cases hown : coach.frontendUrl with
  | none =>
      rw [hown] at hsite
      exact .inr ⟨rfl, hsite⟩
  | some own =>
      rw [hown] at hsite
      exact .inl hsite

/-- A coach without a site is mailed a link to whatever the caller says, here a site that no row allows. -/
theorem reset_link_elsewhere : ¬ ∀ (S : Services) (w : World) (newUrl : String → Option Url)
    (allowed : Origins.OriginTable) (email : String) (origin referer : Option String)
    (env : List (Entry World Ans Failure) → Choice),
    ∀ mail ∈ ((AuthController.forgotPassword newUrl email origin referer).run (exec S) env w []).world.resets,
      mail ∉ w.resets → ∃ coach ∈ w.coaches, mail.address = coach.email ∧
        (coach.frontendUrl = some mail.frontendUrl ∨ mail.frontendUrl ∈ allowed.origins ∨
          isLocalhostOrigin newUrl mail.frontendUrl) := by
  intro hall
  have h := hall .sample .sample (fun url => if url = "https://evil.example" then some ⟨"evil.example", url⟩ else none)
    ⟨.empty, List.nodup_nil⟩ "coach@example.com" (some "https://evil.example") none (fun _ => {})
  revert h
  decide

end Link

end CoachingCalendar.Auth
