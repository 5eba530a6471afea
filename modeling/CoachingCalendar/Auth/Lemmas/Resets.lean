import CoachingCalendar.Auth.Mail
import CoachingCalendar.Auth.System

/-! # What a request for a reset does -/

namespace CoachingCalendar.Auth
open Lib Lib.Prog

variable {S : Services} {w : World} {coach : Coach} {email : String} {requestOrigin : Option String}
variable {env : List (Entry World Ans Failure) → Choice}

/-- The site that the link goes to, if there is one. -/
def linkBase (coach : Coach) (requestOrigin : Option String) : Option String :=
  (coach.frontendUrl <|> requestOrigin).filter (· ≠ "")

/-- The mail of a request by `coach` at `time`. -/
def Services.resetMail (S : Services) (coach : Coach) (frontendUrl : String) (time : Int) : ResetMail where
  address := coach.email
  name := coach.name
  frontendUrl := frontendUrl
  token := S.jwt.sign (TokenService.resetClaims coach.id) PASSWORD_RESET_TTL time

/-- What follows the lookup. -/
def afterLookup (coach : Coach) (requestOrigin : Option String) : AuthProg Unit :=
  match linkBase coach requestOrigin with
  | none => .pure ()
  | some frontendUrl =>
      (perform (Op.sign (TokenService.resetClaims coach.id) PASSWORD_RESET_TTL)).bind fun token =>
        perform (Op.sendReset { address := coach.email, name := coach.name, frontendUrl, token })

theorem forgotPassword_eq : AuthService.forgotPassword email requestOrigin =
    (perform (Op.coachFindByEmail (some email))).bind fun coach =>
      match coach with
      | none => .pure ()
      | some coach => afterLookup coach requestOrigin := by
  unfold AuthService.forgotPassword
  refine congrArg (Prog.bind _) (funext fun coach => ?_)
  cases coach with
  | none => rfl
  | some coach =>
      unfold afterLookup linkBase
      dsimp only
      cases coach.frontendUrl <|> requestOrigin with
      | none => rfl
      | some frontendUrl =>
          by_cases h : frontendUrl = ""
          · simp only [h, if_true, Option.filter_some, ne_eq, not_true_eq_false, decide_false, Bool.false_eq_true, if_false]
            rfl
          · simp only [h, if_false, Option.filter_some, ne_eq, not_false_eq_true, decide_true, if_true]
            rfl

theorem afterLookup_ends : Ends (exec S) (afterLookup coach requestOrigin) w fun _ w' => w'.resets = w.resets ∨
    ∃ frontendUrl, linkBase coach requestOrigin = some frontendUrl ∧
      w'.resets = w.resets ++ [S.resetMail coach frontendUrl w.clock] := by
  unfold afterLookup
  cases hb : linkBase coach requestOrigin with
  | none => exact .pure (.inl rfl)
  | some frontendUrl =>
      have sign : Ends (exec S) (perform (Op.sign (TokenService.resetClaims coach.id) PASSWORD_RESET_TTL)) w
          (returns fun token w₁ => token = S.jwt.sign (TokenService.resetClaims coach.id) PASSWORD_RESET_TTL w.clock ∧
            w₁.resets = w.resets) := .perform fun _ => ⟨rfl, rfl⟩
      refine sign.seq fun token w₁ hw => .perform fun ch => ?_
      obtain ⟨rfl, hw⟩ := hw
      cases hf : ch.fault with
      | some e => simp [exec, mayFail, hf, hw]
      | none => simp [exec, mayFail, hf, hw, Services.resetMail]

theorem forgotPassword_ends :
    Ends (exec S) (AuthService.forgotPassword email requestOrigin) w fun _ w' => w'.resets = w.resets ∨
      ∃ coach ∈ w.coaches, ∃ frontendUrl, coach.email = email ∧ linkBase coach requestOrigin = some frontendUrl ∧
        w'.resets = w.resets ++ [S.resetMail coach frontendUrl w.clock] := by
  rw [forgotPassword_eq]
  have lookup : Ends (exec S) (perform (Op.coachFindByEmail (some email))) w fun r w₁ => w₁ = w ∧
      ∀ coach, r = .ok (some coach) → coach ∈ w.coaches ∧ coach.email = email := by
    refine .perform fun ch => ?_
    cases hf : ch.fault with
    | some e => simp [exec, mayFail, hf]
    | none =>
        refine ⟨by simp [exec, mayFail, hf], fun coach hc => ?_⟩
        simp only [exec, mayFail, hf, Except.ok.injEq] at hc
        simpa using Table.findFirst_some hc
  refine lookup.bind (fun found w₁ h => ?_) fun e w₁ h => .inl (by rw [h.1])
  obtain ⟨rfl, hfound⟩ := h
  cases found with
  | none => exact .pure (.inl rfl)
  | some coach =>
      refine afterLookup_ends.mono fun _ w' h => h.imp_right ?_
      rintro ⟨frontendUrl, hb, hr⟩
      exact ⟨coach, (hfound coach rfl).1, frontendUrl, (hfound coach rfl).2, hb, hr⟩

/-! ## Its result -/

/-- The result when something may have failed. -/
def settled : Option Failure → Except Failure Unit
  | some e => .error e
  | none => .ok ()

theorem settled_injective {e e' : Option Failure} : settled e = settled e' ↔ e = e' := by
  cases e <;> cases e' <;> simp [settled]

theorem afterLookup_result {delivery : Option Failure} (henv : ∀ t, t ≠ [] → (env t).fault = delivery)
    (t : List (Entry World Ans Failure)) : ((afterLookup coach requestOrigin).run (exec S) env w t).result =
      settled ((linkBase coach requestOrigin).bind fun _ => delivery) := by
  unfold afterLookup
  cases linkBase coach requestOrigin with
  | none => rfl
  | some frontendUrl =>
      simp only [perform, Prog.bind, run, exec, henv _ (List.append_ne_nil_of_right_ne_nil _ (List.cons_ne_nil _ _)),
        Option.bind_some]
      cases delivery <;> rfl

theorem forgotPassword_result {delivery : Option Failure} (henv : ∀ t, t ≠ [] → (env t).fault = delivery) :
    ((AuthService.forgotPassword email requestOrigin).run (exec S) env w []).result =
      settled ((env []).fault <|> ((w.coaches.findFirst fun c => c.email = email).bind fun coach =>
        linkBase coach requestOrigin).bind fun _ => delivery) := by
  rw [forgotPassword_eq, run_bind]
  simp only [perform, run, exec]
  cases hf : (env []).fault with
  | some e => rfl
  | none =>
      simp only [mayFail, run, List.nil_append]
      cases w.coaches.findFirst fun c => c.email = email with
      | none => rfl
      | some coach => exact afterLookup_result henv _

end CoachingCalendar.Auth
