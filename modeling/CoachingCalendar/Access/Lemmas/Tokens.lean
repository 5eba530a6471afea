import CoachingCalendar.Access.Lemmas.Runs

/-! # What a token that was accepted stands for -/

namespace CoachingCalendar.Access
open Lib Lib.Prog Lib.System
open Auth (Jwt Claims)

/-! ## One token -/

section Accepted

variable {J : Jwt} {token : String} {now : Int}

theorem verifyPurpose_some {purpose message : String} {p : Claims}
    (h : Auth.TokenService.verifyPurpose J purpose message token now = .ok p) :
    J.verify token now = some p ∧ p.purpose = some purpose := by
  unfold Auth.TokenService.verifyPurpose at h
  split at h
  · cases h
  · rename_i p' hv
    obtain ⟨hp, rfl⟩ := unless_error.mp h
    exact ⟨hv, not_ne_iff.mp hp⟩

theorem connectState_some {coachId : Option String}
    (h : Auth.TokenService.verifyGoogleConnectState J token now = .ok coachId) : ∃ p, J.verify token now = some p ∧
      p.purpose = some Auth.GOOGLE_CONNECT_STATE_PURPOSE ∧ p.sub = coachId := by
  obtain ⟨p, hp, h⟩ := bind_eq_ok.mp h
  cases h
  exact ⟨p, (verifyPurpose_some hp).1, (verifyPurpose_some hp).2, rfl⟩

theorem invite_some {invite : Auth.CoachInvitePayload}
    (h : Auth.TokenService.verifyCoachInviteToken J token now = .ok invite) : ∃ p, J.verify token now = some p ∧
      p.purpose = some Auth.COACH_INVITE_PURPOSE ∧ p.email = invite.email := by
  obtain ⟨p, hp, h⟩ := bind_eq_ok.mp h
  cases h
  exact ⟨p, (verifyPurpose_some hp).1, (verifyPurpose_some hp).2, rfl⟩

theorem reset_some {reset : Auth.PasswordResetTokenPayload}
    (h : Auth.TokenService.verifyPasswordResetToken J token now = .ok reset) :
    ∃ p, J.verify token now = some p ∧ p.sub = reset.coachId := by
  obtain ⟨p, hp, h⟩ := bind_eq_ok.mp h
  split at h
  · cases h
  · cases h
    exact ⟨p, (verifyPurpose_some hp).1, rfl⟩

theorem canActivate_some {coaches : Table Coach.id} {authorization : Option String} {coach : Coach}
    (h : Auth.canActivate J now coaches authorization = .ok coach) : ∃ token p,
      Auth.extractToken authorization = some token ∧ J.verify token now = some p ∧ p.sub = some coach.id := by
  unfold Auth.canActivate at h
  split at h
  · cases h
  · rename_i token ht
    split at h
    · cases h
    · obtain ⟨p, hp, h⟩ := bind_eq_ok.mp h
      split at h
      · cases h
      · rename_i sub hsub
        split at h
        · cases h
        · rename_i row hf
          obtain ⟨_, rfl⟩ := unless_error.mp h
          refine ⟨token, p, ht, ?_, by rw [hsub, Table.find_key hf]⟩
          unfold Auth.TokenService.verify at hp
          split at hp
          · cases hp
          · rename_i hv
            cases hp; exact hv

end Accepted

/-! ## In a run without forged tokens -/

variable {S : Services} {w : World} {c : AccessConfig} {i : Nat} {call : Call}

theorem token_of_header {token : String} (h : Auth.extractToken call.header = some token) : call.token = some token := by
  cases call <;> first | exact h | cases h

section Genuine

variable (h : (accessSystem S).Run (authentic S) (.start w) c) (hcall : c.callOf i = some call)

include h hcall

theorem genuine {token : String} {p : Claims} {now : Int} (ht : call.token = some token)
    (hnow : ⟨.auth .now, .ok now⟩ ∈ c.past i) (hv : S.jwt.verify token now = some p) :
    ∃ m ∈ c.world.accounts.minted, m.claims = p := by
  obtain ⟨l, hl, rfl, he⟩ := mem_past.mp hnow
  exact run_genuine h l hl now he call token p hcall ht hv

theorem admitted_genuine {coach : Coach} (ha : Admitted S.jwt (c.past i) call.header coach) :
    ∃ m ∈ c.world.accounts.minted, m.payload.sub = some coach.id := by
  obtain ⟨now, hnow, _, hok⟩ := ha
  obtain ⟨token, p, ht, hv, hsub⟩ := canActivate_some hok
  obtain ⟨m, hm, rfl⟩ := genuine h hcall (token_of_header ht) hnow hv
  exact ⟨m, hm, hsub⟩

theorem reset_genuine {token newPassword : String} (hc : call = .resetPassword token newPassword) {coach : Coach}
    (hr : MayReset S.jwt (c.past i) token coach) : ∃ m ∈ c.world.accounts.minted, m.payload.sub = some coach.id := by
  obtain ⟨reset, ⟨now, hnow, hok⟩, hid, _⟩ := hr
  obtain ⟨p, hv, hsub⟩ := reset_some hok
  obtain ⟨m, hm, rfl⟩ := genuine h hcall (hc ▸ rfl) hnow hv
  exact ⟨m, hm, hsub.trans hid⟩

theorem connect_genuine {code : Option String} {state : String} (hc : call = .callback code state)
    {coachId : Option String}
    (hr : Verified (c.past i) (Auth.TokenService.verifyGoogleConnectState S.jwt state) coachId) :
    ∃ m ∈ c.world.accounts.minted, m.payload.purpose = some Auth.GOOGLE_CONNECT_STATE_PURPOSE ∧
      m.payload.sub = coachId ∧ ∃ now : Int, ⟨.auth .now, .ok now⟩ ∈ c.past i ∧
        Auth.TokenService.verifyGoogleConnectState S.jwt state now = .ok coachId ∧
        S.jwt.verify state now = some m.claims := by
  obtain ⟨now, hnow, hok⟩ := hr
  obtain ⟨p, hv, hpurpose, hsub⟩ := connectState_some hok
  obtain ⟨m, hm, rfl⟩ := genuine h hcall (hc ▸ rfl) hnow hv
  exact ⟨m, hm, hpurpose, hsub, now, hnow, hok, hv⟩

theorem invite_genuine {token password : String} (hc : call = .acceptInvite token password)
    {invite : Auth.CoachInvitePayload}
    (hr : Verified (c.past i) (Auth.TokenService.verifyCoachInviteToken S.jwt token) invite) :
    ∃ m ∈ c.world.accounts.minted, m.payload.purpose = some Auth.COACH_INVITE_PURPOSE ∧
      m.payload.email = invite.email := by
  obtain ⟨now, hnow, hok⟩ := hr
  obtain ⟨p, hv, hpurpose, hemail⟩ := invite_some hok
  obtain ⟨m, hm, rfl⟩ := genuine h hcall (hc ▸ rfl) hnow hv
  exact ⟨m, hm, hpurpose, hemail⟩

end Genuine

end CoachingCalendar.Access
