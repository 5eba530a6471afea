import CoachingCalendar.Auth.Service
import CoachingCalendar.Lib.Checks

/-! # Reading tokens back -/

namespace CoachingCalendar.Auth
open Lib

variable {J : Jwt} {c : Claims} {now : Int}

theorem verifyPurpose_ok (hJ : J.ReadsBack c) {purpose message : String} {p : Claims} :
    TokenService.verifyPurpose J purpose message (J.encode c) now = .ok p ↔
      c.expired now = false ∧ c.purpose = some purpose ∧ p = c := by
  rw [TokenService.verifyPurpose, hJ.verify]
  cases hx : c.expired now <;> by_cases hp : c.purpose = some purpose <;> simp [hp, eq_comm]

theorem verifyPurpose_error (now : Int) (hJ : J.ReadsBack c) {purpose message : String} (hp : c.purpose ≠ some purpose) :
    ∃ e, TokenService.verifyPurpose J purpose message (J.encode c) now = .error e :=
  refused_iff.mpr fun _ h => hp ((verifyPurpose_ok hJ).mp h).2.1

theorem verifyPasswordResetToken_ok (hJ : J.ReadsBack c) {reset : PasswordResetTokenPayload}
    (h : TokenService.verifyPasswordResetToken J (J.encode c) now = .ok reset) :
    c.iat = some reset.iat ∧ reset.coachId = c.sub := by
  unfold TokenService.verifyPasswordResetToken at h
  cases hv : TokenService.verifyPurpose J PASSWORD_RESET_PURPOSE "Invalid or expired reset link" (J.encode c) now with
  | error e => rw [hv] at h; cases h
  | ok p =>
      obtain ⟨_, _, rfl⟩ := (verifyPurpose_ok hJ).mp hv
      rw [hv, bind_ok] at h
      cases hi : p.iat with
      | none => rw [hi] at h; cases h
      | some iat => rw [hi] at h; cases h; exact ⟨rfl, rfl⟩

theorem extractToken_bearer (token : String) : extractToken (some ("Bearer " ++ token)) = some token := by
  simp [extractToken, String.toList_append]

/-- The guard lets a token through until it expires, for a coach that exists, when the second of the token
does not start before the revocation. -/
theorem canActivate_ok (hJ : J.ReadsBack c) {coaches : Table Coach.id} {coach : Coach} :
    canActivate J now coaches (some ("Bearer " ++ J.encode c)) = .ok coach ↔
      c.expired now = false ∧ (∃ id, c.sub = some id ∧ coaches.find id = some coach) ∧
        ∀ revokedAt iat, coach.sessionsRevokedAt = some revokedAt → c.iat = some iat → revokedAt ≤ iat * 1000 := by
  rw [canActivate, extractToken_bearer]
  simp only [hJ.nonempty, if_false, TokenService.verify, hJ.verify]
  cases hx : c.expired now with
  | true => simp
  | false =>
      cases hs : c.sub with
      | none => simp [hs]
      | some id =>
          cases hf : coaches.find id with
          | none => simp [hs, hf]
          | some d =>
              have hnew : (∀ revokedAt iat, d.sessionsRevokedAt = some revokedAt → c.iat = some iat →
                  revokedAt ≤ iat * 1000) ↔
                  ¬ d.sessionsRevokedAt.any (fun revokedAt => c.iat.any fun iat => iat * 1000 < revokedAt) := by
                cases d.sessionsRevokedAt <;> cases c.iat <;> simp
              simp only [Bool.false_eq_true, if_false, pure_eq_ok, bind_ok, hs, hf, throw_eq_error, unless_error,
                bind_error]
              rw [← hnew]
              simp only [true_and, Option.some.injEq, exists_eq_left', hf]
              constructor
              · rintro ⟨h, rfl⟩
                exact ⟨rfl, h⟩
              · rintro ⟨rfl, h⟩
                exact ⟨h, rfl⟩

end CoachingCalendar.Auth
