import CoachingCalendar.Auth.System

/-! # Conditions on runs -/

namespace CoachingCalendar.Auth
open Lib Lib.System

/-- No stamp goes back, and a stamp is later than the second that a reset gave to a token it signed before. -/
def stampsGoForward : AuthGuard where
  call _ := True
  event c e := ∀ p ∈ revocation e.toEvent, (∀ R ∈ stamp c.world.coaches p.1, R ≤ p.2) ∧
    ∀ m ∈ c.world.accessTokens p.1, ∀ iat ∈ m.payload.iat, m.time < p.2 → iat * 1000 < p.2

/-- The reset link that a call carries. -/
def Call.link : Call → Option String
  | .resetPassword token _ => some token
  | _ => none

/-- It read the row of the coach. -/
def finds (id : String) : AuthEntry → Bool
  | ⟨⟨.coachFindUnique id', .ok _⟩, _⟩ => id' = some id
  | _ => false

/-- A call with the link stamps the coach after the second of the link, and nobody stamps the coach between
its read and its update. The other calls do not take a stamp back. -/
def linkUsedAlone (token coachId : String) (iat : Int) : AuthGuard where
  call _ := True
  event c e := ∀ p ∈ revocation e.toEvent, p.1 = coachId →
    if (c.callOf e.tid).any (·.link = some token) then
      iat * 1000 < p.2 ∧
        ∀ x ∈ since (fun x => x.tid = e.tid && finds coachId x) c.log, revokes coachId x = false
    else ∀ R ∈ stamp c.world.coaches coachId, R ≤ p.2

/-! ## The conditions can be checked -/

variable (c : AuthConfig) (e : AuthEntry)

instance (call : Call) : Decidable (stampsGoForward.call call) := .isTrue trivial

instance : Decidable (stampsGoForward.event c e) :=
  inferInstanceAs (Decidable (∀ p ∈ revocation e.toEvent, (∀ R ∈ stamp c.world.coaches p.1, R ≤ p.2) ∧
    ∀ m ∈ c.world.accessTokens p.1, ∀ iat ∈ m.payload.iat, m.time < p.2 → iat * 1000 < p.2))

variable (token coachId : String) (iat : Int)

instance (call : Call) : Decidable ((linkUsedAlone token coachId iat).call call) := .isTrue trivial

instance : Decidable ((linkUsedAlone token coachId iat).event c e) :=
  inferInstanceAs (Decidable (∀ p ∈ revocation e.toEvent, p.1 = coachId →
    if (c.callOf e.tid).any (·.link = some token) then
      iat * 1000 < p.2 ∧
        ∀ x ∈ since (fun x : AuthEntry => x.tid = e.tid && finds coachId x) c.log, revokes coachId x = false
    else ∀ R ∈ stamp c.world.coaches coachId, R ≤ p.2))

end CoachingCalendar.Auth
