import CoachingCalendar.Availability.Lemmas
import CoachingCalendar.Bookings.Changes

/-!
# What a booking goes by

The settings and the availability that a call has read when it commits a booking, beside the snapshot of the
transaction.
-/

namespace CoachingCalendar
open Lib Lib.System

/-- The row that a lookup of settings gave. -/
def readSettings : Event Ans Failure → Option Settings
  | ⟨.settingsUpsert _, .ok settings⟩ => some settings
  | _ => none

structure Reading where
  /-- The settings that the call read last. -/
  settings : Option Settings := none
  /-- The answers since its last transaction, newest first. -/
  attempt : List (Event Ans Failure) := []
  /-- The settings by which it has committed a booking. -/
  placed : Option Settings := none

def Reading.next (s : Reading) : Event Ans Failure → Reading
  | ⟨.transaction _, .ok _⟩ => { s with attempt := [], placed := s.settings }
  | ⟨.transaction _, .error _⟩ => { s with attempt := [] }
  | e => { s with settings := (readSettings e).or s.settings, attempt := e :: s.attempt }

/-- What call `i` has read. -/
def BookingConfig.reading (c : BookingConfig) (i : Nat) : Reading := (c.past i).foldl Reading.next {}

/-- A lookup of availability would get the same answer from `d`. -/
def Db.answers (d : Db) : Event Ans Failure → Bool
  | ⟨.overrideFindMany coachId date, .ok overrides⟩ =>
      d.overrides.findMany (fun o => o.coachId = coachId && o.date = date) = overrides
  | ⟨.weeklyFindMany coachId weekday, .ok weekly⟩ =>
      d.weeklyAvailabilities.findMany (fun w => w.coachId = coachId && w.weekday = weekday) = weekly
  | _ => true

/-- In a run that has come to `c`, call `i` is about to commit `tx` on the snapshot `d`. -/
structure CommitsAt (P : Platform) (admits : Statement → Prop) (w : World) (c : BookingConfig) (i : Nat)
    (tx : SlotTransaction) (d : Db) : Prop where
  run : (calendarSystem P admits).Run .any (.start w) c
  thread : ∃ call k, c.threads[i]? = some ⟨call, .op (.transaction tx) k⟩
  commit : ∃ ch b w', exec c.world (.transaction tx) ch = (.ok b, w') ∧ c.world.snapshot ch.snapshot = d

end CoachingCalendar
