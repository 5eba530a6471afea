import CoachingCalendar.Dashboard.Service
import CoachingCalendar.Bookings.System
import CoachingCalendar.Lib.Parts

/-!
# The dashboard system

Requests of signed-in coaches running at the same time, with the clock and the rest of the program around
them.
-/

namespace CoachingCalendar.Dashboard
open Lib Lib.System

structure Call where
  coach : Coach
  request : Request

/-- What happens besides the requests: time passes, or the rest of the program changes its tables. -/
inductive Drift where
  | tick (ms : Nat)
  | edit (tables : Db)

def Drift.apply : Drift → World → World
  | .tick ms, w => { w with clock := w.clock + ms }
  | .edit tables, w => w.write { tables with
      weeklyAvailabilities := w.db.weeklyAvailabilities, overrides := w.db.overrides }

/-- The pipe lets valid bodies through. -/
def dashboardSystem (P : Platform) (toDateOnly : String → Option Int) :
    System Ans Failure Response World Choice Call Drift where
  exec := exec
  body call := call.request.body P toDateOnly call.coach
  accept call w := if call.request.valid then some w else none
  drift := Drift.apply

abbrev DashboardConfig := Config Ans Failure Response World Call
abbrev DashboardMove := Move Choice Call Drift

/-- Call `i` issues its next `n` operations, and they go well. -/
def fires (i n : Nat) (ch : Choice := {}) : List DashboardMove := List.replicate n (.fire i ch)

end CoachingCalendar.Dashboard

/-! ## Usable availability -/

namespace CoachingCalendar
open Lib

structure UsableRange (startMinute endMinute : Int) : Prop where
  nonneg : 0 ≤ startMinute
  lt : startMinute < endMinute
  le : endMinute ≤ 1440

structure WeeklyAvailability.Usable (r : WeeklyAvailability) : Prop where
  weekday : 1 ≤ r.weekday ∧ r.weekday ≤ 7
  range : UsableRange r.startMinute r.endMinute

/-- A day off without minutes, or the minutes of a range. -/
inductive AvailabilityOverride.Usable (o : AvailabilityOverride) : Prop where
  | off : o.isUnavailable = true → o.startMinute = none → o.endMinute = none → Usable o
  | range {startMinute endMinute : Int} : o.isUnavailable = false → o.startMinute = some startMinute →
      o.endMinute = some endMinute → UsableRange startMinute endMinute → Usable o

structure Db.Usable (d : Db) : Prop where
  weekly : ∀ r ∈ d.weeklyAvailabilities, r.Usable
  override : ∀ o ∈ d.overrides, o.Usable

/-- The minutes of the ranges are minutes of overrides, not of a null. -/
def NoNullMinute (overrides : List AvailabilityOverride) : Prop :=
  ∀ range ∈ overrideRanges overrides, ∃ o ∈ overrides,
    o.startMinute = some range.startMinute ∧ o.endMinute = some range.endMinute

/-! ## Owners -/

/-- The two databases have the same rows of the owners in question. -/
structure Db.AgreeOn (owned : String → Bool) (d d' : Db) : Prop where
  coaches : Table.SamePart (fun r => owned r.id) d.coaches d'.coaches
  eventTypes : Table.SamePart (fun r => owned r.coachId) d.eventTypes d'.eventTypes
  weeklyAvailabilities : Table.SamePart (fun r => owned r.coachId) d.weeklyAvailabilities d'.weeklyAvailabilities
  overrides : Table.SamePart (fun r => owned r.coachId) d.overrides d'.overrides
  bookings : Table.SamePart (fun r => owned r.coachId) d.bookings d'.bookings
  settings : Table.SamePart (fun r => owned r.coachId) d.settings d'.settings
  googleIntegrations : Table.SamePart (fun r => owned r.coachId) d.googleIntegrations d'.googleIntegrations

/-- Each booking's coach is the coach of its event type. -/
def Db.BookingsOwned (d : Db) : Prop :=
  ∀ b ∈ d.bookings, ∃ e, d.eventTypes.find b.eventTypeId = some e ∧ e.coachId = b.coachId

/-- No row that a coach can create has the id. -/
structure Db.FreshId (d : Db) (id : String) : Prop where
  eventTypes : d.eventTypes.find id = none
  weeklyAvailabilities : d.weeklyAvailabilities.find id = none
  overrides : d.overrides.find id = none

end CoachingCalendar
