import CoachingCalendar.Lib.Loop
import CoachingCalendar.Store.Operations
import Mathlib.Logic.Function.Basic

/-!
# Availability

`src/availability`: the ranges in which a coach is bookable on a date. The check of a booking reads
them date by date through the plain database client; the slot list reads a whole range of dates.
-/

namespace CoachingCalendar
open Lib
open Lib.Prog (perform attempt)

structure MinuteRange where
  startMinute : Int
  endMinute : Int
  deriving DecidableEq, Repr

def rangesOverlap (a b : MinuteRange) : Bool := a.startMinute < b.endMinute && b.startMinute < a.endMinute

/-- A range to be checked. Its end is a number of minutes that need not be whole, in milliseconds. -/
structure Candidate where
  startMinute : Int
  endMillis : Int
  deriving DecidableEq, Repr

def isoWeekdayOf (L : Luxon) (isoDate : Int) (Z : Zone) : Int := isoWeekday (Z.date (L.fromISODate Z isoDate))

/-- A null minute compares as 0. -/
def AvailabilityOverride.range (o : AvailabilityOverride) : MinuteRange :=
  ⟨o.startMinute.getD 0, o.endMinute.getD 0⟩

def WeeklyAvailability.range (w : WeeklyAvailability) : MinuteRange := ⟨w.startMinute, w.endMinute⟩

def overrideRanges (overrides : List AvailabilityOverride) : List MinuteRange :=
  if overrides.any (·.isUnavailable) then [] else overrides.map (·.range)

variable (P : Platform)

def getEffectiveRangesForDate (coachId : String) (isoDate : Int) (timezone : String) :
    BookingProg (List MinuteRange) := do
  let overrides ← perform (Op.overrideFindMany coachId isoDate)
  if overrides.length > 0 then
    return overrideRanges overrides
  let weekday := isoWeekdayOf P.luxon isoDate (P.luxon.zone timezone)
  let weekly ← perform (Op.weeklyFindMany coachId weekday)
  return weekly.map (·.range)

def MinuteRange.contains (r : MinuteRange) (c : Candidate) : Bool :=
  r.startMinute ≤ c.startMinute && c.endMillis ≤ r.endMinute * msPerMinute

def isWithinEffectiveRange (coachId : String) (isoDate : Int) (timezone : String) (candidate : Candidate) :
    BookingProg Bool := do
  let ranges ← getEffectiveRangesForDate P coachId isoDate timezone
  return ranges.any (·.contains candidate)

/-! ## A range of dates -/

/-- `list.push(x)` under a key of a map of lists. -/
def pushTo {κ α : Type} [DecidableEq κ] (m : κ → Option (List α)) (k : κ) (x : α) : κ → Option (List α) :=
  Function.update m k (some ((m k).getD [] ++ [x]))

def overridesByDate (overrides : List AvailabilityOverride) : Int → Option (List AvailabilityOverride) :=
  overrides.foldl (fun m o => pushTo m o.date o) fun _ => none

def weeklyByWeekday (weekly : List WeeklyAvailability) : Int → Option (List MinuteRange) :=
  weekly.foldl (fun m w => pushTo m w.weekday w.range) fun _ => none

/-- The entry of one date. -/
def dayRanges (overrides : Int → Option (List AvailabilityOverride))
    (weekly : Int → Option (List MinuteRange)) (Z : Zone) (isoDate : Int) : List MinuteRange :=
  match overrides isoDate with
  | some (o :: os) => overrideRanges (o :: os)
  | _ => (weekly (isoWeekdayOf P.luxon isoDate Z)).getD []

/-- The map from dates to ranges. There is none when the loop over the days takes more than `fuel` tests. -/
def getEffectiveRangesForDateRange (fuel : Nat) (db : Db) (coachId : String) (fromIsoDate toIsoDate : Int)
    (Z : Zone) : Option (Int → Option (List MinuteRange)) :=
  let overrides := overridesByDate <| db.overrides.findMany fun o =>
    o.coachId = coachId && fromIsoDate ≤ o.date && o.date ≤ toIsoDate
  let weekly := weeklyByWeekday <| db.weeklyAvailabilities.findMany fun w => w.coachId = coachId
  (visited (fun day => P.luxon.toISODate (Z.date day) ≤ P.luxon.toISODate toIsoDate)
      (P.luxon.plusDay Z) fuel (P.luxon.fromISODate Z fromIsoDate)).map fun days =>
    days.foldl (fun m day => Function.update m (Z.date day)
      (some (dayRanges P overrides weekly Z (Z.date day)))) fun _ => none

end CoachingCalendar
