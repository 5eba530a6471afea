import CoachingCalendar.Availability.Service

/-!
# Slots

`SlotsService.computeSlots` on one state of the database at one time.
-/

namespace CoachingCalendar
open Lib

structure QuerySlotsDto where
  eventTypeId : String
  fromDate : String
  toDate : String
  excludeBookingId : Option String := none
  deriving DecidableEq, Repr

structure Slot where
  coachId : String
  startAt : String
  endAt : String
  deriving DecidableEq, Repr

def MAX_RANGE_DAYS : Int := 90

def msPerHour : Int := 3600000

/-- What `SettingsService.get` returns: the row, or the defaults it creates. -/
def Db.settingsOf (d : Db) (coachId : String) : Option Settings :=
  (d.coaches.find coachId).map fun _ => (d.settings.find coachId).getD { coachId }

/-- The start and end of the slot at `startMinute` of `day`. -/
def slotAt (L : Luxon) (Z : Zone) (durationMinutes day startMinute : Int) : Int × Int :=
  (L.setMinute Z day startMinute, L.setMinute Z day startMinute + durationMinutes * msPerMinute)

/-- The slots of one range of one day. -/
def rangeSlots (L : Luxon) (Z : Zone) (fuel : Nat) (durationMinutes cutoff : Int) (existing : List Booking)
    (day : Int) (range : MinuteRange) : Option (List (Int × Int)) :=
  (visited (fun m => m + durationMinutes ≤ range.endMinute) (· + durationMinutes) fuel
      range.startMinute).map fun starts =>
    (starts.map (slotAt L Z durationMinutes day)).filter fun s =>
      !(s.1 < cutoff) && !existing.any fun b => b.startAt < s.2 && s.1 < b.endAt

/-- Whether the slot list sees the booking in its query from `lo` to `hi`. -/
def QuerySlotsDto.sees (query : QuerySlotsDto) (coachId : String) (lo hi : Int) (b : Booking) : Bool :=
  b.coachId = coachId && b.status = .confirmed && (query.excludeBookingId.all fun id => b.id ≠ id) &&
    lo ≤ b.startAt && b.endAt ≤ hi

variable (P : Platform)

/-- The result is missing when a loop takes more than `fuel` tests. -/
def computeSlots (fuel : Nat) (db : Db) (now : Int) (query : QuerySlotsDto) :
    Option (Except Failure (List Slot)) :=
  match db.eventTypes.find query.eventTypeId with
  | none => some (.error (.notFound (.translated "errors.eventTypeNotFound" none)))
  | some eventType =>
    if !eventType.isActive then
      some (.error (.notFound (.translated "errors.eventTypeNotFound" none)))
    else
    match db.settingsOf eventType.coachId with
    | none => some (.error (.notFound (.text "Coach not found")))
    | some settings =>
      let L := P.luxon
      let Z := L.zone settings.businessTimezone
      match (L.fromISO Z query.fromDate).map (L.startOfDay Z), (L.fromISO Z query.toDate).map (L.startOfDay Z) with
      | some lo, some hi =>
        if hi < lo then
          some (.error (.badRequest (.translated "errors.invalidDateRange" none)))
        else if L.diffDays Z lo hi > MAX_RANGE_DAYS then
          some (.error (.badRequest (.translated "errors.rangeTooLong" none [("days", MAX_RANGE_DAYS)])))
        else do
          let cutoff := now + settings.cancellationNoticeHours * msPerHour
          let existing := db.bookings.findMany (query.sees eventType.coachId lo (L.plusDay Z hi))
          let rangesByDate ← getEffectiveRangesForDateRange P fuel db eventType.coachId (Z.date lo) (Z.date hi) Z
          let days ← visited (fun day => day ≤ hi) (L.plusDay Z) fuel lo
          let slots ← days.mapM fun day =>
            ((rangesByDate (Z.date day)).getD []).mapM fun range =>
              rangeSlots L Z fuel eventType.durationMinutes cutoff existing day range
          return .ok <| slots.flatten.flatten.map fun s => ⟨eventType.coachId, L.toISO s.1, L.toISO s.2⟩
      | _, _ => some (.error (.badRequest (.translated "errors.invalidDateRange" none)))

end CoachingCalendar
