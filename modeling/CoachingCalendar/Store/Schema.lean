import CoachingCalendar.Lib.Table

/-!
# The database

The tables of `prisma/schema.prisma`. Instants are milliseconds since 1970-01-01T00:00:00Z, calendar
dates days since 1970-01-01. The columns `createdAt` and `updatedAt` are left out: no code reads them.
-/

namespace CoachingCalendar
open Lib

inductive LocationType where
  | inPerson | googleMeet | phone
  deriving DecidableEq, Repr, Inhabited

inductive BookingStatus where
  | confirmed | cancelled
  deriving DecidableEq, Repr, Inhabited

inductive CancelledBy where
  | client | coach
  deriving DecidableEq, Repr, Inhabited

inductive CoachRole where
  | admin | coach
  deriving DecidableEq, Repr, Inhabited

structure Coach where
  id : String
  email : String
  passwordHash : String
  name : String
  preferredLocale : String := "hu"
  role : CoachRole := .coach
  sessionsRevokedAt : Option Int := none
  frontendUrl : Option String := none
  deriving DecidableEq, Repr, Inhabited

structure EventType where
  id : String
  coachId : String
  title : String
  description : Option String := none
  durationMinutes : Int
  locations : List LocationType
  price : Option Int := none
  position : Int := 0
  isActive : Bool := true
  deriving DecidableEq, Repr, Inhabited

structure WeeklyAvailability where
  id : String
  coachId : String
  /-- 1 for Monday, 7 for Sunday. -/
  weekday : Int
  /-- Minutes since midnight, in the business timezone. -/
  startMinute : Int
  endMinute : Int
  deriving DecidableEq, Repr

structure AvailabilityOverride where
  id : String
  coachId : String
  date : Int
  isUnavailable : Bool := false
  startMinute : Option Int
  endMinute : Option Int
  deriving DecidableEq, Repr

structure Booking where
  id : String
  eventTypeId : String
  coachId : String
  startAt : Int
  endAt : Int
  location : LocationType
  clientName : String
  clientEmail : String
  clientPhone : String
  clientNote : Option String := none
  locale : String := "hu"
  status : BookingStatus := .confirmed
  cancelledBy : Option CancelledBy := none
  cancellationReason : Option String := none
  manageToken : String
  /-- Google numbers its events. The source holds the number as a non-empty string. -/
  googleEventId : Option Nat := none
  meetLink : Option String := none
  originUrl : Option String := none
  deriving DecidableEq, Repr, Inhabited

structure Settings where
  coachId : String
  businessAddress : String := ""
  cancellationNoticeHours : Int := 48
  businessTimezone : String := "Europe/Budapest"
  emailFrom : Option String := none
  brandName : Option String := none
  brandTagline : Option String := none
  deriving DecidableEq, Repr

structure GoogleIntegration where
  coachId : String
  refreshTokenEncrypted : String
  connectedEmail : String
  deriving DecidableEq, Repr

structure Db where
  coaches : Table Coach.id
  eventTypes : Table EventType.id
  weeklyAvailabilities : Table WeeklyAvailability.id
  overrides : Table AvailabilityOverride.id
  bookings : Table Booking.id
  settings : Table Settings.coachId
  googleIntegrations : Table GoogleIntegration.coachId

/-- A booking as `include: { eventType: true, coach: true }` returns it. -/
structure BookingWithRelations extends Booking where
  eventType : EventType
  coach : Coach
  deriving DecidableEq, Repr

/-- The joined row. The foreign keys are `onDelete: Restrict`, so the defaults are out of reach. -/
def Db.withRelations (d : Db) (b : Booking) : BookingWithRelations :=
  { b with
    eventType := (d.eventTypes.find b.eventTypeId).getD default
    coach := (d.coaches.find b.coachId).getD default }

@[simp] theorem Db.withRelations_toBooking (d : Db) (b : Booking) : (d.withRelations b).toBooking = b :=
  rfl

/-! ## A database to run examples on -/

def Coach.sample : Coach where
  id := "c1"
  email := "coach@example.com"
  passwordHash := "hash"
  name := "Coach"

def EventType.sample : EventType where
  id := "e1"
  coachId := "c1"
  title := "Session"
  durationMinutes := 60
  locations := [.googleMeet, .phone]

/-- One coach with one event type, bookable from 09:00 to 17:00 on Mondays and Tuesdays. -/
def Db.sample : Db where
  coaches := ⟨[.sample], by decide⟩
  eventTypes := ⟨[.sample], by decide⟩
  weeklyAvailabilities := ⟨[⟨"w1", "c1", 1, 540, 1020⟩, ⟨"w2", "c1", 2, 540, 1020⟩], by decide⟩
  overrides := .empty
  bookings := .empty
  settings := ⟨[{ coachId := "c1" }], by decide⟩
  googleIntegrations := ⟨[⟨"c1", "token", "coach@example.com"⟩], by decide⟩

end CoachingCalendar
