import CoachingCalendar.Common.SerializableTransaction
import CoachingCalendar.Slots.Service

/-!
# Bookings

`BookingsService` and what it calls, as programs over the operations. The relations that the booking
statements return are only passed on to the HTTP caller.
-/

namespace CoachingCalendar
open Lib
open Lib.Prog (perform attempt)

variable (P : Platform)

/-! ## Settings, ownership -/

namespace SettingsService

def get (coachId : String) : BookingProg Settings := do
  let coach ← perform (Op.coachFindUnique coachId)
  if coach.isNone then
    throw (.notFound (.text "Coach not found"))
  perform (Op.settingsUpsert coachId)

end SettingsService

/-- Over rows of any table, in a program over any operations. -/
def assertCoachOwnsOrIsAdmin {Op ρ : Type} {Ans : Op → Type} (owner : ρ → String) (coach : Coach) (row : Option ρ)
    (notFoundMessage : Message) : Prog Ans Failure ρ :=
  match row with
  | none => throw (.notFound notFoundMessage)
  | some row =>
      if owner row ≠ coach.id ∧ coach.role ≠ .admin then throw (.notFound notFoundMessage) else return row

/-! ## Google -/

/-- The refresh token is all that tells one client from another. -/
def getAuthenticatedClient (coachId : String) : BookingProg String := do
  let integration ← perform (Op.integrationFindUnique coachId)
  match integration with
  | none => throw (.serviceUnavailable (.text "Google Calendar is not connected yet"))
  | some integration =>
      match P.decrypt integration.refreshTokenEncrypted with
      | none => throw (.other "decrypt")
      | some refreshToken => return refreshToken

def deleteEvent (coachId : String) (eventId : Nat) : BookingProg Unit := do
  let _ ← getAuthenticatedClient P coachId
  tryCatch (perform (Op.calendarDelete coachId eventId)) fun _ => pure ()

/-! ## Checks -/

def assertConfirmed (status : BookingStatus) (locale : String) : BookingProg Unit :=
  if status ≠ .confirmed then throw (.conflict (.translated "errors.bookingNotActive" locale)) else pure ()

def assertWithinNoticeWindow (coachId : String) (startAt : Int) (locale : String) : BookingProg Unit := do
  let settings ← SettingsService.get coachId
  let now ← perform Op.now
  if startAt < now + settings.cancellationNoticeHours * msPerHour then
    throw (.badRequest (.translated "errors.bookingNoticeWindow" locale
      [("hours", settings.cancellationNoticeHours)]))

def assertSameCalendarDay (startAt endAt : Int) (Z : Zone) (locale : String) : BookingProg Unit :=
  if Z.date startAt ≠ Z.date endAt then
    throw (.badRequest (.translated "errors.spanMultipleDays" locale))
  else pure ()

/-- The range that is compared with the schedule: the start read off the local clock, the end as the
time elapsed since the start of the day. -/
def candidate (L : Luxon) (Z : Zone) (startAt endAt : Int) : Candidate where
  startMinute := Z.clock startAt / msPerMinute
  endMillis := endAt - L.startOfDay Z startAt

/-- The part of `assertSlotIsBookable` before the overlap query. It reads through the plain client. -/
def assertWithinSchedule (coachId : String) (startAt endAt : Int) (timezone locale : String) :
    BookingProg Unit := do
  let Z := P.luxon.zone timezone
  let withinSchedule ← isWithinEffectiveRange P coachId (Z.date startAt) timezone
    (candidate P.luxon Z startAt endAt)
  if !withinSchedule then
    throw (.conflict (.translated "errors.outsideAvailability" locale))

/-- A booking transaction: the check against the schedule, then the statements of the transaction. -/
def reserveSlot (tx : SlotTransaction) (timezone : String) : BookingProg BookingWithRelations := do
  assertWithinSchedule P tx.coachId tx.startAt tx.endAt timezone tx.locale
  perform (Op.transaction tx)

/-- `startAt` of a request: a valid time that is not in the past. -/
def parseStartAt (startAt locale : String) : BookingProg Int := do
  match P.luxon.fromISO P.luxon.systemZone startAt with
  | none => throw (.badRequest (.translated "errors.invalidStartAt" locale))
  | some startAt =>
      let now ← perform Op.now
      if startAt < now then
        throw (.badRequest (.translated "errors.pastStartAt" locale))
      return startAt

/-! ## Requests -/

structure CreateBookingDto where
  eventTypeId : String
  startAt : String
  location : LocationType
  clientName : String
  clientEmail : String
  clientPhone : String
  clientNote : Option String := none
  locale : String
  deriving DecidableEq, Repr

namespace BookingsService

def enqueue (booking : BookingWithRelations) (kind : NotificationKind) : BookingProg Unit :=
  perform (Op.jobSend { bookingId := booking.id, coachId := booking.coachId, kind })

def create (dto : CreateBookingDto) (originUrl : Option String) : BookingProg BookingWithRelations := do
  let eventType ← perform (Op.eventTypeFindUnique dto.eventTypeId)
  match eventType with
  | none => throw (.notFound (.translated "errors.eventTypeNotFound" dto.locale))
  | some eventType =>
      if !eventType.isActive then
        throw (.notFound (.translated "errors.eventTypeNotFound" dto.locale))
      if !eventType.locations.contains dto.location then
        throw (.badRequest (.translated "errors.locationNotOffered" dto.locale))
      let settings ← SettingsService.get eventType.coachId
      let timezone := settings.businessTimezone
      let startAt ← parseStartAt P dto.startAt dto.locale
      let endAt := startAt + eventType.durationMinutes * msPerMinute
      assertSameCalendarDay startAt endAt (P.luxon.zone timezone) dto.locale
      let booking ← runSerializable <| reserveSlot P {
        coachId := eventType.coachId, startAt, endAt, excludeBookingId := none, locale := dto.locale
        write := .create {
          eventTypeId := eventType.id, coachId := eventType.coachId, startAt, endAt
          location := dto.location, clientName := dto.clientName, clientEmail := dto.clientEmail
          clientPhone := dto.clientPhone, clientNote := dto.clientNote, locale := dto.locale
          originUrl } } timezone
      enqueue booking .confirmed
      return booking

def findByManageToken (token : String) : BookingProg BookingWithRelations := do
  let booking ← perform (Op.bookingFindByManageToken token)
  match booking with
  | none => throw (.notFound (.translated "errors.bookingNotFound" none))
  | some booking => return booking

def applyCancellation (booking : BookingWithRelations) (cancelledBy : CancelledBy)
    (reason : Option String) : BookingProg BookingWithRelations := do
  if let some eventId := booking.googleEventId then
    deleteEvent P booking.coachId eventId
  perform (Op.bookingUpdate booking.id
    { status := some .cancelled, cancelledBy := some cancelledBy, cancellationReason := reason })

def cancelByClient (token : String) (reason : Option String) : BookingProg BookingWithRelations := do
  let booking ← findByManageToken token
  assertConfirmed booking.status booking.locale
  assertWithinNoticeWindow booking.coachId booking.startAt booking.locale
  let updated ← applyCancellation P booking .client reason
  enqueue updated .cancelled
  return updated

def cancelByCoach (coach : Coach) (bookingId : String) (reason : String) :
    BookingProg BookingWithRelations := do
  let found ← perform (Op.bookingFindUnique bookingId)
  let booking ← assertCoachOwnsOrIsAdmin (·.coachId) coach found
    (.translated "errors.bookingNotFound" coach.preferredLocale)
  assertConfirmed booking.status coach.preferredLocale
  let updated ← applyCancellation P booking .coach (some reason)
  enqueue updated .cancelled
  return updated

/-- The Google part of a reschedule, after the new time is committed. -/
def dropMeetLink (updated : BookingWithRelations) : BookingProg BookingWithRelations :=
  match updated.location, updated.googleEventId with
  | .googleMeet, some eventId => do
      deleteEvent P updated.coachId eventId
      perform (Op.bookingUpdate updated.id { meetLink := some none, googleEventId := some none })
  | _, _ => return updated

def rescheduleByClient (token : String) (newStartAt : String) : BookingProg BookingWithRelations := do
  let booking ← findByManageToken token
  assertConfirmed booking.status booking.locale
  assertWithinNoticeWindow booking.coachId booking.startAt booking.locale
  let settings ← SettingsService.get booking.coachId
  let timezone := settings.businessTimezone
  let startAt ← parseStartAt P newStartAt booking.locale
  -- the stored length, which `diff` and `plus` carry over to the millisecond
  let endAt := startAt + (booking.endAt - booking.startAt)
  assertSameCalendarDay startAt endAt (P.luxon.zone timezone) booking.locale
  let updated ← runSerializable <| reserveSlot P {
    coachId := booking.coachId, startAt, endAt, excludeBookingId := some booking.id
    locale := booking.locale, write := .move booking.id } timezone
  let updated ← dropMeetLink P updated
  enqueue updated .rescheduled
  return updated

end BookingsService

end CoachingCalendar
