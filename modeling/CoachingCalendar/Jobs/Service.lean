import CoachingCalendar.Bookings.Service

/-!
# Notification jobs

`NotificationJobsService.process` with the Meet link and the emails it takes care of, and the worker
that runs it.
-/

namespace CoachingCalendar
open Lib
open Lib.Prog (perform attempt)

variable (P : Platform)

/-! ## The Meet link -/

structure MeetEventResult where
  eventId : Nat
  meetLink : String
  deriving DecidableEq, Repr

/-- A string counts as missing when it is empty. -/
def truthy (s : Option String) : Bool := s.any (· ≠ "")

/-- The event id and the Meet link of an answer that has both. -/
def InsertedEvent.result (data : InsertedEvent) : Option MeetEventResult :=
  match data.id, data.hangoutLink <|> data.videoUri with
  | some eventId, some meetLink => if meetLink = "" then none else some { eventId, meetLink }
  | _, _ => none

def createMeetEvent (bookingId coachId : String) (input : CreateMeetEventInput) :
    BookingProg MeetEventResult := do
  let _ ← getAuthenticatedClient P coachId
  let data ← perform (Op.calendarInsert bookingId coachId input)
  match data.result with
  | none => throw (.other "Google Calendar did not return a Meet link")
  | some meet => return meet

def meetEventInput (booking : BookingWithRelations) : CreateMeetEventInput where
  title := booking.eventType.title ++ " — " ++ booking.clientName
  description := booking.clientNote
  startAt := booking.startAt
  endAt := booking.endAt
  attendeeEmails := [booking.clientEmail, booking.coach.email]

def ensureMeetLink (booking : BookingWithRelations) : BookingProg BookingWithRelations :=
  if booking.location ≠ .googleMeet ∨ truthy booking.meetLink then return booking
  else do
    let meet ← createMeetEvent P booking.id booking.coachId (meetEventInput booking)
    perform (Op.bookingUpdate booking.id
      { meetLink := some (some meet.meetLink), googleEventId := some (some meet.eventId) })

/-! ## The emails -/

def buildContext (booking : BookingWithRelations) (settings : Settings) : BookingEmailContext where
  eventTypeTitle := booking.eventType.title
  price := booking.eventType.price
  clientName := booking.clientName
  coachName := booking.coach.name
  startAt := booking.startAt
  endAt := booking.endAt
  durationMinutes := booking.eventType.durationMinutes
  location := booking.location
  businessAddress := settings.businessAddress
  meetLink := booking.meetLink
  clientPhone := booking.clientPhone
  timezone := settings.businessTimezone
  logoUrl := booking.originUrl.getD "" ++ "/email-logo.png"
  brandName := settings.brandName.getD booking.coach.name
  brandTagline := settings.brandTagline
  manageUrl := booking.originUrl.getD "" ++ "/?manage=" ++ booking.manageToken
  cancelledBy := booking.cancelledBy
  cancellationReason := booking.cancellationReason

/-- The mail that `sendTo` hands to the mail service. -/
def mailFor (recipient : Recipient) (kind : NotificationKind) (booking : BookingWithRelations)
    (settings : Settings) : Mail where
  address := match recipient with | .client => booking.clientEmail | .coach => booking.coach.email
  recipient := recipient
  kind := kind
  locale := match recipient with | .client => booking.locale | .coach => booking.coach.preferredLocale
  bookingId := booking.id
  context := buildContext booking settings
  sender := settings.emailFrom

/-- `notifyBookingConfirmed`, `notifyBookingCancelled` and `notifyBookingRescheduled`. `Promise.all`
starts both mails and rejects when one of them does. -/
def notifyBooking (kind : NotificationKind) (booking : BookingWithRelations) : BookingProg Unit := do
  let settings ← SettingsService.get booking.coachId
  let toClient ← attempt (Op.sendEmail (mailFor .client kind booking settings))
  let toCoach ← attempt (Op.sendEmail (mailFor .coach kind booking settings))
  match toClient, toCoach with
  | .ok _, .ok _ => return ()
  | .error e, _ => throw e
  | _, .error e => throw e

/-! ## The job -/

def process (job : Job) : BookingProg Unit := do
  let booking ← perform (Op.bookingFindUnique job.data.bookingId)
  match booking with
  | none => return ()
  | some booking =>
      let typed ← match job.data.kind with
        | .confirmed => ensureMeetLink P booking
        | .rescheduled => ensureMeetLink P booking
        | .cancelled => pure booking
      notifyBooking job.data.kind typed

/-- pg-boss puts a job that fails back into the queue, up to its retry limit. -/
def work (job : Job) : BookingProg Unit :=
  tryCatch (process P job) fun _ => perform (Op.jobRetry job)

end CoachingCalendar
