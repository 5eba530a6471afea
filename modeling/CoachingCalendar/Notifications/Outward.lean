import CoachingCalendar.Bookings.Authority
import CoachingCalendar.Lib.License
import CoachingCalendar.Notifications.System

/-!
# What leaves the program

The calls of the booking system send mails, and put events into calendars and take them out. What of this a call may
do after what it has seen.
-/

namespace CoachingCalendar
open Lib Lib.System

/-- It sends a mail or changes a calendar. -/
def Op.leaves : Op → Bool
  | .sendEmail _ | .calendarInsert _ _ _ | .calendarDelete _ _ => true
  | _ => false

/-- An operation that a call may issue after what it has seen. Jobs tell of their own bookings, and whoever holds a
booking may take its event out. -/
inductive Outgoing (past : List (Event Ans Failure)) : Call → Op → Prop
  | inward {call o} : o.leaves = false → Outgoing past call o
  | mail {job booking settings recipient} : (∃ e ∈ past, joinedRow e = some booking) →
      booking.id = job.data.bookingId → ⟨Op.settingsUpsert booking.coachId, .ok settings⟩ ∈ past →
      Outgoing past (.work job) (.sendEmail (mailFor recipient job.data.kind booking settings))
  | insert {job booking} : (∃ e ∈ past, joinedRow e = some booking) → booking.id = job.data.bookingId →
      job.data.kind.live = true → booking.location = .googleMeet →
      Outgoing past (.work job) (.calendarInsert booking.id booking.coachId (meetEventInput booking))
  | delete {call} {b b' : Booking} {eventId} : (∃ e ∈ past, readRow e = some b) → call.holds b →
      (∃ e ∈ past, returnedRow e = some b') → b'.id = b.id → b'.googleEventId = some eventId →
      Outgoing past call (.calendarDelete b'.coachId eventId)

def outward : License Ans Failure Call where
  answers := Answered
  permits call past o := Outgoing past call o
  mono := by
    intro call past past' o hsub h
    cases h with
    | inward ho => exact .inward ho
    | mail hb hid hs => exact .mail (hb.imp fun _ h => ⟨hsub h.1, h.2⟩) hid (hsub hs)
    | insert hb hid hlive hl => exact .insert (hb.imp fun _ h => ⟨hsub h.1, h.2⟩) hid hlive hl
    | delete hb hh hb' hid hn =>
        exact .delete (hb.imp fun _ h => ⟨hsub h.1, h.2⟩) hh (hb'.imp fun _ h => ⟨hsub h.1, h.2⟩) hid hn

/-! ## Whom a mail reaches -/

/-- Where the links lead with which a client manages the booking. -/
def SendEmailInput.manageUrls (email : SendEmailInput) : List String :=
  (email.props.manageLinks.getD []).map (·.url)

/-- The page of the site that opens the booking of the token. -/
def managePage (originUrl : Option String) (token action : String) : String :=
  originUrl.getD "" ++ "/?manage=" ++ token ++ "&action=" ++ action ++ "#idopontfoglalas"

variable (U : LuxonUtc) (createEvent : EventAttributes → EventReturn)

/-- What is sent of a booking with settings. -/
def sentMail (recipient : Recipient) (kind : NotificationKind) (booking : BookingWithRelations) (settings : Settings) :
    Except String SendEmailInput :=
  sendTo U createEvent recipient kind booking (buildEmailContext U booking settings) settings.emailFrom

/-- A mail to the client goes to the address that the client gave, and opens the booking as long as there is something
to manage. A mail to the coach would be the same with any other token. -/
def Reaches (dto : CreateBookingDto) (originUrl : Option String) (kind : NotificationKind)
    (booking : BookingWithRelations) (settings : Settings) (email : SendEmailInput) : Recipient → Prop
  | .client => email.address = dto.clientEmail ∧ email.manageUrls =
      if kind = .cancelled then []
      else [managePage originUrl booking.manageToken "cancel", managePage originUrl booking.manageToken "reschedule"]
  | .coach => email.address = booking.coach.email ∧ email.manageUrls = [] ∧
      ∀ manageToken, sentMail U createEvent .coach kind { booking with manageToken } settings = .ok email

variable {Drift : Type} (S : System Ans Failure (Option BookingWithRelations) World Choice Call Drift)
variable (G : BookingGuard) (w : World) (c : BookingConfig)

/-- The mail is of a job, about the job's booking as it was joined on the way, which one request made. It goes out in
the name of the booking's coach, and what opens the booking opens this booking. -/
structure Addressed (e : BookingEntry) (mail : Mail) (job : Job) (booking : BookingWithRelations) (settings : Settings)
    (dto : CreateBookingDto) (originUrl : Option String) : Prop where
  sentBy : c.callOf e.tid = some (.work job)
  about : booking.id = job.data.bookingId
  content : mail = mailFor mail.recipient job.data.kind booking settings
  sender : settings.coachId = booking.coachId
  joined : ∃ c₁, S.Run G (.start w) c₁ ∧ S.Run G c₁ c ∧ booking = c₁.world.db.withRelations booking.toBooking
  made : ∃ i eventType, c.callOf i = some (.create dto originUrl) ∧ CreatedFrom c i eventType booking.id ∧
    Asked dto originUrl eventType booking.toBooking
  opens : (c.world.db.bookings.findFirst fun b => b.manageToken = booking.manageToken).map (·.id) = some booking.id
  reaches : ∀ U createEvent email, sentMail U createEvent mail.recipient mail.kind booking settings = .ok email →
    email.sender = settings.emailFrom ∧
      Reaches U createEvent dto originUrl mail.kind booking settings email mail.recipient

end CoachingCalendar
