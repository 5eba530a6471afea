import CoachingCalendar.Bookings.Changes
import CoachingCalendar.Notifications.Content

/-!
# Mails in runs

What a mail says of the length of its booking, and where the booking of a mail comes from.
-/

namespace CoachingCalendar
open Lib Lib.System

/-! ## What a mail says -/

/-- The number of minutes that a text names. -/
def Text.minutes : Text → Option Int
  | .translated "email.common.minutes" _ [("count", .num n)] => some n
  | _ => none

def BookingEmailProps.shownMinutes (props : BookingEmailProps) : Option Int :=
  props.details.findSome? fun detail => detail.value.minutes

/-- The text, the attachment and the link of a mail tell of the same number of milliseconds. -/
structure SendEmailInput.StatesLength (email : SendEmailInput) (length : Int) : Prop where
  shown : ∃ n, email.props.shownMinutes = some n ∧ n * msPerMinute = length
  attachment : ∀ file ∈ email.icsContent, ∃ startAt endAt,
    icsInterval file = some (startAt, endAt) ∧ endAt - startAt = length
  link : ∀ button ∈ email.props.secondaryButton, ∃ startAt endAt,
    linkInterval button.url = some (startAt, endAt) ∧ endAt - startAt = length

/-! ## Where its booking comes from -/

/-- The joined row that an operation of a job returned. -/
def joinedRow : Event Ans Failure → Option BookingWithRelations
  | ⟨.bookingFindUnique _, .ok b⟩ => b
  | ⟨.bookingUpdate _ _, .ok b⟩ => some b
  | _ => none

/-- The duration of the event type that a booking is joined with. -/
def Db.durationOf (d : Db) (b : Booking) : Int := (d.withRelations b).eventType.durationMinutes

/-- Before the call sends the mail, it gets the joined booking in the step from `c₁` to `c₂`, and the mail is made from
it with the settings. -/
structure MadeFrom {Drift : Type} (S : System Ans Failure (Option BookingWithRelations) World Choice Call Drift)
    (w : World) (c : BookingConfig) (e : BookingEntry) (mail : Mail) (booking : BookingWithRelations)
    (settings : Settings) (c₁ c₂ : BookingConfig) : Prop where
  read : ∃ d₁ d₂ e₁, IssuedAt S .any (.start w) c e d₁ d₂ ∧ IssuedAt S .any (.start w) d₁ e₁ c₁ c₂ ∧
    e₁.tid = e.tid ∧ joinedRow e₁.toEvent = some booking
  mail : mail = mailFor mail.recipient mail.kind booking settings

/-! ## A mail to run examples with -/

def mailIssued : Op → Option Mail
  | .sendEmail mail => some mail
  | _ => none

/-- Call `0` books the sample for an hour, then a job sends its first mail. -/
def mailSample (between : List (Move Choice Call (Change Statement.updatesEventType))) :
    List (Move Choice Call (Change Statement.updatesEventType)) :=
  [.spawn (.create .sample none)] ++ List.replicate 8 (.fire 0 { newId := "b1", newToken := "t1" }) ++ between ++
    [.spawn (.work { data := ⟨"b1", "c1", .confirmed⟩ })] ++ List.replicate 7 (.fire 1 .linked)

/-- A mail with a duration, for a booking of an hour. -/
def showsForAnHour (minutes : Int) (e : BookingEntry) : Bool :=
  (mailIssued e.op).any fun mail =>
    mail.context.durationMinutes = minutes && mail.context.endAt - mail.context.startAt = 3600000

end CoachingCalendar
