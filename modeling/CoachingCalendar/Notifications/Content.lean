import CoachingCalendar.Jobs.Service
import CoachingCalendar.Notifications.Calendar

/-!
# The content of mails

`EmailContentBuilder`, and `NotificationsService.buildContext` and `sendTo` up to the call of the mail service. A
translated text is its key with its locale and variables. The colours are left out.
-/

namespace CoachingCalendar
open Lib

/-! ## Texts -/

inductive Var where
  | str (s : String)
  | num (n : Int)
  deriving DecidableEq, Repr

inductive Text where
  /-- `i18n.t(key, locale, vars)`. -/
  | translated (key locale : String) (vars : List (String × Var) := [])
  | text (s : String)
  /-- `toLocaleString` of an instant in a zone. -/
  | dateTime (t : Int) (zone locale : String)
  /-- An amount in HUF as `Intl.NumberFormat` writes it. -/
  | amount (intlLocale : String) (priceHuf : Int)
  deriving DecidableEq, Repr

def formatPriceHuf (priceHuf : Option Int) (locale : String) (freeLabel : Text) : Option Text :=
  match priceHuf with
  | none => none
  | some priceHuf =>
      if priceHuf ≤ 0 then some freeLabel
      else some (.amount (if locale.startsWith "hu" then "hu-HU" else "en-US") priceHuf)

structure BookingEmailDetail where
  label : Text
  value : Text
  deriving DecidableEq, Repr

structure BookingEmailLink where
  label : Text
  url : String
  deriving DecidableEq, Repr

structure BookingEmailProps where
  logoUrl : String
  brandName : String
  brandTagline : Option String
  previewText : Text
  heading : Text
  intro : Text
  detailsHeading : Text
  details : List BookingEmailDetail
  note : Option BookingEmailDetail := none
  helperText : Option Text := none
  secondaryButton : Option BookingEmailLink := none
  calendarNote : Option Text := none
  manageLinks : Option (List BookingEmailLink) := none
  footer : Text
  deriving DecidableEq, Repr

structure EmailContent where
  subject : Text
  props : BookingEmailProps
  deriving DecidableEq, Repr

/-! ## The content builder -/

structure EmailContext extends BookingEmailContext where
  googleCalendarUrl : String
  deriving DecidableEq, Repr

namespace EmailContentBuilder

variable (ctx : EmailContext) (recipient : Recipient) (locale : String)

def locationLabel : Text :=
  match ctx.location with
  | .inPerson => .translated "email.common.locationInPerson" locale [("address", .str ctx.businessAddress)]
  | .googleMeet => .translated "email.common.locationGoogleMeet" locale [("link", .str (ctx.meetLink.getD ""))]
  | .phone => .translated "email.common.locationPhone" locale [("phone", .str ctx.clientPhone)]

def buildDetails : List BookingEmailDetail :=
  let t key vars := Text.translated key locale vars
  let priceLabel := formatPriceHuf ctx.price locale (t "email.common.free" [])
  [{ label := t "email.common.labelEventType" [], value := .text ctx.eventTypeTitle },
    { label := t "email.common.labelDateTime" [], value := .dateTime ctx.startAt ctx.timezone locale },
    { label := t "email.common.labelDuration" []
      value := t "email.common.minutes" [("count", .num ctx.durationMinutes)] },
    { label := t "email.common.labelLocation" [], value := locationLabel ctx locale }] ++
  match priceLabel with
  | some priceLabel => [{ label := t "email.common.labelPrice" [], value := priceLabel }]
  | none => []

def buildManageLinks : List BookingEmailLink :=
  [{ label := .translated "email.common.linkCancelBooking" locale
     url := ctx.manageUrl ++ "&action=cancel#idopontfoglalas" },
    { label := .translated "email.common.linkRescheduleBooking" locale
      url := ctx.manageUrl ++ "&action=reschedule#idopontfoglalas" }]

/-- `kind` is `bookingConfirmed` or `bookingRescheduled`. -/
def buildScheduledEmail (kind : String) : EmailContent :=
  let t key vars := Text.translated key locale vars
  let vars := [("title", .str ctx.eventTypeTitle), ("name", .str ctx.clientName), ("clientName", .str ctx.clientName)]
  let calendarButton := { label := t "email.common.buttonAddToGoogleCalendar" [], url := ctx.googleCalendarUrl }
  let calendarNote := if kind = "bookingRescheduled" then some (t "email.common.calendarUpdateHint" []) else none
  match recipient with
  | .client => {
      subject := t ("email." ++ kind ++ ".client.subject") vars
      props := {
        logoUrl := ctx.logoUrl, brandName := ctx.brandName, brandTagline := ctx.brandTagline
        previewText := t ("email." ++ kind ++ ".client.preview") vars
        heading := t ("email." ++ kind ++ ".client.heading") []
        intro := t ("email." ++ kind ++ ".client.intro") vars
        detailsHeading := t "email.common.detailsHeading" []
        details := buildDetails ctx locale
        helperText := some (t ("email." ++ kind ++ ".client.manageHint") [])
        secondaryButton := some calendarButton
        calendarNote
        manageLinks := some (buildManageLinks ctx locale)
        footer := t "email.common.footer" [] } }
  | .coach => {
      subject := t ("email." ++ kind ++ ".coach.subject") vars
      props := {
        logoUrl := ctx.logoUrl, brandName := ctx.brandName, brandTagline := ctx.brandTagline
        previewText := t ("email." ++ kind ++ ".coach.preview") vars
        heading := t ("email." ++ kind ++ ".coach.heading") []
        intro := t ("email." ++ kind ++ ".coach.intro") vars
        detailsHeading := t "email.common.detailsHeading" []
        details := buildDetails ctx locale
        secondaryButton := some calendarButton
        calendarNote
        footer := t "email.common.footer" [] } }

def buildConfirmed : EmailContent := buildScheduledEmail ctx recipient locale "bookingConfirmed"

def buildRescheduled : EmailContent := buildScheduledEmail ctx recipient locale "bookingRescheduled"

def buildCancelled : EmailContent :=
  let t key vars := Text.translated key locale vars
  let byClient := ctx.cancelledBy = some .client
  let note (label : Text) := (ctx.cancellationReason.filter (· ≠ "")).map fun reason =>
    { label := label, value := Text.text reason : BookingEmailDetail }
  match recipient with
  | .client => {
      subject := t "email.bookingCancelled.client.subject" [("title", .str ctx.eventTypeTitle)]
      props := {
        logoUrl := ctx.logoUrl, brandName := ctx.brandName, brandTagline := ctx.brandTagline
        previewText := t "email.bookingCancelled.client.preview" []
        heading := t "email.bookingCancelled.client.heading" []
        intro := t (if byClient then "email.bookingCancelled.client.introByClient"
          else "email.bookingCancelled.client.introByCoach") [("coachName", .str ctx.coachName)]
        detailsHeading := t "email.common.detailsHeading" []
        details := buildDetails ctx locale
        note := note (t "email.bookingCancelled.client.reasonLabel" [])
        helperText := some (t "email.bookingCancelled.client.rebookHint" [])
        footer := t "email.common.footer" [] } }
  | .coach => {
      subject := t "email.bookingCancelled.coach.subject" [("title", .str ctx.eventTypeTitle)]
      props := {
        logoUrl := ctx.logoUrl, brandName := ctx.brandName, brandTagline := ctx.brandTagline
        previewText := t "email.bookingCancelled.coach.preview" []
        heading := t "email.bookingCancelled.coach.heading" []
        intro := t (if byClient then "email.bookingCancelled.coach.introByClient"
          else "email.bookingCancelled.coach.introByCoach") [("clientName", .str ctx.clientName)]
        detailsHeading := t "email.common.detailsHeading" []
        details := buildDetails ctx locale
        note := note (t "email.bookingCancelled.coach.reasonLabel" [])
        footer := t "email.common.footer" [] } }

end EmailContentBuilder

/-! ## The notifications service -/

def resolveLocationText (booking : BookingWithRelations) (businessAddress : String) : String :=
  match booking.location with
  | .googleMeet => booking.meetLink.getD ""
  | .phone => "Telefon"
  | .inPerson => businessAddress

/-- What the calendar link of a booking is built from. -/
def quickAddInput (booking : BookingWithRelations) (businessAddress : String) : QuickAddInput where
  title := booking.eventType.title
  description := booking.clientNote
  location := resolveLocationText booking businessAddress
  startAt := booking.startAt
  endAt := booking.endAt

/-- What the attachment for a booking is built from. -/
def icsInput (booking : BookingWithRelations) (businessAddress : String) : IcsInput where
  uid := booking.id ++ "@betti-coaching-calendar"
  title := booking.eventType.title
  description := booking.clientNote
  location := resolveLocationText booking businessAddress
  startAt := booking.startAt
  endAt := booking.endAt
  organizer := ⟨booking.coach.name, booking.coach.email⟩
  attendee := ⟨booking.clientName, booking.clientEmail⟩

variable (U : LuxonUtc) (createEvent : EventAttributes → EventReturn)

/-- `buildContext` with the link. -/
def buildEmailContext (booking : BookingWithRelations) (settings : Settings) : EmailContext :=
  { buildContext booking settings with
    googleCalendarUrl := buildGoogleCalendarQuickAddUrl U (quickAddInput booking settings.businessAddress) }

/-- What the mail service is called with. -/
structure SendEmailInput where
  address : String
  subject : Text
  props : BookingEmailProps
  icsContent : Option String
  icsFilename : String
  sender : Option String
  deriving DecidableEq, Repr

/-- `sendTo` up to the call of the mail service. It throws when the attachment cannot be built. -/
def sendTo (recipient : Recipient) (kind : NotificationKind) (booking : BookingWithRelations) (ctx : EmailContext)
    (emailFrom : Option String) : Except String SendEmailInput := do
  let locale := match recipient with | .client => booking.locale | .coach => booking.coach.preferredLocale
  let { subject, props } := match kind with
    | .confirmed => EmailContentBuilder.buildConfirmed ctx recipient locale
    | .cancelled => EmailContentBuilder.buildCancelled ctx recipient locale
    | .rescheduled => EmailContentBuilder.buildRescheduled ctx recipient locale
  let address := match recipient with | .client => booking.clientEmail | .coach => booking.coach.email
  let icsContent ← match kind with
    | .cancelled => pure none
    | _ => some <$> buildIcsFile U createEvent (icsInput booking ctx.businessAddress)
  return { address, subject, props, icsContent, icsFilename := "booking.ics", sender := emailFrom }

end CoachingCalendar
