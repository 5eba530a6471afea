import CoachingCalendar.Notifications.Content

/-!
# Texts in two languages

`I18nService` and its catalogues. A text of a catalogue is cut at its placeholders. i18next, which finds the text and
fills it, is a parameter. A number under `count` makes it look for plural forms first, which the catalogues do not have.
-/

namespace CoachingCalendar
open Lib

inductive Locale where
  | hu | en
  deriving DecidableEq, Repr

/-- What stands in a text, or `name` in two pairs of braces. -/
inductive Piece where
  | text (s : String)
  | var (name : String)
  deriving DecidableEq, Repr

abbrev Catalogue := List (String × List Piece)

def Catalogue.hu : Catalogue := [
  ("email.common.footer", [.text "Ezt az e-mailt a Betti Coaching foglalási rendszere küldte."]),
  ("email.common.detailsHeading", [.text "Foglalás részletei"]),
  ("email.common.labelEventType", [.text "Esemény"]),
  ("email.common.labelDateTime", [.text "Időpont"]),
  ("email.common.labelDuration", [.text "Hossz"]),
  ("email.common.labelLocation", [.text "Helyszín"]),
  ("email.common.labelPrice", [.text "Ár"]),
  ("email.common.free", [.text "Díjmentes"]),
  ("email.common.labelClient", [.text "Ügyfél"]),
  ("email.common.minutes", [.var "count", .text " perc"]),
  ("email.common.locationInPerson", [.text "Személyes találkozó – ", .var "address"]),
  ("email.common.locationGoogleMeet", [.text "Google Meet – ", .var "link"]),
  ("email.common.locationPhone", [.text "Telefonos hívás – ", .var "phone"]),
  ("email.common.buttonAddToGoogleCalendar", [.text "Hozzáadás a Google Naptárhoz"]),
  ("email.common.linkCancelBooking", [.text "Lemondás"]),
  ("email.common.linkRescheduleBooking", [.text "Időpont módosítása"]),
  ("email.common.calendarUpdateHint",
    [.text "Ha a korábbi időpontot már hozzáadtad a naptáradhoz, kérjük töröld azt, és vedd fel helyette az újat a fenti gombbal."]),
  ("email.bookingConfirmed.client.subject", [.text "Foglalásod visszaigazolva – ", .var "title"]),
  ("email.bookingConfirmed.client.preview", [.text "Visszaigazoltuk az időpontodat: ", .var "title"]),
  ("email.bookingConfirmed.client.heading", [.text "Visszaigazoltuk az időpontodat"]),
  ("email.bookingConfirmed.client.intro",
    [.text "Szia ", .var "name", .text "! Az alábbi időpontot sikeresen lefoglaltad."]),
  ("email.bookingConfirmed.client.manageHint",
    [.text "Ha mégsem tudsz részt venni, lent bármikor lemondhatod vagy új időpontra módosíthatod a foglalást."]),
  ("email.bookingConfirmed.coach.subject", [.text "Új foglalás érkezett – ", .var "title"]),
  ("email.bookingConfirmed.coach.preview", [.var "clientName", .text " lefoglalt egy időpontot nálad"]),
  ("email.bookingConfirmed.coach.heading", [.text "Új időpontod érkezett"]),
  ("email.bookingConfirmed.coach.intro", [.var "clientName", .text " lefoglalt egy időpontot nálad."]),
  ("email.bookingCancelled.client.subject", [.text "Lemondva – ", .var "title"]),
  ("email.bookingCancelled.client.preview", [.text "A foglalásod lemondásra került"]),
  ("email.bookingCancelled.client.heading", [.text "A foglalásod lemondásra került"]),
  ("email.bookingCancelled.client.introByClient", [.text "Megerősítjük, hogy lemondtad az alábbi időpontot."]),
  ("email.bookingCancelled.client.introByCoach",
    [.text "Sajnálattal értesítünk, hogy ", .var "coachName", .text " lemondta az alábbi időpontodat."]),
  ("email.bookingCancelled.client.reasonLabel", [.text "Indoklás"]),
  ("email.bookingCancelled.client.rebookHint", [.text "Új időpontot bármikor foglalhatsz az oldalunkon."]),
  ("email.bookingCancelled.coach.subject", [.text "Lemondva – ", .var "title"]),
  ("email.bookingCancelled.coach.preview", [.text "Egy foglalás lemondásra került"]),
  ("email.bookingCancelled.coach.heading", [.text "Egy foglalás lemondásra került"]),
  ("email.bookingCancelled.coach.introByClient", [.var "clientName", .text " lemondta az alábbi foglalást."]),
  ("email.bookingCancelled.coach.introByCoach", [.text "Lemondtad az alábbi foglalást."]),
  ("email.bookingCancelled.coach.reasonLabel", [.text "Indoklás"]),
  ("email.bookingRescheduled.client.subject", [.text "Új időpont – ", .var "title"]),
  ("email.bookingRescheduled.client.preview", [.text "A foglalásod új időpontra került"]),
  ("email.bookingRescheduled.client.heading", [.text "A foglalásod új időpontra került"]),
  ("email.bookingRescheduled.client.intro", [.text "Az alábbi új időpontra módosítottad a foglalásodat."]),
  ("email.bookingRescheduled.client.manageHint",
    [.text "Ha ez az időpont mégsem jó, lent bármikor módosíthatod vagy lemondhatod."]),
  ("email.bookingRescheduled.coach.subject", [.text "Módosított időpont – ", .var "title"]),
  ("email.bookingRescheduled.coach.preview", [.var "clientName", .text " új időpontra módosította a foglalását"]),
  ("email.bookingRescheduled.coach.heading", [.text "Egy foglalás új időpontra módosult"]),
  ("email.bookingRescheduled.coach.intro", [.var "clientName", .text " új időpontra módosította a foglalását."]),
  ("errors.bookingNoticeWindow",
    [.text "Ez a foglalás már csak legalább ", .var "hours",
      .text " órával az időpont előtt módosítható vagy mondható le."]),
  ("errors.bookingNotFound", [.text "A foglalás nem található."]),
  ("errors.eventTypeNotFound", [.text "A szolgáltatás nem található."]),
  ("errors.locationNotOffered", [.text "Ez a szolgáltatás nem kínálja a kiválasztott helyszínt."]),
  ("errors.invalidStartAt", [.text "Érvénytelen időpont."]),
  ("errors.pastStartAt", [.text "Múltbeli időpont nem foglalható."]),
  ("errors.bookingNotActive", [.text "Ez a foglalás már nem aktív."]),
  ("errors.spanMultipleDays", [.text "A foglalás nem nyúlhat át másik naptári napra."]),
  ("errors.outsideAvailability", [.text "A kiválasztott időpont kívül esik a coach elérhetőségén."]),
  ("errors.slotJustBooked", [.text "A kiválasztott időpontot közben lefoglalták – válassz másik időpontot."]),
  ("errors.invalidDateRange", [.text "Érvénytelen dátumtartomány."]),
  ("errors.rangeTooLong", [.text "A tartomány nem lehet hosszabb ", .var "days", .text " napnál."])]

def Catalogue.en : Catalogue := [
  ("email.common.footer", [.text "This email was sent by the Betti Coaching booking system."]),
  ("email.common.detailsHeading", [.text "Booking details"]),
  ("email.common.labelEventType", [.text "Event"]),
  ("email.common.labelDateTime", [.text "Date & time"]),
  ("email.common.labelDuration", [.text "Duration"]),
  ("email.common.labelLocation", [.text "Location"]),
  ("email.common.labelPrice", [.text "Price"]),
  ("email.common.free", [.text "Free"]),
  ("email.common.labelClient", [.text "Client"]),
  ("email.common.minutes", [.var "count", .text " minutes"]),
  ("email.common.locationInPerson", [.text "In person – ", .var "address"]),
  ("email.common.locationGoogleMeet", [.text "Google Meet – ", .var "link"]),
  ("email.common.locationPhone", [.text "Phone call – ", .var "phone"]),
  ("email.common.buttonAddToGoogleCalendar", [.text "Add to Google Calendar"]),
  ("email.common.linkCancelBooking", [.text "Cancel"]),
  ("email.common.linkRescheduleBooking", [.text "Change time"]),
  ("email.common.calendarUpdateHint",
    [.text "If you already added the previous time to your calendar, please delete it and add the new one using the button above."]),
  ("email.bookingConfirmed.client.subject", [.text "Booking confirmed – ", .var "title"]),
  ("email.bookingConfirmed.client.preview", [.text "Your booking is confirmed: ", .var "title"]),
  ("email.bookingConfirmed.client.heading", [.text "Your booking is confirmed"]),
  ("email.bookingConfirmed.client.intro",
    [.text "Hi ", .var "name", .text "! You've successfully booked the appointment below."]),
  ("email.bookingConfirmed.client.manageHint",
    [.text "If you can no longer make it, you can cancel or reschedule at any time below."]),
  ("email.bookingConfirmed.coach.subject", [.text "New booking – ", .var "title"]),
  ("email.bookingConfirmed.coach.preview", [.var "clientName", .text " booked a session with you"]),
  ("email.bookingConfirmed.coach.heading", [.text "You have a new booking"]),
  ("email.bookingConfirmed.coach.intro", [.var "clientName", .text " booked a session with you."]),
  ("email.bookingCancelled.client.subject", [.text "Cancelled – ", .var "title"]),
  ("email.bookingCancelled.client.preview", [.text "Your booking has been cancelled"]),
  ("email.bookingCancelled.client.heading", [.text "Your booking has been cancelled"]),
  ("email.bookingCancelled.client.introByClient", [.text "This confirms that you cancelled the appointment below."]),
  ("email.bookingCancelled.client.introByCoach",
    [.text "Unfortunately, ", .var "coachName", .text " had to cancel the appointment below."]),
  ("email.bookingCancelled.client.reasonLabel", [.text "Reason"]),
  ("email.bookingCancelled.client.rebookHint", [.text "You can book a new time on our site whenever you're ready."]),
  ("email.bookingCancelled.coach.subject", [.text "Cancelled – ", .var "title"]),
  ("email.bookingCancelled.coach.preview", [.text "A booking has been cancelled"]),
  ("email.bookingCancelled.coach.heading", [.text "A booking has been cancelled"]),
  ("email.bookingCancelled.coach.introByClient", [.var "clientName", .text " cancelled the booking below."]),
  ("email.bookingCancelled.coach.introByCoach", [.text "You cancelled the booking below."]),
  ("email.bookingCancelled.coach.reasonLabel", [.text "Reason"]),
  ("email.bookingRescheduled.client.subject", [.text "New time – ", .var "title"]),
  ("email.bookingRescheduled.client.preview", [.text "Your booking moved to a new time"]),
  ("email.bookingRescheduled.client.heading", [.text "Your booking moved to a new time"]),
  ("email.bookingRescheduled.client.intro", [.text "You rescheduled your booking to the new time below."]),
  ("email.bookingRescheduled.client.manageHint",
    [.text "If this time doesn't work either, you can change or cancel it below."]),
  ("email.bookingRescheduled.coach.subject", [.text "Rescheduled – ", .var "title"]),
  ("email.bookingRescheduled.coach.preview", [.var "clientName", .text " rescheduled their booking"]),
  ("email.bookingRescheduled.coach.heading", [.text "A booking was rescheduled"]),
  ("email.bookingRescheduled.coach.intro", [.var "clientName", .text " rescheduled their booking."]),
  ("errors.bookingNoticeWindow",
    [.text "This booking can only be changed or cancelled at least ", .var "hours",
      .text " hours before the appointment."]),
  ("errors.bookingNotFound", [.text "Booking not found."]),
  ("errors.eventTypeNotFound", [.text "Event type not found."]),
  ("errors.locationNotOffered", [.text "This event type does not offer the selected location."]),
  ("errors.invalidStartAt", [.text "Invalid start time."]),
  ("errors.pastStartAt", [.text "Cannot book a time in the past."]),
  ("errors.bookingNotActive", [.text "This booking is not active."]),
  ("errors.spanMultipleDays", [.text "Booking may not span multiple calendar days."]),
  ("errors.outsideAvailability", [.text "Selected time is outside the coach's availability."]),
  ("errors.slotJustBooked", [.text "Selected time was just booked – please pick another slot."]),
  ("errors.invalidDateRange", [.text "Invalid date range."]),
  ("errors.rangeTooLong", [.text "Range may not exceed ", .var "days", .text " days."])]

def Locale.code : Locale → String
  | .hu => "hu"
  | .en => "en"

def SUPPORTED_LOCALES : List Locale := [.hu, .en]

def DEFAULT_LOCALE : Locale := .hu

def resources : Locale → Catalogue
  | .hu => .hu
  | .en => .en

def Var.print : Var → String
  | .str s => s
  | .num n => toString n

def Piece.fill (values : String → Var) : Piece → String
  | .text s => s
  | .var name => (values name).print

/-- i18next, set up with the catalogues. -/
structure I18next where
  /-- `getFixedT(lng)(key, vars)`. -/
  getFixedT : Locale → String → List (String × Var) → String

/-- What i18next documents of a key that the language has: the text with each placeholder replaced by the variable of its
name. -/
structure I18next.Fills (I : I18next) : Prop where
  filled : ∀ l key vars pieces values, (resources l).lookup key = some pieces →
    (∀ name, .var name ∈ pieces → vars.lookup name = some (values name)) →
    I.getFixedT l key vars = String.join (pieces.map (Piece.fill values))

namespace I18nService

def resolveLocale (locale : Option String) : Locale :=
  (SUPPORTED_LOCALES.find? fun l => locale = some l.code).getD DEFAULT_LOCALE

def t (I : I18next) (key : String) (locale : Option String) (vars : List (String × Var)) : String :=
  I.getFixedT (resolveLocale locale) key vars

end I18nService

end CoachingCalendar
