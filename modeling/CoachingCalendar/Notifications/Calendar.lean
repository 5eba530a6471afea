import CoachingCalendar.Lib.FormUrlencoded
import CoachingCalendar.Lib.UtcTime

/-!
# Calendar entries

`buildIcsFile` and `buildGoogleCalendarQuickAddUrl`, and what a calendar reads in them. The package `ics` and the
fields that luxon gives are parameters.
-/

namespace CoachingCalendar
open Lib

/-- luxon, for an instant in UTC. -/
structure LuxonUtc where
  /-- `DateTime.fromJSDate(date, { zone: 'utc' })`. -/
  fromJSDate : Int → UtcTime
  toFormat : UtcTime → String → String

variable (U : LuxonUtc)

/-! ## The attachment -/

structure Person where
  name : String
  email : String
  deriving DecidableEq, Repr

structure IcsInput where
  uid : String
  title : String
  description : Option String
  location : String
  startAt : Int
  endAt : Int
  organizer : Person
  attendee : Person
  deriving DecidableEq, Repr

/-- `[year, month, day, hour, minute]`. -/
structure DateArray where
  year : Int
  month : Nat
  day : Nat
  hour : Nat
  minute : Nat
  deriving DecidableEq, Repr

structure Attendee extends Person where
  rsvp : Bool
  deriving DecidableEq, Repr

/-- What `createEvent` is called with. -/
structure EventAttributes where
  uid : String
  title : String
  description : Option String
  location : String
  start : DateArray
  startInputType : String
  startOutputType : String
  «end» : DateArray
  endInputType : String
  endOutputType : String
  organizer : Person
  attendees : List Attendee
  status : String
  deriving DecidableEq, Repr

structure EventReturn where
  error : Option String
  value : Option String
  deriving DecidableEq, Repr

def toUtcArray (date : Int) : DateArray :=
  let dt := U.fromJSDate date
  ⟨dt.year, dt.month, dt.day, dt.hour, dt.minute⟩

def IcsInput.attributes (input : IcsInput) : EventAttributes where
  uid := input.uid
  title := input.title
  description := input.description
  location := input.location
  start := toUtcArray U input.startAt
  startInputType := "utc"
  startOutputType := "utc"
  «end» := toUtcArray U input.endAt
  endInputType := "utc"
  endOutputType := "utc"
  organizer := input.organizer
  attendees := [{ input.attendee with rsvp := false }]
  status := "CONFIRMED"

section

variable (createEvent : EventAttributes → EventReturn)

def buildIcsFile (input : IcsInput) : Except String String :=
  let { error, value } := createEvent (input.attributes U)
  match error, value.filter (· ≠ "") with
  | none, some value => .ok value
  | _, _ => .error (error.getD "Failed to build ICS file")

end

/-! ## The link -/

structure QuickAddInput where
  title : String
  description : Option String
  location : String
  startAt : Int
  endAt : Int
  deriving DecidableEq, Repr

def toGoogleUtcStamp (date : Int) : String := U.toFormat (U.fromJSDate date) "yyyyMMdd'T'HHmmss'Z'"

def buildGoogleCalendarQuickAddUrl (input : QuickAddInput) : String :=
  let params := FormUrlencoded.serialize [
    ("action", "TEMPLATE"),
    ("text", input.title),
    ("dates", toGoogleUtcStamp U input.startAt ++ "/" ++ toGoogleUtcStamp U input.endAt),
    ("details", input.description.getD ""),
    ("location", input.location)]
  "https://calendar.google.com/calendar/render?" ++ String.ofList params

/-! ## What a calendar reads -/

/-- The value on a line of a property. -/
def icsLineValue (name : String) (line : List Char) : Option (List Char) :=
  if (name.toList ++ [':']).isPrefixOf line then some ((line.drop (name.length + 1)).filter (· ≠ '\r')) else none

def icsProperty (name file : String) : Option (List Char) :=
  (file.toList.splitOn '\n').findSome? (icsLineValue name)

def icsTime (name file : String) : Option Int := do return (← UtcTime.readStamp (← icsProperty name file)).instant

/-- The interval in an attachment. -/
def icsInterval (file : String) : Option (Int × Int) := do return (← icsTime "DTSTART" file, ← icsTime "DTEND" file)

/-- A parameter of the query of a URL. -/
def queryParam (name url : String) : Option String :=
  (FormUrlencoded.parse ((url.toList.dropWhile (· ≠ '?')).drop 1)).lookup name

/-- The interval in a link. -/
def linkInterval (url : String) : Option (Int × Int) := do
  match (← queryParam "dates" url).toList.splitOn '/' with
  | [startAt, endAt] => return ((← UtcTime.readStamp startAt).instant, (← UtcTime.readStamp endAt).instant)
  | _ => none

/-! ## What the packages are relied on for -/

/-- luxon gives the fields of the instant, and prints them as the format asks. -/
structure LuxonUtc.Reads (U : LuxonUtc) : Prop where
  valid : ∀ t, (U.fromJSDate t).Valid
  instant : ∀ t, (U.fromJSDate t).instant = t
  format : ∀ u, u.Valid → U.toFormat u "yyyyMMdd'T'HHmmss'Z'" = String.ofList u.stamp

def DateArray.toUtcTime (a : DateArray) : UtcTime where
  year := a.year
  month := a.month
  day := a.day
  hour := a.hour
  minute := a.minute

/-- A UTC array is printed as its minute with zero seconds. -/
def PrintsMinutes (createEvent : EventAttributes → EventReturn) : Prop :=
  ∀ a file, createEvent a = ⟨none, some file⟩ →
    (a.startInputType = "utc" → a.startOutputType = "utc" → a.start.toUtcTime.Valid →
      icsTime "DTSTART" file = some a.start.toUtcTime.instant) ∧
    (a.endInputType = "utc" → a.endOutputType = "utc" → a.end.toUtcTime.Valid →
      icsTime "DTEND" file = some a.end.toUtcTime.instant)

end CoachingCalendar
