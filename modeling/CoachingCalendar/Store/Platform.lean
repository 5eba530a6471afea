import CoachingCalendar.Lib.WallClock

/-!
# What the program takes from outside

Failures as the services throw them, the date library, and the decryption of stored tokens.
-/

namespace CoachingCalendar
open Lib

/-! ## Failures -/

inductive Message where
  /-- `i18n.t(key, locale, args)`. -/
  | translated (key : String) (locale : Option String) (args : List (String × Int) := [])
  | text (s : String)
  deriving DecidableEq, Repr

inductive Failure where
  /-- An exception of `@nestjs/common` with its status. -/
  | http (status : Nat) (message : Message)
  /-- `PrismaClientKnownRequestError` with its code. -/
  | prisma (code : String)
  /-- Any other rejection: a driver, Google, the mail service. -/
  | other (text : String)
  deriving DecidableEq, Repr

namespace Failure

def badRequest (m : Message) : Failure := .http 400 m
def unauthorized (m : Message) : Failure := .http 401 m
def forbidden (m : Message) : Failure := .http 403 m
def notFound (m : Message) : Failure := .http 404 m
def conflict (m : Message) : Failure := .http 409 m
def serviceUnavailable (m : Message) : Failure := .http 503 m

end Failure

/-! ## luxon -/

/-- The date library. Only what the services use of it. -/
structure Luxon where
  /-- The IANA zone of a name. -/
  zone : String → Zone
  /-- The zone of the server process. -/
  systemZone : Zone
  /-- `DateTime.fromISO(s, { zone })`: the instant, when the string is valid. The zone counts only for
  a string without an offset. -/
  fromISO : Zone → String → Option Int
  /-- `toUTC().toISO()`. -/
  toISO : Int → String
  /-- `toISODate()` of a local date. -/
  toISODate : Int → String
  /-- `DateTime.fromISO(isoDate, { zone })` for a calendar date. -/
  fromISODate : Zone → Int → Int
  /-- `to.diff(from, 'days').days`, rounded up. -/
  diffDays : Zone → Int → Int → Int
  /-- The instant for a local time in milliseconds, from the offset in minutes that is tried first. -/
  resolve : Zone → Int → Int → Int

namespace Luxon

variable (L : Luxon) (Z : Zone)

/-- `startOf('day')`. -/
def startOfDay (t : Int) : Int := L.resolve Z (Z.offset t) (midnight (Z.date t))

/-- `set({ hour, minute, second: 0, millisecond: 0 })` for a minute of the day. -/
def setMinute (t minute : Int) : Int :=
  L.resolve Z (Z.offset t) (midnight (Z.date t) + (minute / 60 * 60 + minute % 60) * msPerMinute)

/-- `plus({ days: 1 })`. -/
def plusDay (t : Int) : Int := L.resolve Z (Z.offset t) (Z.wall t + msPerDay)

end Luxon

structure Platform where
  luxon : Luxon
  /-- `decrypt(payload, encryptionKey)`. There is no result when it throws. -/
  decrypt : String → Option String

/-! ## A platform to run examples on -/

/-- luxon's `fixOffset`: the instant for a local time, from the offset that is tried first. -/
def fixOffset (Z : Zone) (offset localTS : Int) : Int :=
  let guess := localTS - offset * msPerMinute
  let offset₂ := Z.offset guess
  if offset = offset₂ then guess
  else
    let guess₂ := guess - (offset₂ - offset) * msPerMinute
    let offset₃ := Z.offset guess₂
    if offset₂ = offset₃ then guess₂ else localTS - min offset₂ offset₃ * msPerMinute

/-- The date library with one zone, for the times and dates in a list. -/
def Luxon.sample (Z : Zone) (times : List (String × Int)) (dates : List (String × Int)) : Luxon where
  zone _ := Z
  systemZone := ⟨fun _ => 0⟩
  fromISO _ s := (times.lookup s)
  toISO t := ((times.find? (·.2 = t)).map (·.1)).getD ""
  toISODate d := ((dates.find? (·.2 = d)).map (·.1)).getD ""
  fromISODate Z d := fixOffset Z (Z.offset (midnight d)) (midnight d)
  diffDays Z a b := Z.date b - Z.date a
  resolve := fixOffset

/-- One hour ahead of UTC, in March 2026. -/
def Platform.sample : Platform where
  luxon := .sample ⟨fun _ => 60⟩
    [("2026-03-09T09:00:00.000Z", 1773046800000), ("2026-03-09T10:00:00.000Z", 1773050400000),
      ("2026-03-09T11:00:00.000Z", 1773054000000), ("2026-03-09T22:00:00.000Z", 1773093600000),
      ("2026-03-09T23:00:00.000Z", 1773097200000), ("2026-03-10T09:00:00.000Z", 1773133200000),
      ("2026-03-09", 1773010800000)]
    [("2026-03-09", 20521), ("2026-03-10", 20522)]
  decrypt := some

end CoachingCalendar
