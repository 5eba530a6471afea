import CoachingCalendar.Dashboard.Statements
import CoachingCalendar.Jobs.Service

/-!
# The dashboard

The requests of a signed-in coach: `WeeklyAvailabilityService`, `AvailabilityOverrideService`,
`EventTypesService`, `SettingsService.update` and two requests of `BookingsService`. The global
`ValidationPipe` has let the bodies through and made them DTOs.
-/

namespace CoachingCalendar.Dashboard
open Lib
open Lib.Prog (perform mayFail)

/-! ## Operations -/

inductive Op where
  | booking (o : CoachingCalendar.Op)
  | weeklyFindMany (coachId : String)
  | weeklyFindUnique (id : String)
  | overrideFindMany (coachId : String)
  | overrideFindUnique (id : String)
  | eventTypeFindMany (coachId : String)
  | eventTypeFindOwned (ids : List String) (coachId : String)
  | eventTypeMaxPosition (coachId : String)
  /-- The bookings of a coach, or all of them. -/
  | bookingFindMany (coachId : Option String)
  | write (s : Statement)
  deriving DecidableEq, Repr

@[reducible] def Ans : Op → Type
  | .booking o => CoachingCalendar.Ans o
  | .weeklyFindMany _ => List WeeklyAvailability
  | .weeklyFindUnique _ => Option WeeklyAvailability
  | .overrideFindMany _ => List AvailabilityOverride
  | .overrideFindUnique _ => Option AvailabilityOverride
  | .eventTypeFindMany _ => List EventType
  | .eventTypeFindOwned _ _ => List EventType
  | .eventTypeMaxPosition _ => Option Int
  | .bookingFindMany _ => List BookingWithRelations
  | .write s => s.Ans

abbrev DashboardProg (α : Type) := Prog Ans Failure α

def exec (w : World) : (o : Op) → Choice → Except Failure (Ans o) × World
  | .booking o, ch => CoachingCalendar.exec w o ch
  | .weeklyFindMany coachId, ch => mayFail ch.fault w
      (.ok <| (w.db.weeklyAvailabilities.findMany fun r => r.coachId = coachId).mergeSort fun a b =>
        a.weekday < b.weekday || (a.weekday = b.weekday && a.startMinute ≤ b.startMinute), w)
  | .weeklyFindUnique id, ch => mayFail ch.fault w (.ok (w.db.weeklyAvailabilities.find id), w)
  | .overrideFindMany coachId, ch => mayFail ch.fault w
      (.ok <| (w.db.overrides.findMany fun o => o.coachId = coachId).mergeSort fun a b => a.date ≤ b.date, w)
  | .overrideFindUnique id, ch => mayFail ch.fault w (.ok (w.db.overrides.find id), w)
  | .eventTypeFindMany coachId, ch => mayFail ch.fault w
      (.ok <| (w.db.eventTypes.findMany fun e => e.coachId = coachId).mergeSort fun a b =>
        a.position < b.position || (a.position = b.position && a.title ≤ b.title), w)
  | .eventTypeFindOwned ids coachId, ch => mayFail ch.fault w
      (.ok <| w.db.eventTypes.findMany fun e => ids.contains e.id && e.coachId = coachId, w)
  | .eventTypeMaxPosition coachId, ch => mayFail ch.fault w
      (.ok <| ((w.db.eventTypes.findMany fun e => e.coachId = coachId).map (·.position)).max?, w)
  | .bookingFindMany coachId, ch => mayFail ch.fault w
      (.ok <| ((w.db.bookings.findMany fun b => coachId.all fun id => b.coachId = id).mergeSort fun a b =>
        a.startAt ≤ b.startAt).map w.db.withRelations, w)
  | .write s, ch => mayFail ch.fault w <|
      match w.db.apply ch.newId s with
      | .error e => (.error e, w)
      | .ok (a, d) => (.ok a, w.write d)

/-- A program of the booking side. -/
def ofBooking {α : Type} : BookingProg α → DashboardProg α
  | .pure a => .pure a
  | .throw e => .throw e
  | .op o k => .op (.booking o) fun r => ofBooking (k r)

/-! ## Ownership -/

def resolveCoachScope (coach : Coach) (requestedCoachId : Option String) : DashboardProg String :=
  if coach.role = .admin then return requestedCoachId.getD coach.id
  else if truthy requestedCoachId ∧ requestedCoachId ≠ some coach.id then
    throw (.forbidden (.text "Cannot access another coach's data"))
  else return coach.id

/-! ## Bodies -/

def isIn (min max v : Int) : Bool := min ≤ v && v ≤ max

def isMinute (v : Int) : Bool := isIn 0 (24 * 60) v

structure CreateWeeklyAvailabilityDto where
  weekday : Int
  startMinute : Int
  endMinute : Int
  deriving DecidableEq, Repr

def CreateWeeklyAvailabilityDto.valid (dto : CreateWeeklyAvailabilityDto) : Bool :=
  isIn 1 7 dto.weekday && isMinute dto.startMinute && isMinute dto.endMinute

/-- `PartialType` admits `null` for every field. `none` is a field that is not given or `null`. -/
structure UpdateWeeklyAvailabilityDto where
  weekday : Option Int := none
  startMinute : Option Int := none
  endMinute : Option Int := none
  deriving DecidableEq, Repr

def UpdateWeeklyAvailabilityDto.valid (dto : UpdateWeeklyAvailabilityDto) : Bool :=
  dto.weekday.all (isIn 1 7) && dto.startMinute.all isMinute && dto.endMinute.all isMinute

/-- The initializer gives `isUnavailable` a value when the body does not. It is `none` for `null`. -/
structure CreateAvailabilityOverrideDto where
  date : String
  isUnavailable : Option Bool := some false
  startMinute : Option Int := none
  endMinute : Option Int := none
  deriving DecidableEq, Repr

/-- The minutes are looked at unless `isUnavailable` is true. -/
def CreateAvailabilityOverrideDto.valid (dto : CreateAvailabilityOverrideDto) : Bool :=
  dto.isUnavailable = some true || (dto.startMinute.any isMinute && dto.endMinute.any isMinute)

/-- `PartialType` takes the initializer over. -/
structure UpdateAvailabilityOverrideDto where
  date : Option String := none
  isUnavailable : Option Bool := some false
  startMinute : Option Int := none
  endMinute : Option Int := none
  deriving DecidableEq, Repr

/-- The body of a `PATCH` on an override. `none` is a key that is absent, `some none` is `null`. -/
structure OverrideBody where
  date : Option (Option String) := none
  isUnavailable : Option (Option Bool) := none
  startMinute : Option (Option Int) := none
  endMinute : Option (Option Int) := none
  deriving DecidableEq, Repr

/-- The pipe constructs an instance, which has the initializers, and assigns the keys of the body. -/
def OverrideBody.toDto (body : OverrideBody) : UpdateAvailabilityOverrideDto :=
  let constructed : UpdateAvailabilityOverrideDto := {}
  { date := body.date.getD constructed.date
    isUnavailable := body.isUnavailable.getD constructed.isUnavailable
    startMinute := body.startMinute.getD constructed.startMinute
    endMinute := body.endMinute.getD constructed.endMinute }

def UpdateAvailabilityOverrideDto.valid (dto : UpdateAvailabilityOverrideDto) : Bool :=
  dto.isUnavailable = some true || (dto.startMinute.all isMinute && dto.endMinute.all isMinute)

structure CreateEventTypeDto where
  title : String
  description : Option String := none
  durationMinutes : Int
  locations : List LocationType
  price : Option Int := none
  position : Option Int := none
  deriving DecidableEq, Repr

def isDuration (v : Int) : Bool := isIn 5 (24 * 60) v

def CreateEventTypeDto.valid (dto : CreateEventTypeDto) : Bool :=
  1 ≤ dto.title.length && isDuration dto.durationMinutes && !dto.locations.isEmpty && dto.locations.Nodup &&
    dto.price.all (0 ≤ ·) && dto.position.all (0 ≤ ·)

/-- `UpdateEventTypeDto` is the data of the update. -/
def isValidUpdateEventTypeDto (dto : EventTypePatch) : Bool :=
  dto.title.join.all (1 ≤ ·.length) && dto.durationMinutes.join.all isDuration &&
    dto.locations.join.all (fun l => !l.isEmpty && l.Nodup) && dto.price.join.all (0 ≤ ·) &&
    dto.position.join.all (0 ≤ ·)

inductive Json where
  | null
  | bool (b : Bool)
  | num (n : Int)
  | str (s : String)
  | arr (values : List Json)
  | obj (fields : List (String × Json))

/-- A property of an object. -/
def Json.get? : Json → String → Option Json
  | .obj fields, key => fields.lookup key
  | _, _ => none

def PALETTE_KEYS : List String := ["bg", "bgPanel", "bgCard", "ink", "inkSoft", "accent", "accentSoft", "line", "brown"]

def isHexDigit (c : Char) : Bool := c.isDigit || ('a' ≤ c && c ≤ 'f') || ('A' ≤ c && c ≤ 'F')

/-- `HEX_COLOR_RE`. -/
def isHexColor (s : String) : Bool :=
  match s.toList with
  | '#' :: digits => digits.length = 6 && digits.all isHexDigit
  | _ => false

def isValidPalette (value : Json) : Bool :=
  PALETTE_KEYS.all fun key =>
    match value.get? key with
    | some (.str v) => isHexColor v
    | _ => false

def isValidEmailBrandPalette (value : Json) : Bool :=
  (value.get? "light").any isValidPalette && (value.get? "dark").any isValidPalette

/-- The colours of the mails are checked. The column that holds them is left out. -/
structure UpdateSettingsDto extends SettingsPatch where
  emailBrandPalette : Option Json := none

def UpdateSettingsDto.valid (dto : UpdateSettingsDto) : Bool :=
  dto.cancellationNoticeHours.join.all (isIn 0 (24 * 30))

/-! ## The weekly schedule -/

namespace WeeklyAvailabilityService

def findForCoach (coachId : String) : DashboardProg (List WeeklyAvailability) := perform (Op.weeklyFindMany coachId)

def assertOwnership (coach : Coach) (id : String) : DashboardProg WeeklyAvailability := do
  let row ← perform (Op.weeklyFindUnique id)
  assertCoachOwnsOrIsAdmin (·.coachId) coach row (.text "Weekly availability entry not found")

def assertValidRange (startMinute endMinute : Int) : DashboardProg Unit :=
  if startMinute ≥ endMinute then throw (.badRequest (.text "startMinute must be before endMinute")) else pure ()

def create (coach : Coach) (dto : CreateWeeklyAvailabilityDto) : DashboardProg WeeklyAvailability := do
  assertValidRange dto.startMinute dto.endMinute
  perform (Op.write (.weeklyCreate coach.id ⟨dto.weekday, dto.startMinute, dto.endMinute⟩))

def update (coach : Coach) (id : String) (dto : UpdateWeeklyAvailabilityDto) : DashboardProg WeeklyAvailability := do
  let existing ← assertOwnership coach id
  let weekday := dto.weekday.getD existing.weekday
  let startMinute := dto.startMinute.getD existing.startMinute
  let endMinute := dto.endMinute.getD existing.endMinute
  assertValidRange startMinute endMinute
  perform (Op.write (.weeklyUpdate id ⟨weekday, startMinute, endMinute⟩))

def remove (coach : Coach) (id : String) : DashboardProg Unit := do
  let _ ← assertOwnership coach id
  perform (Op.write (.weeklyDelete id))

end WeeklyAvailabilityService

/-! ## The overrides -/

namespace AvailabilityOverrideService

-- `new Date(`T00:00:00.000Z`)` of an ISO date, when it is valid
variable (toDateOnly : String → Option Int)

def findForCoach (coachId : String) : DashboardProg (List AvailabilityOverride) :=
  perform (Op.overrideFindMany coachId)

def assertOwnership (coach : Coach) (id : String) : DashboardProg AvailabilityOverride := do
  let row ← perform (Op.overrideFindUnique id)
  assertCoachOwnsOrIsAdmin (·.coachId) coach row (.text "Availability override not found")

/-- The checks on the minutes of a day that is not off. -/
def assertValidMinutes (startMinute endMinute : Option Int) : DashboardProg Unit :=
  match startMinute, endMinute with
  | some startMinute, some endMinute =>
      if startMinute ≥ endMinute then throw (.badRequest (.text "startMinute must be before endMinute")) else pure ()
  | _, _ => throw (.badRequest (.text "startMinute and endMinute are required unless isUnavailable is true"))

/-- Prisma refuses an invalid date. -/
def dateOf (date : Option Int) : DashboardProg Int :=
  match date with
  | none => throw invalidQuery
  | some date => return date

def create (coach : Coach) (dto : CreateAvailabilityOverrideDto) : DashboardProg AvailabilityOverride := do
  let isUnavailable := dto.isUnavailable.getD false
  if !isUnavailable then
    assertValidMinutes dto.startMinute dto.endMinute
  let date ← dateOf (toDateOnly dto.date)
  perform (Op.write (.overrideCreate coach.id ⟨date, isUnavailable,
    if isUnavailable then none else dto.startMinute, if isUnavailable then none else dto.endMinute⟩))

def update (coach : Coach) (id : String) (dto : UpdateAvailabilityOverrideDto) :
    DashboardProg AvailabilityOverride := do
  let existing ← assertOwnership coach id
  let isUnavailable := dto.isUnavailable.getD existing.isUnavailable
  let startMinute := if isUnavailable then none else dto.startMinute <|> existing.startMinute
  let endMinute := if isUnavailable then none else dto.endMinute <|> existing.endMinute
  if !isUnavailable then
    assertValidMinutes startMinute endMinute
  let date ← dateOf (match dto.date with
    | none => some existing.date
    | some date => toDateOnly date)
  perform (Op.write (.overrideUpdate id ⟨date, isUnavailable, startMinute, endMinute⟩))

def remove (coach : Coach) (id : String) : DashboardProg Unit := do
  let _ ← assertOwnership coach id
  perform (Op.write (.overrideDelete id))

end AvailabilityOverrideService

/-! ## The event types -/

namespace EventTypesService

def findMine (coachId : String) : DashboardProg (List EventType) := perform (Op.eventTypeFindMany coachId)

def assertOwnership (coach : Coach) (eventTypeId : String) : DashboardProg EventType := do
  let eventType ← perform (Op.booking (.eventTypeFindUnique eventTypeId))
  assertCoachOwnsOrIsAdmin (·.coachId) coach eventType (.text "Event type not found")

def nextPosition (coachId : String) : DashboardProg Int := do
  let last ← perform (Op.eventTypeMaxPosition coachId)
  return last.getD (-1) + 1

def create (coach : Coach) (dto : CreateEventTypeDto) : DashboardProg EventType := do
  let position ← match dto.position with
    | some position => pure position
    | none => nextPosition coach.id
  perform (Op.write (.eventTypeCreate coach.id
    ⟨dto.title, dto.description, dto.durationMinutes, dto.locations, dto.price, position⟩))

def update (coach : Coach) (eventTypeId : String) (dto : EventTypePatch) : DashboardProg EventType := do
  let eventType ← assertOwnership coach eventTypeId
  perform (Op.write (.eventTypeUpdate eventType.id dto))

def archive (coach : Coach) (eventTypeId : String) : DashboardProg EventType := do
  let eventType ← assertOwnership coach eventTypeId
  perform (Op.write (.eventTypeUpdate eventType.id { isActive := some (some false) }))

def remove (coach : Coach) (eventTypeId : String) : DashboardProg Unit := do
  let eventType ← assertOwnership coach eventTypeId
  tryCatch (perform (Op.write (.eventTypeDelete eventType.id))) fun error =>
    if error = foreignKey then
      throw (.conflict (.text
        "This service has existing bookings and cannot be permanently deleted -- archive it instead"))
    else throw error

def reorder (coach : Coach) (ids : List String) : DashboardProg Unit := do
  let owned ← perform (Op.eventTypeFindOwned ids coach.id)
  if owned.length ≠ ids.length then
    throw (.badRequest (.text "One or more event types were not found or are not yours"))
  perform (Op.write (.eventTypeReorder ids))

end EventTypesService

/-! ## Settings and bookings -/

def SettingsService.update (coachId : String) (dto : UpdateSettingsDto) : DashboardProg Settings := do
  let _ ← ofBooking (CoachingCalendar.SettingsService.get coachId)
  if dto.emailBrandPalette.any fun value => !isValidEmailBrandPalette value then
    throw (.badRequest (.text ("emailBrandPalette must have light/dark objects, each with hex color values for bg, " ++
      "bgPanel, bgCard, ink, inkSoft, accent, accentSoft, line, brown")))
  perform (Op.write (.settingsUpdate coachId dto.toSettingsPatch))

def BookingsService.findAll (coach : Coach) (coachId : Option String) : DashboardProg (List BookingWithRelations) := do
  let scopedCoachId ← if coach.role = .admin then pure coachId else some <$> resolveCoachScope coach coachId
  perform (Op.bookingFindMany (scopedCoachId.filter (· ≠ "")))

/-! ## Requests -/

inductive Request where
  | weeklyFind (coachId : Option String)
  | weeklyCreate (dto : CreateWeeklyAvailabilityDto)
  | weeklyUpdate (id : String) (dto : UpdateWeeklyAvailabilityDto)
  | weeklyRemove (id : String)
  | overrideFind (coachId : Option String)
  | overrideCreate (dto : CreateAvailabilityOverrideDto)
  | overrideUpdate (id : String) (dto : UpdateAvailabilityOverrideDto)
  | overrideRemove (id : String)
  | eventTypeFindMine (coachId : Option String)
  | eventTypeCreate (dto : CreateEventTypeDto)
  | eventTypeUpdate (id : String) (dto : EventTypePatch)
  | eventTypeArchive (id : String)
  | eventTypeRemove (id : String)
  | eventTypeReorder (ids : List String)
  | bookingFindAll (coachId : Option String)
  | bookingCancel (id reason : String)
  | settingsUpdate (dto : UpdateSettingsDto)

inductive Response where
  | weekly (row : WeeklyAvailability)
  | weeklies (rows : List WeeklyAvailability)
  | override (row : AvailabilityOverride)
  | overrides (rows : List AvailabilityOverride)
  | eventType (row : EventType)
  | eventTypes (rows : List EventType)
  | booking (row : BookingWithRelations)
  | bookings (rows : List BookingWithRelations)
  | settings (row : Settings)
  | done
  deriving DecidableEq, Repr

namespace Request

/-- What the `ValidationPipe` lets through. -/
def valid : Request → Bool
  | .weeklyCreate dto => dto.valid
  | .weeklyUpdate _ dto => dto.valid
  | .overrideCreate dto => dto.valid
  | .overrideUpdate _ dto => dto.valid
  | .eventTypeCreate dto => dto.valid
  | .eventTypeUpdate _ dto => isValidUpdateEventTypeDto dto
  | .eventTypeReorder ids => !ids.isEmpty
  | .settingsUpdate dto => dto.valid
  | _ => true

/-- The controllers, for a request of `coach`. -/
def body (P : Platform) (toDateOnly : String → Option Int) (coach : Coach) : Request → DashboardProg Response
  | .weeklyFind coachId => do
      return .weeklies (← WeeklyAvailabilityService.findForCoach (← resolveCoachScope coach coachId))
  | .weeklyCreate dto => do return .weekly (← WeeklyAvailabilityService.create coach dto)
  | .weeklyUpdate id dto => do return .weekly (← WeeklyAvailabilityService.update coach id dto)
  | .weeklyRemove id => do
      WeeklyAvailabilityService.remove coach id
      return .done
  | .overrideFind coachId => do
      return .overrides (← AvailabilityOverrideService.findForCoach (← resolveCoachScope coach coachId))
  | .overrideCreate dto => do return .override (← AvailabilityOverrideService.create toDateOnly coach dto)
  | .overrideUpdate id dto => do return .override (← AvailabilityOverrideService.update toDateOnly coach id dto)
  | .overrideRemove id => do
      AvailabilityOverrideService.remove coach id
      return .done
  | .eventTypeFindMine coachId => do
      return .eventTypes (← EventTypesService.findMine (← resolveCoachScope coach coachId))
  | .eventTypeCreate dto => do return .eventType (← EventTypesService.create coach dto)
  | .eventTypeUpdate id dto => do return .eventType (← EventTypesService.update coach id dto)
  | .eventTypeArchive id => do return .eventType (← EventTypesService.archive coach id)
  | .eventTypeRemove id => do
      EventTypesService.remove coach id
      return .done
  | .eventTypeReorder ids => do
      EventTypesService.reorder coach ids
      return .done
  | .bookingFindAll coachId => do return .bookings (← BookingsService.findAll coach coachId)
  | .bookingCancel id reason => do
      return .booking (← ofBooking (CoachingCalendar.BookingsService.cancelByCoach P coach id reason))
  | .settingsUpdate dto => do return .settings (← SettingsService.update coach.id dto)

end Request

end CoachingCalendar.Dashboard
