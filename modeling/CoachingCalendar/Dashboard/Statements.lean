import CoachingCalendar.Store.Operations

/-!
# The statements of the dashboard

What a coach changes besides bookings: the weekly schedule, its overrides, the event types and the settings.
Each change is one statement, or one transaction of statements that reads nothing.
-/

namespace CoachingCalendar
open Lib

def foreignKey : Failure := .prisma "P2003"

/-- A query with `null` for a column that has none. -/
def invalidQuery : Failure := .other "PrismaClientValidationError"

/-! ## Rows -/

section Rows

variable {ρ : Type} {key : ρ → String}

def created (t : Table key) (r : ρ) : Except Failure (Table key) :=
  match t.insert r with
  | none => .error uniqueConstraint
  | some t' => .ok t'

def updated (t : Table key) (k : String) (f : ρ → ρ) (hf : ∀ r, key (f r) = key r) : Except Failure (ρ × Table key) :=
  match t.find k with
  | none => .error recordNotFound
  | some r => .ok (f r, t.update k f hf)

def deleted (t : Table key) (k : String) : Except Failure (Table key) :=
  match t.find k with
  | none => .error recordNotFound
  | some _ => .ok (t.delete k)

end Rows

/-! ## Data -/

structure WeeklyData where
  weekday : Int
  startMinute : Int
  endMinute : Int
  deriving DecidableEq, Repr

def WeeklyData.toRow (data : WeeklyData) (id coachId : String) : WeeklyAvailability :=
  ⟨id, coachId, data.weekday, data.startMinute, data.endMinute⟩

structure OverrideData where
  date : Int
  isUnavailable : Bool
  startMinute : Option Int
  endMinute : Option Int
  deriving DecidableEq, Repr

def OverrideData.toRow (data : OverrideData) (id coachId : String) : AvailabilityOverride :=
  ⟨id, coachId, data.date, data.isUnavailable, data.startMinute, data.endMinute⟩

structure EventTypeData where
  title : String
  description : Option String
  durationMinutes : Int
  locations : List LocationType
  price : Option Int
  position : Int
  deriving DecidableEq, Repr

def EventTypeData.toRow (data : EventTypeData) (id coachId : String) : EventType where
  id := id
  coachId := coachId
  title := data.title
  description := data.description
  durationMinutes := data.durationMinutes
  locations := data.locations
  price := data.price
  position := data.position

/-- `none` is a field that is not given, `some none` is `null`. -/
structure EventTypePatch where
  title : Option (Option String) := none
  description : Option (Option String) := none
  durationMinutes : Option (Option Int) := none
  locations : Option (Option (List LocationType)) := none
  price : Option (Option Int) := none
  position : Option (Option Int) := none
  isActive : Option (Option Bool) := none
  deriving DecidableEq, Repr

def EventTypePatch.apply (p : EventTypePatch) (e : EventType) : EventType :=
  { e with
    title := p.title.join.getD e.title
    description := p.description.getD e.description
    durationMinutes := p.durationMinutes.join.getD e.durationMinutes
    locations := p.locations.join.getD e.locations
    price := p.price.getD e.price
    position := p.position.join.getD e.position
    isActive := p.isActive.join.getD e.isActive }

/-- It gives `null` for a column that has none. -/
def EventTypePatch.invalid (p : EventTypePatch) : Bool :=
  p.title = some none || p.durationMinutes = some none || p.locations = some none || p.position = some none ||
    p.isActive = some none

structure SettingsPatch where
  businessAddress : Option (Option String) := none
  cancellationNoticeHours : Option (Option Int) := none
  businessTimezone : Option (Option String) := none
  emailFrom : Option (Option String) := none
  brandName : Option (Option String) := none
  brandTagline : Option (Option String) := none
  deriving DecidableEq, Repr

def SettingsPatch.apply (p : SettingsPatch) (s : Settings) : Settings :=
  { s with
    businessAddress := p.businessAddress.join.getD s.businessAddress
    cancellationNoticeHours := p.cancellationNoticeHours.join.getD s.cancellationNoticeHours
    businessTimezone := p.businessTimezone.join.getD s.businessTimezone
    emailFrom := p.emailFrom.getD s.emailFrom
    brandName := p.brandName.getD s.brandName
    brandTagline := p.brandTagline.getD s.brandTagline }

def SettingsPatch.invalid (p : SettingsPatch) : Bool :=
  p.businessAddress = some none || p.cancellationNoticeHours = some none || p.businessTimezone = some none

/-! ## Statements -/

inductive Statement where
  | weeklyCreate (coachId : String) (data : WeeklyData)
  | weeklyUpdate (id : String) (data : WeeklyData)
  | weeklyDelete (id : String)
  | overrideCreate (coachId : String) (data : OverrideData)
  | overrideUpdate (id : String) (data : OverrideData)
  | overrideDelete (id : String)
  | eventTypeCreate (coachId : String) (data : EventTypeData)
  | eventTypeUpdate (id : String) (patch : EventTypePatch)
  | eventTypeDelete (id : String)
  /-- The positions of event types, in one transaction. -/
  | eventTypeReorder (ids : List String)
  | settingsUpdate (coachId : String) (patch : SettingsPatch)
  deriving DecidableEq, Repr

namespace Statement

@[reducible] def Ans : Statement → Type
  | .weeklyCreate _ _ | .weeklyUpdate _ _ => WeeklyAvailability
  | .overrideCreate _ _ | .overrideUpdate _ _ => AvailabilityOverride
  | .eventTypeCreate _ _ | .eventTypeUpdate _ _ => EventType
  | .settingsUpdate _ _ => Settings
  | .weeklyDelete _ | .overrideDelete _ | .eventTypeDelete _ | .eventTypeReorder _ => Unit

end Statement

namespace Db

variable (d : Db)

def requireCoach (coachId : String) : Except Failure Unit :=
  if (d.coaches.find coachId).isSome then .ok () else .error foreignKey

/-- The new position of one event type. -/
def setPosition (id : String) (index : Nat) : Except Failure Db := do
  let x ← updated d.eventTypes id (fun e => { e with position := index }) fun _ => rfl
  return { d with eventTypes := x.2 }

def reorder : List (String × Nat) → Db → Except Failure Db
  | [], d => .ok d
  | (id, index) :: rest, d => do reorder rest (← d.setPosition id index)

/-- What a statement returns and the database after it, or what it fails with. -/
def apply (newId : String) : (s : Statement) → Except Failure (s.Ans × Db)
  | .weeklyCreate coachId data => do
      d.requireCoach coachId
      let weeklyAvailabilities ← created d.weeklyAvailabilities (data.toRow newId coachId)
      return (data.toRow newId coachId, { d with weeklyAvailabilities })
  | .weeklyUpdate id data => do
      let x ← updated d.weeklyAvailabilities id (fun r => data.toRow r.id r.coachId) fun _ => rfl
      return (x.1, { d with weeklyAvailabilities := x.2 })
  | .weeklyDelete id => do
      let weeklyAvailabilities ← deleted d.weeklyAvailabilities id
      return ((), { d with weeklyAvailabilities })
  | .overrideCreate coachId data => do
      d.requireCoach coachId
      let overrides ← created d.overrides (data.toRow newId coachId)
      return (data.toRow newId coachId, { d with overrides })
  | .overrideUpdate id data => do
      let x ← updated d.overrides id (fun r => data.toRow r.id r.coachId) fun _ => rfl
      return (x.1, { d with overrides := x.2 })
  | .overrideDelete id => do
      let overrides ← deleted d.overrides id
      return ((), { d with overrides })
  | .eventTypeCreate coachId data => do
      d.requireCoach coachId
      let eventTypes ← created d.eventTypes (data.toRow newId coachId)
      return (data.toRow newId coachId, { d with eventTypes })
  | .eventTypeUpdate id patch => do
      if patch.invalid then throw invalidQuery
      let x ← updated d.eventTypes id patch.apply fun _ => rfl
      return (x.1, { d with eventTypes := x.2 })
  | .eventTypeDelete id => do
      -- `onDelete: Restrict` on the bookings of the event type
      if (d.bookings.findFirst fun b => b.eventTypeId = id).isSome then throw foreignKey
      let eventTypes ← deleted d.eventTypes id
      return ((), { d with eventTypes })
  | .eventTypeReorder ids => do return ((), ← reorder ids.zipIdx d)
  | .settingsUpdate coachId patch => do
      if patch.invalid then throw invalidQuery
      let x ← updated d.settings coachId patch.apply fun _ => rfl
      return (x.1, { d with settings := x.2 })

end Db

end CoachingCalendar
