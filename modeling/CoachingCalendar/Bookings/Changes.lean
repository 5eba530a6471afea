import CoachingCalendar.Bookings.Conditions
import CoachingCalendar.Dashboard.Service

/-!
# The booking system under given changes

The booking system in which the rest of the program changes its tables by statements of the dashboard alone, and
what can be said of the rows that it keeps.
-/

namespace CoachingCalendar
open Lib Lib.System

/-- A statement that is admitted, with the id that a new row would get. -/
structure Edit (admits : Statement → Prop) where
  statement : Statement
  newId : String := ""
  admitted : admits statement

/-- What happens besides the calls: time passes, or the dashboard runs a statement. -/
inductive Change (admits : Statement → Prop) where
  | tick (ms : Nat)
  | edit (e : Edit admits)

variable {admits : Statement → Prop}

/-- A statement that fails changes nothing. -/
def Change.apply : Change admits → World → World
  | .tick ms, w => { w with clock := w.clock + ms }
  | .edit e, w =>
      match w.db.apply e.newId e.statement with
      | .ok (_, d) => w.write d
      | .error _ => w

/-- The booking system with the changes that are admitted. -/
def calendarSystem (P : Platform) (admits : Statement → Prop) :
    System Ans Failure (Option BookingWithRelations) World Choice Call (Change admits) where
  exec := exec
  body := Call.body P
  accept := Call.accept
  drift := Change.apply

/-! ## Updates of event types -/

/-- An update of an event type with a body that the pipe lets through. -/
def Statement.updatesEventType : Statement → Prop
  | .eventTypeUpdate _ patch => Dashboard.isValidUpdateEventTypeDto patch
  | _ => False

/-- Every event type lasts as long as its checks let it. -/
def Db.DurationsValid (d : Db) : Prop := ∀ e ∈ d.eventTypes, Dashboard.isDuration e.durationMinutes

/-! ## Where a booking comes from -/

/-- The event type that a lookup found. -/
def readType : Event Ans Failure → Option EventType
  | ⟨.eventTypeFindUnique _, .ok e⟩ => e
  | _ => none

/-- The event type that a call found. -/
def typeFound (past : List (Event Ans Failure)) : Option EventType := past.findSome? readType

/-- The booking it created. -/
def bookingCreated : BookingEntry → Option String
  | ⟨⟨.transaction tx, .ok b⟩, _⟩ =>
      match tx.write with
      | .create _ => some b.id
      | .move _ => none
  | _ => none

/-- Call `i` found the event type and created the booking. -/
structure CreatedFrom (c : BookingConfig) (i : Nat) (eventType : EventType) (id : String) : Prop where
  found : typeFound (c.past i) = some eventType
  created : ∃ e ∈ c.log, e.tid = i ∧ bookingCreated e = some id

/-! ## Well-formed rows -/

def Booking.length (b : Booking) : Int := b.endAt - b.startAt

/-- The columns that are set together. -/
structure Booking.Coherent (b : Booking) : Prop where
  cancelled : b.status = .cancelled ↔ b.cancelledBy ≠ none
  linked : b.meetLink = none ↔ b.googleEventId = none
  online : b.location ≠ .googleMeet → b.meetLink = none ∧ b.googleEventId = none

/-- A booking has a positive length, the one that the call that created it read from the event type, and it is of the
coach of its event type. -/
structure Booking.WellFormed (c : BookingConfig) (b : Booking) : Prop where
  lt : b.startAt < b.endAt
  created : ∃ i eventType, CreatedFrom c i eventType b.id
  length : ∀ i eventType, CreatedFrom c i eventType b.id → b.length = eventType.durationMinutes * msPerMinute
  owned : ∃ eventType, c.world.db.eventTypes.find b.eventTypeId = some eventType ∧ eventType.coachId = b.coachId
  coherent : b.Coherent

end CoachingCalendar
