import CoachingCalendar.Jobs.Service

/-!
# The booking system

Requests and notification jobs running at the same time, with the clock and the rest of the program
around them.
-/

namespace CoachingCalendar
open Lib

inductive Call where
  | create (dto : CreateBookingDto) (originUrl : Option String)
  | cancelByClient (token : String) (reason : Option String)
  | cancelByCoach (coach : Coach) (bookingId reason : String)
  | rescheduleByClient (token newStartAt : String)
  | work (job : Job)
  deriving DecidableEq, Repr

namespace Call

def isRequest : Call → Bool
  | .work _ => false
  | _ => true

def isCancel : Call → Bool
  | .cancelByClient _ _ | .cancelByCoach _ _ _ => true
  | _ => false

variable (P : Platform)

/-- The program of a call, with the booking that a request returns. -/
def body : Call → BookingProg (Option BookingWithRelations)
  | .create dto originUrl => do return some (← BookingsService.create P dto originUrl)
  | .cancelByClient token reason => do return some (← BookingsService.cancelByClient P token reason)
  | .cancelByCoach coach bookingId reason => do
      return some (← BookingsService.cancelByCoach P coach bookingId reason)
  | .rescheduleByClient token newStartAt => do
      return some (← BookingsService.rescheduleByClient P token newStartAt)
  | .work job => do CoachingCalendar.work P job; return none

/-- A worker takes its job out of the queue. -/
def accept : Call → World → Option World
  | .work job, w => if job ∈ w.jobs then some { w with jobs := w.jobs.erase job } else none
  | _, w => some w

end Call

/-- What happens besides the calls: time passes, or the rest of the program changes its tables. -/
inductive Drift where
  | tick (ms : Nat)
  | edit (tables : Db)

def Drift.apply : Drift → World → World
  | .tick ms, w => { w with clock := w.clock + ms }
  | .edit tables, w => w.write { tables with bookings := w.db.bookings }

def bookingSystem (P : Platform) :
    System Ans Failure (Option BookingWithRelations) World Choice Call Drift where
  exec := exec
  body := Call.body P
  accept := Call.accept
  drift := Drift.apply

abbrev BookingConfig := Config Ans Failure (Option BookingWithRelations) World Call
abbrev BookingGuard := Guard Ans Failure (Option BookingWithRelations) World Call
abbrev BookingThread := Thread Ans Failure (Option BookingWithRelations) Call
abbrev BookingEntry := Logged Ans Failure

/-- No booking and no calendar event yet. -/
structure World.Fresh (w : World) : Prop where
  bookings : w.db.bookings = Table.empty
  recent : w.recent = []
  calendar : w.calendar = []

/-! ## A world and moves to run examples with -/

/-- Monday 2026-03-02, before any booking. -/
def World.sample : World where
  db := .sample
  clock := 1772409600000

/-- A Google Meet booking for Monday 2026-03-09 at 10:00 in Budapest. -/
def CreateBookingDto.sample : CreateBookingDto where
  eventTypeId := "e1"
  startAt := "2026-03-09T09:00:00.000Z"
  location := .googleMeet
  clientName := "Anna"
  clientEmail := "anna@example.com"
  clientPhone := "+36"
  locale := "hu"

abbrev BookingMove := Move Choice Call Drift

/-- Call `i` issues its next `n` operations, and they go well. -/
def fires (i n : Nat) (ch : Choice := {}) : List BookingMove := List.replicate n (.fire i ch)

/-- Call `0` books the sample. -/
def bookSample : List BookingMove :=
  [.spawn (.create .sample none)] ++ fires 0 8 { newId := "b1", newToken := "t1" }

/-- Google's answer to an insert. -/
def Choice.linked : Choice := { hangoutLink := some "https://meet.google.com/abc" }

/-! ## What an entry of the log did -/

/-- The booking it found. -/
def bookingRead (e : BookingEntry) : Option String := (readRow e.toEvent).map (·.id)

/-- The booking it moved to another time. -/
def bookingMoved : BookingEntry → Option String
  | ⟨⟨.transaction tx, .ok _⟩, _⟩ =>
      match tx.write with
      | .move id => some id
      | .create _ => none
  | _ => none

/-- The booking it updated outside a transaction with a patch of a kind. -/
def bookingPatched (kind : BookingPatch → Bool) : BookingEntry → Option String
  | ⟨⟨.bookingUpdate id patch, .ok _⟩, _⟩ => if kind patch then some id else none
  | _ => none

def reads (id : String) (e : BookingEntry) : Bool := bookingRead e = some id
def moves (id : String) (e : BookingEntry) : Bool := bookingMoved e = some id
def patches (kind : BookingPatch → Bool) (id : String) (e : BookingEntry) : Bool :=
  bookingPatched kind e = some id

namespace BookingPatch

def cancels (p : BookingPatch) : Bool := p.status = some .cancelled

/-- It stores the number of an event. -/
def stores (p : BookingPatch) : Bool := p.googleEventId.any Option.isSome

/-- It clears the number of an event. -/
def clears (p : BookingPatch) : Bool := p.googleEventId = some none

end BookingPatch

abbrev cancels : String → BookingEntry → Bool := patches BookingPatch.cancels
abbrev stores : String → BookingEntry → Bool := patches BookingPatch.stores
abbrev clears : String → BookingEntry → Bool := patches BookingPatch.clears

/-! ## The course of one call -/

/-- Where a call stands with its booking. -/
inductive Phase where
  | idle
  | read (b : Booking)
  /-- The transaction of a reschedule has committed and returned `b`. -/
  | moved (b : Booking)
  /-- The event of `b` has been deleted. -/
  | unlinked (b : Booking)
  /-- An event has been created for `b`, and its number is not stored. -/
  | created (b : Booking) (eventId : Nat)
  | cancelled (b : Booking)
  /-- It touches the booking and the calendar no more. -/
  | done
  deriving DecidableEq, Repr

variable (P : Platform)

/-- The integration is there and its token can be decrypted. -/
def connected : Except Failure (Option GoogleIntegration) → Bool
  | .ok (some g) => (P.decrypt g.refreshTokenEncrypted).isSome
  | _ => false

def Phase.next : Phase → Event Ans Failure → Phase
  | _, ⟨.bookingFindByManageToken _, .ok (some b)⟩ => .read b.toBooking
  | _, ⟨.bookingFindUnique _, .ok (some b)⟩ => .read b.toBooking
  | _, ⟨.transaction tx, .ok b⟩ =>
      match tx.write with
      | .create _ => .done
      | .move _ => .moved b.toBooking
  | .moved b, ⟨.integrationFindUnique _, r⟩ => if connected P r then .moved b else .done
  | .moved b, ⟨.calendarDelete _ _, _⟩ => .unlinked b
  | .read b, ⟨.calendarInsert _ _ _, .ok data⟩ =>
      match data.result with
      | some meet => .created b meet.eventId
      | none => .done
  | _, ⟨.bookingUpdate _ patch, .ok b⟩ =>
      if patch.cancels then .cancelled b.toBooking else .done
  | _, ⟨.bookingUpdate _ _, .error _⟩ => .done
  | s, _ => s

/-- The updates outside a transaction. -/
inductive PatchAllowed : Phase → String → BookingPatch → Prop
  | cancel {b cancelledBy reason} : b.status = .confirmed →
      PatchAllowed (.read b) b.id
        { status := some .cancelled, cancelledBy := some cancelledBy, cancellationReason := reason }
  | clear {b} : PatchAllowed (.unlinked b) b.id { meetLink := some none, googleEventId := some none }
  | attach {b eventId meetLink} : meetLink ≠ "" → PatchAllowed (.created b eventId) b.id
      { meetLink := some (some meetLink), googleEventId := some (some eventId) }

/-- The transactions: the overlap query is about the interval that is written, and leaves out the row
that is moved. -/
inductive TransactionAllowed : Phase → SlotTransaction → Prop
  | create {tx data} : tx.write = .create data → tx.coachId = data.coachId → tx.startAt = data.startAt →
      tx.endAt = data.endAt → tx.excludeBookingId = none → TransactionAllowed .idle tx
  | move {tx b} : tx.write = .move b.id → tx.coachId = b.coachId → tx.excludeBookingId = some b.id →
      b.status = .confirmed → TransactionAllowed (.read b) tx

/-- What a call may do in a phase. -/
def Phase.allowed (call : Call) (s : Phase) : Op → Prop
  | .bookingFindByManageToken _ | .bookingFindUnique _ => s = .idle
  | .transaction tx => TransactionAllowed s tx
  | .bookingUpdate id patch => PatchAllowed s id patch
  | .integrationFindUnique _ => ∀ b, s = .moved b → call.isRequest
  | .calendarInsert bookingId _ input => ∃ b, s = .read b ∧ b.id = bookingId ∧ b.location = .googleMeet ∧
      truthy b.meetLink = false ∧ input.startAt = b.startAt ∧ input.endAt = b.endAt
  | .calendarDelete _ eventId => ∃ b, (s = .read b ∨ s = .moved b) ∧ b.googleEventId = some eventId
  | _ => True

def Call.protocol (call : Call) : Protocol Ans Failure Phase where
  answers _ _ := True
  next := Phase.next P
  allowed := Phase.allowed call

/-- Nothing is left to be stored or deleted. -/
def Phase.settled : Phase → Prop
  | .moved b => b.location = .googleMeet → b.googleEventId = none
  | .created _ _ => False
  | _ => True

/-- How a call ends. -/
def Call.final (call : Call) (s : Phase) (r : Except Failure (Option BookingWithRelations)) : Prop :=
  s.settled ∧ (call.isCancel → ∀ b, r = .ok b → ∃ b', b = some b' ∧ s = .cancelled b'.toBooking)

end CoachingCalendar
