import CoachingCalendar.Lib.Pool
import CoachingCalendar.Store.Schema
import CoachingCalendar.Store.Platform

/-!
# The operations of the booking side

One operation is one statement outside a transaction, one serializable transaction, or one call of an
outside service. `exec` says what it does to the world.

A serializable transaction takes effect at one point of the order, so transactions are serial among
themselves. Its reads come from a snapshot that may be older than statements outside transactions,
but not older than the last transaction that took effect (`World.recent`).
-/

namespace CoachingCalendar
open Lib

inductive NotificationKind where
  | confirmed | cancelled | rescheduled
  deriving DecidableEq, Repr

structure NotificationJobData where
  bookingId : String
  coachId : String
  kind : NotificationKind
  deriving DecidableEq, Repr

/-- A row of the queue `booking-notification`. -/
structure Job where
  data : NotificationJobData
  retryCount : Nat := 0
  deriving DecidableEq, Repr

structure CreateMeetEventInput where
  title : String
  description : Option String
  startAt : Int
  endAt : Int
  attendeeEmails : List String
  deriving DecidableEq, Repr

/-- An event in a Google calendar, with the booking it was created for. -/
structure CalendarEvent extends CreateMeetEventInput where
  id : Nat
  coachId : String
  bookingId : String
  deriving DecidableEq, Repr

/-- The part of Google's answer to `events.insert` that the service reads. -/
structure InsertedEvent where
  id : Option Nat
  hangoutLink : Option String
  /-- The uri of the first entry point of type `video`. -/
  videoUri : Option String
  deriving DecidableEq, Repr

inductive Recipient where
  | client | coach
  deriving DecidableEq, Repr

structure BookingEmailContext where
  eventTypeTitle : String
  price : Option Int
  clientName : String
  coachName : String
  startAt : Int
  endAt : Int
  durationMinutes : Int
  location : LocationType
  businessAddress : String
  meetLink : Option String
  clientPhone : String
  timezone : String
  logoUrl : String
  brandName : String
  brandTagline : Option String
  manageUrl : String
  cancelledBy : Option CancelledBy
  cancellationReason : Option String
  deriving DecidableEq, Repr

structure Mail where
  address : String
  recipient : Recipient
  kind : NotificationKind
  locale : String
  bookingId : String
  context : BookingEmailContext
  sender : Option String
  deriving DecidableEq, Repr

/-- The data of `booking.create`. The id and the manage token are drawn when it runs. -/
structure NewBooking where
  eventTypeId : String
  coachId : String
  startAt : Int
  endAt : Int
  location : LocationType
  clientName : String
  clientEmail : String
  clientPhone : String
  clientNote : Option String
  locale : String
  originUrl : Option String
  deriving DecidableEq, Repr

def NewBooking.toBooking (b : NewBooking) (id manageToken : String) : Booking where
  id := id
  eventTypeId := b.eventTypeId
  coachId := b.coachId
  startAt := b.startAt
  endAt := b.endAt
  location := b.location
  clientName := b.clientName
  clientEmail := b.clientEmail
  clientPhone := b.clientPhone
  clientNote := b.clientNote
  locale := b.locale
  manageToken := manageToken
  originUrl := b.originUrl

/-- The data of `booking.update` outside a transaction. `none` is a field that is not given. -/
structure BookingPatch where
  status : Option BookingStatus := none
  cancelledBy : Option CancelledBy := none
  cancellationReason : Option String := none
  meetLink : Option (Option String) := none
  googleEventId : Option (Option Nat) := none
  deriving DecidableEq, Repr

def BookingPatch.apply (p : BookingPatch) (b : Booking) : Booking :=
  { b with
    status := p.status.getD b.status
    cancelledBy := p.cancelledBy.orElse fun _ => b.cancelledBy
    cancellationReason := p.cancellationReason.orElse fun _ => b.cancellationReason
    meetLink := p.meetLink.getD b.meetLink
    googleEventId := p.googleEventId.getD b.googleEventId }

theorem BookingPatch.apply_id (p : BookingPatch) (b : Booking) : (p.apply b).id = b.id := rfl

/-- The write that ends a booking transaction. -/
inductive SlotWrite where
  | create (data : NewBooking)
  | move (bookingId : String)
  deriving DecidableEq, Repr

/-- The statements of a booking transaction: the overlap query of `assertSlotIsBookable`, then the
write. -/
structure SlotTransaction where
  coachId : String
  startAt : Int
  endAt : Int
  excludeBookingId : Option String
  locale : String
  write : SlotWrite
  deriving DecidableEq, Repr

inductive Op where
  | now
  | eventTypeFindUnique (id : String)
  | coachFindUnique (id : String)
  | settingsUpsert (coachId : String)
  | overrideFindMany (coachId : String) (date : Int)
  | weeklyFindMany (coachId : String) (weekday : Int)
  | bookingFindByManageToken (token : String)
  | bookingFindUnique (id : String)
  | transaction (tx : SlotTransaction)
  | bookingUpdate (id : String) (patch : BookingPatch)
  | jobSend (data : NotificationJobData)
  | jobRetry (job : Job)
  | integrationFindUnique (coachId : String)
  | calendarInsert (bookingId coachId : String) (input : CreateMeetEventInput)
  | calendarDelete (coachId : String) (eventId : Nat)
  | sendEmail (mail : Mail)
  deriving DecidableEq, Repr

@[reducible] def Ans : Op → Type
  | .now => Int
  | .eventTypeFindUnique _ => Option EventType
  | .coachFindUnique _ => Option Coach
  | .settingsUpsert _ => Settings
  | .overrideFindMany _ _ => List AvailabilityOverride
  | .weeklyFindMany _ _ => List WeeklyAvailability
  | .bookingFindByManageToken _ => Option BookingWithRelations
  | .bookingFindUnique _ => Option BookingWithRelations
  | .transaction _ => BookingWithRelations
  | .bookingUpdate _ _ => BookingWithRelations
  | .jobSend _ => Unit
  | .jobRetry _ => Unit
  | .integrationFindUnique _ => Option GoogleIntegration
  | .calendarInsert _ _ _ => InsertedEvent
  | .calendarDelete _ _ => Unit
  | .sendEmail _ => Unit

/-- The row that a lookup found. -/
def readRow : Event Ans Failure → Option Booking
  | ⟨.bookingFindByManageToken _, .ok b⟩ => b.map (·.toBooking)
  | ⟨.bookingFindUnique _, .ok b⟩ => b.map (·.toBooking)
  | _ => none

abbrev BookingProg (α : Type) := Prog Ans Failure α

structure World where
  db : Db
  clock : Int
  /-- The databases since the last transaction, without the present one, newest first. -/
  recent : List Db := []
  jobs : List Job := []
  calendar : List CalendarEvent := []
  nextEventId : Nat := 0
  mails : List Mail := []

namespace World

/-- A statement outside a transaction. -/
def write (w : World) (d : Db) : World := { w with db := d, recent := w.db :: w.recent }

/-- The end of a transaction. -/
def commit (w : World) (d : Db) : World := { w with db := d, recent := [] }

/-- The `n`-th newest database a transaction that commits now may have read. -/
def snapshot (w : World) (n : Nat) : Db := (w.db :: w.recent)[n]?.getD w.db

end World

/-- How the environment lets an operation go. -/
structure Choice where
  /-- The operation is not performed and fails. -/
  fault : Option Failure := none
  newId : String := ""
  newToken : String := ""
  snapshot : Nat := 0
  /-- What Google answers to an insert besides the id it gives the event. -/
  answersId : Bool := true
  hangoutLink : Option String := none
  videoUri : Option String := none

/-- `where` of the overlap query. -/
def SlotTransaction.conflicts (tx : SlotTransaction) (b : Booking) : Bool :=
  b.coachId = tx.coachId && b.status = .confirmed && (tx.excludeBookingId.all fun id => b.id ≠ id) &&
    b.startAt < tx.endAt && tx.startAt < b.endAt

def moveTo (startAt endAt : Int) (b : Booking) : Booking := { b with startAt := startAt, endAt := endAt }

theorem moveTo_id (startAt endAt : Int) (b : Booking) : (moveTo startAt endAt b).id = b.id := rfl

def recordNotFound : Failure := .prisma "P2025"
def uniqueConstraint : Failure := .prisma "P2002"

/-- The body of a booking transaction on the snapshot `d`. A failure rolls everything back. -/
def runTransaction (w : World) (d : Db) (tx : SlotTransaction) (newId newToken : String) :
    Except Failure BookingWithRelations × World :=
  match d.bookings.findFirst tx.conflicts with
  | some _ => (.error (.conflict (.translated "errors.slotJustBooked" tx.locale)), w)
  | none =>
      match tx.write with
      | .create data =>
          let row := data.toBooking newId newToken
          if (w.db.bookings.findFirst fun b => b.manageToken = newToken).isSome then
            (.error uniqueConstraint, w)
          else
            match w.db.bookings.insert row with
            | none => (.error uniqueConstraint, w)
            | some bookings => (.ok (w.db.withRelations row), w.commit { w.db with bookings })
      | .move id =>
          match w.db.bookings.find id with
          | none => (.error recordNotFound, w)
          | some b =>
              (.ok (w.db.withRelations (moveTo tx.startAt tx.endAt b)), w.commit { w.db with
                bookings := w.db.bookings.update id (moveTo tx.startAt tx.endAt) (moveTo_id _ _) })

/-- The operation, unless the environment makes it fail. -/
def unlessFault {α : Type} (ch : Choice) (w : World) (x : Except Failure α × World) :
    Except Failure α × World :=
  match ch.fault with
  | some e => (.error e, w)
  | none => x

def retryLimit : Nat := 3

/-- An operation that fails was not performed. A worker takes a job once, and again after `jobRetry`: that pg-boss hands out
an active job a second time (its worker died, or its completion failed) is not modelled. -/
def exec (w : World) : (o : Op) → Choice → Except Failure (Ans o) × World
  | .now, _ => (.ok w.clock, w)
  | .eventTypeFindUnique id, ch => unlessFault ch w (.ok (w.db.eventTypes.find id), w)
  | .coachFindUnique id, ch => unlessFault ch w (.ok (w.db.coaches.find id), w)
  | .settingsUpsert coachId, ch => unlessFault ch w <|
      match w.db.settings.find coachId with
      | some s => (.ok s, w)
      | none => (.ok { coachId }, w.write { w.db with
          settings := (w.db.settings.insert { coachId }).getD w.db.settings })
  | .overrideFindMany coachId date, ch => unlessFault ch w
      (.ok (w.db.overrides.findMany fun o => o.coachId = coachId && o.date = date), w)
  | .weeklyFindMany coachId weekday, ch => unlessFault ch w
      (.ok (w.db.weeklyAvailabilities.findMany fun r => r.coachId = coachId && r.weekday = weekday), w)
  | .bookingFindByManageToken token, ch => unlessFault ch w
      (.ok ((w.db.bookings.findFirst fun b => b.manageToken = token).map w.db.withRelations), w)
  | .bookingFindUnique id, ch => unlessFault ch w
      (.ok ((w.db.bookings.find id).map w.db.withRelations), w)
  | .transaction tx, ch => unlessFault ch w
      (runTransaction w (w.snapshot ch.snapshot) tx ch.newId ch.newToken)
  | .bookingUpdate id patch, ch => unlessFault ch w <|
      match w.db.bookings.find id with
      | none => (.error recordNotFound, w)
      | some b => (.ok (w.db.withRelations (patch.apply b)), w.write { w.db with
          bookings := w.db.bookings.update id patch.apply patch.apply_id })
  | .jobSend data, ch => unlessFault ch w (.ok (), { w with jobs := w.jobs ++ [{ data }] })
  | .jobRetry job, _ =>
      (.ok (), if job.retryCount < retryLimit then
        { w with jobs := w.jobs ++ [{ job with retryCount := job.retryCount + 1 }] } else w)
  | .integrationFindUnique coachId, ch => unlessFault ch w
      (.ok (w.db.googleIntegrations.find coachId), w)
  | .calendarInsert bookingId coachId input, ch => unlessFault ch w
      (.ok { id := if ch.answersId then some w.nextEventId else none,
             hangoutLink := ch.hangoutLink, videoUri := ch.videoUri },
        { w with
          calendar := w.calendar ++ [{ input with id := w.nextEventId, coachId, bookingId }]
          nextEventId := w.nextEventId + 1 })
  | .calendarDelete _ eventId, ch => unlessFault ch w
      (.ok (), { w with calendar := w.calendar.filter fun e => e.id ≠ eventId })
  | .sendEmail mail, ch => unlessFault ch w (.ok (), { w with mails := w.mails ++ [mail] })

/-- The operations of a run, each with the world it was issued in. -/
abbrev Trace := List (Prog.Entry World Ans Failure)

end CoachingCalendar
