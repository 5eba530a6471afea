import CoachingCalendar.Bookings.System

/-!
# Conditions on runs

What a run may be asked to avoid, and the part of a booking that a cancellation fixes.
-/

namespace CoachingCalendar
open Lib Lib.System

/-- The columns that a cancellation fixes. -/
structure Outcome where
  status : BookingStatus
  startAt : Int
  endAt : Int
  cancelledBy : Option CancelledBy
  cancellationReason : Option String
  deriving DecidableEq, Repr

def Booking.outcome (b : Booking) : Outcome :=
  ⟨b.status, b.startAt, b.endAt, b.cancelledBy, b.cancellationReason⟩

/-! ## Cancellations -/

/-- No cancellation of the booking is committed between the read of a call and its cancelling or moving
write. -/
def noCancelBetween : BookingGuard where
  call _ := True
  event c e := ∀ id, cancels id e ∨ moves id e →
    ∀ x ∈ since (fun x => x.tid = e.tid && reads id x) c.log, cancels id x = false

/-! ## Calendar events -/

/-- A request that wants to delete an event finds the integration, and the deletion takes effect. -/
def deleteTakesEffect (P : Platform) (c : BookingConfig) : BookingEntry → Bool
  | ⟨⟨.integrationFindUnique _, r⟩, i⟩ => !c.threads[i]?.any (·.call.isRequest) || connected P r
  | ⟨⟨.calendarDelete _ _, .error _⟩, _⟩ => false
  | _ => true

/-- A job does not fail between creating an event and storing its number. -/
def eventIsStored : BookingEntry → Bool
  | ⟨⟨.calendarInsert _ _ _, .ok data⟩, _⟩ => data.result.isSome
  | ⟨⟨.bookingUpdate _ patch, .error _⟩, _⟩ => !patch.stores
  | _ => true

/-- Nobody else moves the booking or stores an event with it between a job's read of the booking and
the job storing its own event, and nobody stores an event with it between a reschedule's transaction
and the reschedule clearing the number. -/
structure Undisturbed (c : BookingConfig) (e : BookingEntry) : Prop where
  job : ∀ id, stores id e → ∀ x ∈ since (fun x => x.tid = e.tid && reads id x) c.log,
    moves id x = false ∧ stores id x = false
  reschedule : ∀ id, clears id e → ∀ x ∈ since (fun x => x.tid = e.tid && moves id x) c.log,
    stores id x = false

def deletesTakeEffect (P : Platform) : BookingGuard where
  call _ := True
  event c e := deleteTakesEffect P c e

def noMeetOverlap (P : Platform) : BookingGuard where
  call _ := True
  event c e := deleteTakesEffect P c e ∧ eventIsStored e ∧ Undisturbed c e

/-! ## Notifications -/

/-- It says that the booking is on. -/
def NotificationKind.live : NotificationKind → Bool
  | .cancelled => false
  | _ => true

/-- A job that says that the booking is on. -/
def Job.announces (id : String) (job : Job) : Bool := job.data.kind.live && job.data.bookingId = id

/-- A worker that has its job and has not looked at the booking yet. -/
def yetToLook (id : String) (past : List (Event Ans Failure)) : BookingThread → Bool
  | ⟨.work job, .op _ _⟩ => past.isEmpty && job.announces id
  | _ => false

/-- A job that says that the booking is on is queued, or in the hands of a worker that has not looked at
the booking yet. -/
def waiting (c : BookingConfig) (id : String) : Bool :=
  c.world.jobs.any (·.announces id) || (List.range c.threads.length).any fun i =>
    c.threads[i]?.any (yetToLook id (c.past i))

/-- The booking of a job that says it is on and was put into the queue. -/
def queuedFor : BookingEntry → Option String
  | ⟨⟨.jobSend data, .ok _⟩, _⟩ => if data.kind.live then some data.bookingId else none
  | ⟨⟨.jobRetry job, _⟩, _⟩ =>
      if job.retryCount < retryLimit ∧ job.data.kind.live then some job.data.bookingId else none
  | _ => none

/-- No booking is cancelled while a job that says it is on waits, and no such job is queued for a booking
that is cancelled. -/
def noneWaitsOnceCancelled : BookingGuard where
  call _ := True
  event c e := (∀ id, cancels id e → waiting c id = false) ∧
    ∀ id ∈ queuedFor e, ∀ b ∈ c.world.db.bookings.find id, b.status ≠ .cancelled

/-- It created a calendar event for the booking, or sent a mail that says that the booking is on. -/
def announces (id : String) : Event Ans Failure → Bool
  | ⟨.calendarInsert bookingId _ _, .ok _⟩ => bookingId = id
  | ⟨.sendEmail mail, .ok _⟩ => mail.kind.live && mail.bookingId = id
  | _ => false

/-- The booking that a call found. -/
def found (past : List (Event Ans Failure)) : Option Booking := past.findSome? readRow

/-- Google gives the job no event. -/
def googleRefuses (P : Platform) : Event Ans Failure → Bool
  | ⟨.integrationFindUnique _, r⟩ => !connected P r
  | ⟨.calendarInsert _ _ _, .error _⟩ => true
  | _ => false

/-- The settings that the mails need cannot be read. -/
def settingsRefused : Event Ans Failure → Bool
  | ⟨.coachFindUnique _, .ok (some _)⟩ => false
  | ⟨.coachFindUnique _, _⟩ => true
  | ⟨.settingsUpsert _, .error _⟩ => true
  | _ => false

def mailRefused (recipient : Recipient) : Event Ans Failure → Bool
  | ⟨.sendEmail mail, .error _⟩ => mail.recipient = recipient
  | _ => false

/-- An attempt at a job that a service stops before it has announced its booking: Google when the booking
still needs a Meet link, and the settings or the mail service otherwise. -/
def stopped (P : Platform) (b : Booking) (past : List (Event Ans Failure)) : Bool :=
  if b.location = .googleMeet ∧ truthy b.meetLink = false then past.any (googleRefuses P)
  else past.any settingsRefused || (past.any (mailRefused .client) && past.any (mailRefused .coach))

/-! ## The conditions can be checked -/

theorem forall_patches {kind : BookingPatch → Bool} {e : BookingEntry} {Q : String → Prop} :
    (∀ id ∈ bookingPatched kind e, Q id) ↔ ∀ id, patches kind id e → Q id := by
  simp [patches]

theorem forall_moves {e : BookingEntry} {Q : String → Prop} :
    (∀ id ∈ bookingMoved e, Q id) ↔ ∀ id, moves id e → Q id := by
  simp [moves]

variable (P : Platform) (c : BookingConfig) (e : BookingEntry)

instance (call : Call) : Decidable (noCancelBetween.call call) := .isTrue trivial
instance (call : Call) : Decidable ((deletesTakeEffect P).call call) := .isTrue trivial
instance (call : Call) : Decidable ((noMeetOverlap P).call call) := .isTrue trivial

instance : Decidable (noCancelBetween.event c e) :=
  decidable_of_iff
    ((∀ id ∈ bookingPatched BookingPatch.cancels e,
        ∀ x ∈ since (fun x : BookingEntry => x.tid = e.tid && reads id x) c.log, cancels id x = false) ∧
      ∀ id ∈ bookingMoved e,
        ∀ x ∈ since (fun x : BookingEntry => x.tid = e.tid && reads id x) c.log, cancels id x = false)
    (by rw [forall_patches, forall_moves, ← forall_and]
        exact forall_congr' fun _ => or_imp.symm)

instance (call : Call) : Decidable (noneWaitsOnceCancelled.call call) := .isTrue trivial

instance : Decidable (noneWaitsOnceCancelled.event c e) :=
  decidable_of_iff
    ((∀ id ∈ bookingPatched BookingPatch.cancels e, waiting c id = false) ∧
      ∀ id ∈ queuedFor e, ∀ b ∈ c.world.db.bookings.find id, b.status ≠ .cancelled)
    (by rw [forall_patches]; exact Iff.rfl)

instance : Decidable ((deletesTakeEffect P).event c e) :=
  inferInstanceAs (Decidable (deleteTakesEffect P c e = true))

instance : Decidable (Undisturbed c e) :=
  decidable_of_iff
    ((∀ id ∈ bookingPatched BookingPatch.stores e,
        ∀ x ∈ since (fun x : BookingEntry => x.tid = e.tid && reads id x) c.log,
          moves id x = false ∧ stores id x = false) ∧
      ∀ id ∈ bookingPatched BookingPatch.clears e,
        ∀ x ∈ since (fun x : BookingEntry => x.tid = e.tid && moves id x) c.log, stores id x = false)
    (by rw [forall_patches, forall_patches]; exact ⟨fun h => ⟨h.1, h.2⟩, fun h => ⟨h.1, h.2⟩⟩)

instance : Decidable ((noMeetOverlap P).event c e) :=
  inferInstanceAs (Decidable (deleteTakesEffect P c e = true ∧ eventIsStored e = true ∧ Undisturbed c e))

end CoachingCalendar
