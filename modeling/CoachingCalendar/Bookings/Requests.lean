import CoachingCalendar.Bookings.Lemmas.Cleanup

/-! # What holds of one request alone -/

namespace CoachingCalendar
open Lib Lib.Prog

variable {P : Platform}

/-! ## Google cannot block a request -/

/-- For a booking with an event, whatever Google answers: deleting the event does not fail exactly when the coach is
connected, and so a cancellation that passes its checks is carried out and queued. A reschedule that has committed its
new time is cleaned up and queued exactly when the booking is a Google Meet booking besides. -/
theorem google_blocks_nothing_iff {w : World} {b : Booking} {eventId : Nat} (he : b.googleEventId = some eventId)
    (env : Trace → Choice) :
    (((deleteEvent P b.coachId eventId).run execGoogle env w []).result = .ok () ↔ Connected P w.db b.coachId) ∧
    (∀ call : Call, call.PassesChecks w b →
      (CancelledAndQueued b w ((call.body P).run execGoogle env w []).world ↔ Connected P w.db b.coachId)) ∧
    ∀ token newStartAt, w.db.bookings.findFirst (fun b => b.manageToken = token) = some b →
      Commits ((BookingsService.rescheduleByClient P token newStartAt).run execGoogle env w []).trace →
      (ClearedAndQueued b w ((BookingsService.rescheduleByClient P token newStartAt).run execGoogle env w []).world ↔
        b.location = .googleMeet ∧ Connected P w.db b.coachId) := by
  refine ⟨?_, fun call h => cancel_ends he h env [], fun token newStartAt hfind hc =>
    reschedule_ends he hfind env w [] ⟨rfl, rfl⟩ hc⟩
  by_cases h : Connected P w.db b.coachId
  · have hr := (deleteEvent_returns h : Ends _ (deleteEvent P b.coachId eventId) w _) env []
    cases hd : ((deleteEvent P b.coachId eventId).run execGoogle env w []).result with
    | ok _ => exact ⟨fun _ => h, fun _ => rfl⟩
    | error _ => rw [hd] at hr; exact hr.elim
  · have hr := (deleteEvent_fails h : Ends _ (deleteEvent P b.coachId eventId) w _) env []
    cases hd : ((deleteEvent P b.coachId eventId).run execGoogle env w []).result with
    | ok _ => rw [hd] at hr; exact hr.elim
    | error _ => exact iff_of_false (by simp) h

/-- The sample booking with its event. -/
def Booking.sample : Booking where
  id := "b1"
  eventTypeId := "e1"
  coachId := "c1"
  startAt := 1773046800000
  endAt := 1773050400000
  location := .googleMeet
  clientName := "Anna"
  clientEmail := "anna@example.com"
  clientPhone := "+36"
  manageToken := "t1"
  googleEventId := some 0
  meetLink := some "https://meet.google.com/abc"

/-- The sample world with that booking. -/
def World.booked : World :=
  { World.sample with db := { Db.sample with bookings := ⟨[.sample], by decide⟩ }, nextEventId := 1 }

/-- Google refuses the deletion, and the coach cancels all the same. -/
theorem google_blocks_nothing_iff_refused :
    CancelledAndQueued .sample .booked ((Call.body .sample (.cancelByCoach .sample "b1" "ill")).run execGoogle
      (fun _ => { fault := some (.other "google") }) .booked []).world :=
  ((google_blocks_nothing_iff (P := .sample) (w := .booked) (b := .sample) rfl _).2.1
    (.cancelByCoach .sample "b1" "ill") ⟨rfl, .inl rfl, rfl⟩).mpr rfl

/-- The coach has disconnected Google since, and can cancel the booking no more. -/
theorem google_blocks_cancellation : ¬ ∀ (P : Platform) (w : World) (b : Booking) (eventId : Nat)
    (env : Trace → Choice) (call : Call), b.googleEventId = some eventId → call.PassesChecks w b →
    ((deleteEvent P b.coachId eventId).run execGoogle env w []).result = .ok () ∧
      CancelledAndQueued b w ((call.body P).run execGoogle env w []).world := by
  intro hall
  have h := (hall .sample { World.booked with db := { World.booked.db with googleIntegrations := .empty } } .sample 0
    (fun _ => {}) (.cancelByCoach .sample "b1" "ill") rfl ⟨rfl, .inl rfl, rfl⟩).1
  revert h
  decide

/-! ## The notice window -/

/-- The start that a request asks for. -/
def Call.requestedStart : Call → Option String
  | .create dto _ => some dto.startAt
  | .rescheduleByClient _ newStartAt => some newStartAt
  | _ => none

/-- The first time that the slot list offers for a coach. -/
def World.cutoff (w : World) (settings : Settings) : Int := w.clock + settings.cancellationNoticeHours * msPerHour

/-- The row of the booking does not start before the cutoff. -/
def StoredAfter (cutoff : Int) (w : World) (b : Booking) : Prop :=
  ∃ row, w.db.bookings.find b.id = some row ∧ cutoff ≤ row.startAt

/-- A request that succeeds stores the start that it asks for. -/
theorem stores_requestedStart {call : Call} {startAt : String} (hs : call.requestedStart = some startAt) {w : World}
    {env : Trace → Choice} {b : BookingWithRelations} (h : ((call.body P).run exec env w []).result = .ok (some b)) :
    ((call.body P).run exec env w []).world.db.bookings.find b.id = some b.toBooking ∧
      P.luxon.fromISO P.luxon.systemZone startAt = some b.startAt := by
  have hc : call.isRequest := by
    cases call with
    | work => cases hs
    | _ => rfl
  obtain ⟨_, hb, hdone⟩ := Call.body_done hc h
  cases hb
  refine ⟨hdone.change.row, ?_⟩
  have hd := hdone.describes
  cases call with
  | create dto originUrl =>
      cases hs
      exact hd.2.2.2.1
  | rescheduleByClient token newStartAt =>
      cases hs
      obtain ⟨b₀, -, -, -, t, ht, hb | hb⟩ := hd
      · exact ht.trans (congrArg some (congrArg Booking.startAt hb :).symm)
      · exact ht.trans (congrArg some (congrArg Booking.startAt hb :).symm)
  | _ => cases hs

/-- A request that succeeds keeps out of the notice window exactly when it asks to. The window is that of the settings of
the coach of the booking. -/
theorem outside_notice_iff {call : Call} {startAt : String} (hs : call.requestedStart = some startAt) {w : World}
    {env : Trace → Choice} {b : BookingWithRelations} {settings : Settings}
    (h : ((call.body P).run exec env w []).result = .ok (some b)) (_hsettings : w.db.settingsOf b.coachId = some settings) :
    StoredAfter (w.cutoff settings) ((call.body P).run exec env w []).world b.toBooking ↔
      ∃ t, P.luxon.fromISO P.luxon.systemZone startAt = some t ∧ w.cutoff settings ≤ t := by
  obtain ⟨hrow, ht⟩ := stores_requestedStart hs h
  constructor
  · rintro ⟨row, hf, hcut⟩
    cases hrow.symm.trans hf
    exact ⟨_, ht, hcut⟩
  · rintro ⟨t, ht', hcut⟩
    cases ht.symm.trans ht'
    exact ⟨_, hrow, hcut⟩

/-- What the sample request returns. -/
def BookingWithRelations.sample : BookingWithRelations :=
  Db.sample.withRelations { Booking.sample with id := "", manageToken := "", googleEventId := none, meetLink := none }

/-- A week ahead. -/
theorem outside_notice_iff_week :
    StoredAfter (World.sample.cutoff { coachId := "c1" })
      ((Call.body .sample (.create .sample none)).run exec (fun _ => {}) .sample []).world
      BookingWithRelations.sample.toBooking := by
  have hs : (Call.create .sample none).requestedStart = some "2026-03-09T09:00:00.000Z" := rfl
  have hok : ((Call.body .sample (.create .sample none)).run exec (fun _ => {}) .sample []).result =
      .ok (some .sample) := by decide
  exact (outside_notice_iff hs hok rfl).mpr ⟨1773046800000, rfl, by decide⟩

/-- An hour ahead, where the slot list offers nothing. -/
theorem not_outside_notice : ¬ ∀ (P : Platform) (w : World) (env : Trace → Choice) (call : Call) (startAt : String)
    (b : BookingWithRelations) (settings : Settings), call.requestedStart = some startAt →
    ((call.body P).run exec env w []).result = .ok (some b) → w.db.settingsOf b.coachId = some settings →
    StoredAfter (w.cutoff settings) ((call.body P).run exec env w []).world b.toBooking := by
  intro hall
  have hok : ((Call.body .sample (.create .sample none)).run exec (fun _ => {})
      { World.sample with clock := 1773043200000 } []).result = .ok (some .sample) := by decide
  have hs : (Call.create .sample none).requestedStart = some "2026-03-09T09:00:00.000Z" := rfl
  obtain ⟨row, hrow, hcut⟩ := hall .sample _ _ _ _ .sample { coachId := "c1" } hs hok rfl
  cases (stores_requestedStart hs hok).1.symm.trans hrow
  revert hcut
  decide

end CoachingCalendar
