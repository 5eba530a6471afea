import CoachingCalendar.Bookings.Lemmas.Cleanup
import CoachingCalendar.Slots.Lemmas

/-! # A reschedule that nothing disturbs -/

namespace CoachingCalendar
open Lib Lib.Prog

variable {P : Platform} {env : Trace → Choice} {ch : Choice} {w : World} {b : Booking} {settings : Settings}

/-- The transaction that a reschedule of the booking issues. -/
def Booking.transaction (b : Booking) (startAt : Int) : SlotTransaction where
  coachId := b.coachId
  startAt := startAt
  endAt := startAt + (b.endAt - b.startAt)
  excludeBookingId := some b.id
  locale := b.locale
  write := .move b.id

/-- An event of the booking can be deleted. -/
def Booking.CanUnlink (P : Platform) (db : Db) (b : Booking) : Prop :=
  b.location = .googleMeet → b.googleEventId.isSome → Connected P db b.coachId

/-! ## Checks -/

theorem SettingsService.get_row (henv : ∀ t, (env t).fault = none) (hS : w.db.settingsOf b.coachId = some settings)
    (hrow : w.db.settings.find b.coachId = some settings) :
    Runs exec env (SettingsService.get b.coachId) w (.ok settings) w := by
  obtain ⟨coach, hc, -⟩ := Option.map_eq_some_iff.mp hS
  have coachRuns : Runs exec env (perform (Op.coachFindUnique b.coachId)) w (.ok (some coach)) w :=
    .perform fun t => (unlessFault_none (henv t) _).trans (by rw [hc])
  exact .bind coachRuns (.perform fun t => (unlessFault_none (henv t) _).trans (by rw [hrow]))

theorem assertConfirmed_runs {locale : String} (hs : b.status = .confirmed) :
    Runs exec env (assertConfirmed b.status locale) w (.ok ()) w := by
  unfold assertConfirmed
  rw [if_neg (not_not.mpr hs)]
  exact .pure

theorem assertWithinNoticeWindow_runs {locale : String} (henv : ∀ t, (env t).fault = none)
    (hS : w.db.settingsOf b.coachId = some settings) (hrow : w.db.settings.find b.coachId = some settings)
    (hn : w.clock + settings.cancellationNoticeHours * msPerHour ≤ b.startAt) :
    Runs exec env (assertWithinNoticeWindow b.coachId b.startAt locale) w (.ok ()) w := by
  unfold assertWithinNoticeWindow
  refine .bind (SettingsService.get_row henv hS hrow) (.bind (.perform fun _ => rfl) ?_)
  rw [if_neg (Int.not_lt.mpr hn)]
  exact .pure

theorem findByManageToken_runs (henv : ∀ t, (env t).fault = none)
    (hfind : w.db.bookings.findFirst (fun x => x.manageToken = b.manageToken) = some b) :
    Runs exec env (BookingsService.findByManageToken b.manageToken) w (.ok (w.db.withRelations b)) w := by
  unfold BookingsService.findByManageToken
  refine .bind (.perform fun t => (unlessFault_none (henv t) _).trans (by rw [hfind])) ?_
  exact .pure

/-! ## The transaction and the Google part -/

theorem exec_move_free {tx : SlotTransaction} (hch : ch.Calm w) (hw : tx.write = .move b.id)
    (hb : w.db.bookings.find b.id = some b) (hfree : ∀ b ∈ w.db.bookings, tx.conflicts b = false) :
    ∃ w', exec w (.transaction tx) ch = (.ok (w.db.withRelations (moveTo tx.startAt tx.endAt b)), w') ∧
      w'.db.bookings.find b.id = some (moveTo tx.startAt tx.endAt b) ∧
      w'.db.googleIntegrations = w.db.googleIntegrations := by
  have hsnap : w.snapshot ch.snapshot = w.db := by rw [hch.snapshot]; rfl
  have hnone : w.db.bookings.findFirst tx.conflicts = none := Table.findFirst_none.mpr hfree
  refine ⟨w.commit { w.db with bookings := w.db.bookings.update b.id (moveTo tx.startAt tx.endAt) (moveTo_id _ _) },
    (unlessFault_none hch.fault _).trans ?_, Table.find_update_found (moveTo_id _ _) hb, rfl⟩
  simp [runTransaction, hsnap, hnone, hw, hb]

theorem reserveSlot_moves_runs {tx : SlotTransaction} {timezone : String} (hch : ch.Calm w) (hw : tx.write = .move b.id)
    (hb : w.db.bookings.find b.id = some b) (h : Bookable P (P.luxon.zone timezone) w.db tx) :
    ∃ w', Runs exec (fun _ => ch) (runSerializable (reserveSlot P tx timezone)) w
        (.ok (w.db.withRelations (moveTo tx.startAt tx.endAt b))) w' ∧
      w'.db.bookings.find b.id = some (moveTo tx.startAt tx.endAt b) ∧
      w'.db.googleIntegrations = w.db.googleIntegrations := by
  obtain ⟨w', hx, hrow, hg⟩ := exec_move_free hch hw hb h.2
  have hwithin := assertWithinSchedule_runs (P := P) (w := w) (fun _ : Trace => hch.fault) tx.coachId
    tx.startAt tx.endAt timezone tx.locale
  rw [if_pos (List.any_eq_true.mpr (by simpa only [candidate_within] using h.1))] at hwithin
  exact ⟨w', runSerializable_ok (.bind hwithin (.perform fun _ => hx)), hrow, hg⟩

theorem getAuthenticatedClient_runs (coachId : String) (henv : ∀ t, (env t).fault = none) :
    ∃ r, Runs exec env (getAuthenticatedClient P coachId) w r w ∧
      (Connected P w.db coachId ↔ ∃ token, r = .ok token) := by
  have lookup : Runs exec env (perform (Op.integrationFindUnique coachId)) w
      (.ok (w.db.googleIntegrations.find coachId)) w := .perform fun t => unlessFault_none (henv t) _
  unfold getAuthenticatedClient Connected connected
  cases hf : w.db.googleIntegrations.find coachId with
  | none => exact ⟨_, .bind (hf ▸ lookup) .throw, by simp⟩
  | some g =>
      cases hd : P.decrypt g.refreshTokenEncrypted with
      | none =>
          refine ⟨.error (.other "decrypt"), .bind (hf ▸ lookup) ?_, by simp [hd]⟩
          dsimp only
          rw [hd]
          exact .throw
      | some token =>
          refine ⟨.ok token, .bind (hf ▸ lookup) ?_, by simp [hd]⟩
          dsimp only
          rw [hd]
          exact .pure

theorem bookingUpdate_runs {patch : BookingPatch} (henv : ∀ t, (env t).fault = none)
    (hb : w.db.bookings.find b.id = some b) :
    ∃ w', Runs exec env (perform (Op.bookingUpdate b.id patch)) w (.ok (w.db.withRelations (patch.apply b))) w' ∧
      w'.db.bookings.find b.id = some (patch.apply b) := by
  refine ⟨w.write { w.db with bookings := w.db.bookings.update b.id patch.apply patch.apply_id },
    .perform fun t => (unlessFault_none (henv t) _).trans ?_, Table.find_update_found patch.apply_id hb⟩
  rw [hb]

/-- The Google part leaves the new time alone, and goes through when the event can be deleted. -/
theorem dropMeetLink_runs {u : BookingWithRelations} (henv : ∀ t, (env t).fault = none)
    (hrow : w.db.bookings.find u.id = some u.toBooking) (hlink : u.toBooking.CanUnlink P w.db) :
    ∃ u' w', Runs exec env (BookingsService.dropMeetLink P u) w (.ok u') w' ∧
      w'.db.bookings.find u.id = some u'.toBooking ∧ u'.startAt = u.startAt ∧ u'.endAt = u.endAt := by
  unfold BookingsService.dropMeetLink
  split
  · rename_i eventId hl he
    obtain ⟨r, hclient, hiff⟩ := getAuthenticatedClient_runs (P := P) (w := w) u.coachId henv
    obtain ⟨token, rfl⟩ := hiff.mp (hlink hl (by rw [he]; rfl))
    have hdelete : Runs exec env (deleteEvent P u.coachId eventId) w (.ok ())
        { w with calendar := w.calendar.filter fun e => e.id ≠ eventId } :=
      .bind hclient (.orElse_ok (.perform fun t => unlessFault_none (henv t) _))
    obtain ⟨w', hupdate, hrow'⟩ := bookingUpdate_runs
      (w := { w with calendar := w.calendar.filter fun e => e.id ≠ eventId }) (b := u.toBooking) henv hrow
    exact ⟨_, w', .bind hdelete hupdate, hrow', rfl, rfl⟩
  · exact ⟨u, w, .pure, hrow, rfl, rfl⟩

theorem dropMeetLink_fails {u : BookingWithRelations} (henv : ∀ t, (env t).fault = none)
    (hlink : ¬ u.toBooking.CanUnlink P w.db) :
    ∃ e w', Runs exec env (BookingsService.dropMeetLink P u) w (.error e) w' := by
  unfold Booking.CanUnlink at hlink
  push Not at hlink
  obtain ⟨hl, he, hnot⟩ := hlink
  obtain ⟨eventId, he⟩ := Option.isSome_iff_exists.mp he
  obtain ⟨r, hclient, hiff⟩ := getAuthenticatedClient_runs (P := P) (w := w) u.coachId henv
  unfold BookingsService.dropMeetLink
  rw [hl, he]
  cases r with
  | ok token => exact absurd (hiff.mpr ⟨token, rfl⟩) hnot
  | error e => exact ⟨e, w, .bind_error (.bind_error hclient)⟩

/-! ## The request -/

section Request

variable {newStartAt : String} {startAt : Int} {Z : Zone}
variable (hch : ch.Calm w) (hfind : w.db.bookings.findFirst (fun x => x.manageToken = b.manageToken) = some b)
variable (hs : b.status = .confirmed) (hS : w.db.settingsOf b.coachId = some settings)
variable (hrow : w.db.settings.find b.coachId = some settings) (hZ : P.luxon.zone settings.businessTimezone = Z)
variable (hn : w.clock + settings.cancellationNoticeHours * msPerHour ≤ b.startAt)
variable (hT : P.luxon.fromISO P.luxon.systemZone newStartAt = some startAt) (hnow : w.clock ≤ startAt)
variable (hday : Z.date startAt = Z.date (startAt + (b.endAt - b.startAt)))
variable (h : Bookable P Z w.db (b.transaction startAt))
include hch hfind hs hS hrow hZ hn hT hnow hday h

theorem reschedule_moves : ∃ u w₁, w₁.db.bookings.find b.id = some u.toBooking ∧
    u.toBooking = moveTo startAt (startAt + (b.endAt - b.startAt)) b ∧
    (Connected P w₁.db b.coachId ↔ Connected P w.db b.coachId) ∧
    ∀ r w', Runs exec (fun _ => ch) ((BookingsService.dropMeetLink P u).bind fun updated =>
        (BookingsService.enqueue updated .rescheduled).bind fun _ => .pure updated) w₁ r w' →
      Runs exec (fun _ => ch) (BookingsService.rescheduleByClient P b.manageToken newStartAt) w r w' := by
  subst hZ
  have hb : w.db.bookings.find b.id = some b := Table.find_some.mpr ⟨(Table.findFirst_some hfind).1, rfl⟩
  have henv : ∀ _ : Trace, ch.fault = none := fun _ => hch.fault
  obtain ⟨w₁, hreserve, hrow₁, hg⟩ := reserveSlot_moves_runs hch rfl hb h
  refine ⟨w.db.withRelations (moveTo startAt (startAt + (b.endAt - b.startAt)) b), w₁, hrow₁, rfl,
    by unfold Connected; rw [hg], fun r w' hrest => ?_⟩
  unfold BookingsService.rescheduleByClient
  refine .bind (findByManageToken_runs henv hfind) (.bind (assertConfirmed_runs hs) ?_)
  refine .bind (assertWithinNoticeWindow_runs henv hS hrow hn) (.bind (SettingsService.get_row henv hS hrow) ?_)
  exact .bind (parseStartAt_runs hT hnow) (.bind (assertSameCalendarDay_runs hday) (.bind hreserve hrest))

theorem reschedule_succeeds (hlink : b.CanUnlink P w.db) : ∃ u w', Runs exec (fun _ => ch)
    (BookingsService.rescheduleByClient P b.manageToken newStartAt) w (.ok u) w' ∧
    w'.db.bookings.find b.id = some u.toBooking ∧ u.startAt = startAt ∧ u.endAt = startAt + (b.endAt - b.startAt) := by
  obtain ⟨u, w₁, hrow₁, hu, hconn, hrun⟩ := reschedule_moves hch hfind hs hS hrow hZ hn hT hnow hday h
  have hid : u.id = b.id := (congrArg Booking.id hu :)
  have hcoach : u.coachId = b.coachId := (congrArg Booking.coachId hu :)
  have hlink₁ : u.toBooking.CanUnlink P w₁.db := by
    intro hl he
    rw [hcoach]
    exact hconn.mpr (hlink ((congrArg Booking.location hu :).symm.trans hl)
      ((congrArg (Option.isSome ∘ Booking.googleEventId) hu :).symm.trans he))
  have henv : ∀ _ : Trace, ch.fault = none := fun _ => hch.fault
  obtain ⟨u', w', hdrop, hrow', hstart, hend⟩ := dropMeetLink_runs henv (hid ▸ hrow₁) hlink₁
  refine ⟨u', _, hrun _ _ (.bind hdrop (.bind (enqueue_runs henv _ _) .pure)), hid ▸ hrow', hstart.trans ?_,
    hend.trans ?_⟩
  · exact (congrArg Booking.startAt hu :)
  · exact (congrArg Booking.endAt hu :)

theorem reschedule_fails (hlink : ¬ b.CanUnlink P w.db) : ∃ e w', Runs exec (fun _ => ch)
    (BookingsService.rescheduleByClient P b.manageToken newStartAt) w (.error e) w' := by
  obtain ⟨u, w₁, -, hu, hconn, hrun⟩ := reschedule_moves hch hfind hs hS hrow hZ hn hT hnow hday h
  have hcoach : u.coachId = b.coachId := (congrArg Booking.coachId hu :)
  have hlink₁ : ¬ u.toBooking.CanUnlink P w₁.db := by
    refine fun hcan => hlink fun hl he => hconn.mp ?_
    rw [← hcoach]
    exact hcan ((congrArg Booking.location hu :).trans hl)
      ((congrArg (Option.isSome ∘ Booking.googleEventId) hu :).trans he)
  obtain ⟨e, w', hdrop⟩ := dropMeetLink_fails (fun _ : Trace => hch.fault) hlink₁
  exact ⟨e, w', hrun _ _ (.bind_error hdrop)⟩

end Request

end CoachingCalendar
