import CoachingCalendar.Bookings.Lemmas.Scope
import CoachingCalendar.Bookings.Reading

/-! # Bookings are placed by what was read -/

namespace CoachingCalendar
open Lib Lib.Prog

variable {P : Platform} {s : Reading} {settings : Settings}

namespace Reading

/-- The transaction is of the coach whose settings were read, it is on one date of their timezone, and every database
that would give the same answers has it in the schedule. -/
structure Cleared (P : Platform) (s : Reading) (tx : SlotTransaction) (settings : Settings) : Prop where
  read : s.settings = some settings
  coachId : settings.coachId = tx.coachId
  sameDay : (P.luxon.zone settings.businessTimezone).date tx.startAt =
    (P.luxon.zone settings.businessTimezone).date tx.endAt
  within : ∀ d : Db, (∀ e ∈ s.attempt, d.answers e) →
    ∃ r ∈ effectiveRanges P (P.luxon.zone settings.businessTimezone) d tx.coachId
        ((P.luxon.zone settings.businessTimezone).date tx.startAt),
      r.contains (candidate P.luxon (P.luxon.zone settings.businessTimezone) tx.startAt tx.endAt) = true

def protocol (P : Platform) : Protocol Ans Failure Reading where
  answers
    | .settingsUpsert coachId, r => ∀ settings, r = .ok settings → settings.coachId = coachId
    | _, _ => True
  next := next
  allowed s
    | .transaction tx => s.placed = none ∧ ∃ settings, s.Cleared P tx settings
    | _ => True

/-- It has read the settings and committed nothing yet. -/
structure Ready (settings : Settings) (s : Reading) : Prop where
  settings : s.settings = some settings
  placed : s.placed = none

/-! ## Lookups -/

theorem get_follows (coachId : String) (hs : s.placed = none) :
    (SettingsService.get coachId).Follows (protocol P) (fun s' r => s'.placed = none ∧
      ∀ settings, r = .ok settings → s'.Ready settings ∧ settings.coachId = coachId) s := by
  unfold SettingsService.get
  refine .perform_bind trivial (fun coach _ => ?_) fun e _ => ⟨hs, nofun⟩
  dsimp only
  split
  · exact ⟨hs, nofun⟩
  · refine follows_perform.mpr ⟨trivial, fun r hr => ?_⟩
    cases r with
    | error e => exact ⟨hs, nofun⟩
    | ok settings => exact ⟨hs, fun _ h => by cases h; exact ⟨⟨rfl, hs⟩, hr settings rfl⟩⟩

theorem assertWithinNoticeWindow_follows (coachId : String) (startAt : Int) (locale : String)
    (hs : s.placed = none) :
    (assertWithinNoticeWindow coachId startAt locale).Follows (protocol P) (fun s' _ => s'.placed = none) s := by
  unfold assertWithinNoticeWindow
  rw [bind_eq, follows_bind]
  refine (get_follows coachId hs).mono fun s' r hr => ?_
  cases r with
  | error e => exact hr.1
  | ok settings =>
      refine .perform_bind trivial (fun now _ => ?_) fun e _ => hr.1
      split
      · exact hr.1
      · exact hr.1

theorem parseStartAt_follows (hs : s.Ready settings) (startAt locale : String) :
    (parseStartAt P startAt locale).Follows (protocol P) (fun s' _ => s'.Ready settings) s := by
  unfold parseStartAt
  split
  · exact hs
  · refine .perform_bind trivial (fun now _ => ?_) fun e _ => ⟨hs.settings, hs.placed⟩
    dsimp only
    split
    · exact ⟨hs.settings, hs.placed⟩
    · exact ⟨hs.settings, hs.placed⟩

theorem getEffectiveRangesForDate_follows (hs : s.Ready settings) (coachId : String) (isoDate : Int) :
    (getEffectiveRangesForDate P coachId isoDate settings.businessTimezone).Follows (protocol P) (fun s' r => s'.Ready settings ∧
      ∀ ranges, r = .ok ranges → ∀ d, (∀ e ∈ s'.attempt, d.answers e) →
        effectiveRanges P (P.luxon.zone settings.businessTimezone) d coachId isoDate = ranges) s := by
  unfold getEffectiveRangesForDate
  refine .perform_bind trivial (fun overrides _ => ?_) fun e _ => ⟨⟨hs.settings, hs.placed⟩, fun _ h => by cases h⟩
  dsimp only
  cases overrides with
  | cons o os =>
      refine ⟨⟨hs.settings, hs.placed⟩, fun ranges h d hd => ?_⟩
      cases h
      have ho : d.overrides.findMany _ = o :: os := of_decide_eq_true (hd _ List.mem_cons_self)
      rw [effectiveRanges, ho]
  | nil =>
      refine .perform_bind trivial (fun weekly _ => ⟨⟨hs.settings, hs.placed⟩, fun ranges h d hd => ?_⟩)
        fun e _ => ⟨⟨hs.settings, hs.placed⟩, fun _ h => by cases h⟩
      cases h
      have hw : d.weeklyAvailabilities.findMany _ = weekly := of_decide_eq_true (hd _ List.mem_cons_self)
      have ho : d.overrides.findMany _ = [] := of_decide_eq_true (hd _ (List.mem_cons_of_mem _ List.mem_cons_self))
      rw [effectiveRanges, ho, ← hw]

theorem assertWithinSchedule_follows (hs : s.Ready settings) (coachId : String) (startAt endAt : Int)
    (locale : String) :
    (assertWithinSchedule P coachId startAt endAt settings.businessTimezone locale).Follows (protocol P) (fun s' r =>
      s'.Ready settings ∧ (r = .ok () → ∀ d, (∀ e ∈ s'.attempt, d.answers e) →
        ∃ r ∈ effectiveRanges P (P.luxon.zone settings.businessTimezone) d coachId
            ((P.luxon.zone settings.businessTimezone).date startAt),
          r.contains (candidate P.luxon (P.luxon.zone settings.businessTimezone) startAt endAt) = true)) s := by
  unfold assertWithinSchedule isWithinEffectiveRange
  dsimp only
  rw [bind_eq, bind_eq, follows_bind, follows_bind]
  refine (getEffectiveRangesForDate_follows hs _ _).mono fun s' r hr => ?_
  cases r with
  | error e => exact ⟨hr.1, nofun⟩
  | ok ranges =>
      show Follows _ _ _ (ite _ _ _)
      split
      · exact ⟨hr.1, nofun⟩
      · rename_i hany
        refine ⟨hr.1, fun _ d hd => ?_⟩
        rw [hr.2 ranges rfl d hd]
        simpa using hany

/-! ## Transactions -/

theorem reserveSlot_follows {tx : SlotTransaction} (hs : s.Ready settings) (hco : settings.coachId = tx.coachId)
    (hday : (P.luxon.zone settings.businessTimezone).date tx.startAt = (P.luxon.zone settings.businessTimezone).date tx.endAt) :
    (reserveSlot P tx settings.businessTimezone).Follows (protocol P) (fun s' r => ∀ e, r = .error e → s'.Ready settings) s := by
  unfold reserveSlot
  rw [bind_eq, follows_bind]
  refine (assertWithinSchedule_follows hs _ _ _ _).mono fun s' r hr => ?_
  cases r with
  | error e => exact fun _ _ => hr.1
  | ok _ =>
      refine follows_perform.mpr ⟨⟨hr.1.placed, settings, hr.1.settings, hco, hday, hr.2 rfl⟩, fun r _ => ?_⟩
      cases r with
      | ok b => nofun
      | error e => exact fun _ _ => ⟨hr.1.settings, hr.1.placed⟩

theorem runSerializable_follows {tx : SlotTransaction} (hs : s.Ready settings) (hco : settings.coachId = tx.coachId)
    (hday : (P.luxon.zone settings.businessTimezone).date tx.startAt = (P.luxon.zone settings.businessTimezone).date tx.endAt) :
    (runSerializable (reserveSlot P tx settings.businessTimezone)).Follows (protocol P) (fun _ _ => True) s := by
  refine (runSerializableFrom_again (I := Ready settings) (Q := fun _ _ => True) _ _ (fun s hs => ?_) hs).mono
    fun _ _ _ => trivial
  exact (reserveSlot_follows hs hco hday).mono fun s' r hr => ⟨hr, fun _ _ => trivial⟩

/-! ## Calls -/

theorem of_scope {α : Type} {p : BookingProg α} {mails : Bool}
    (h : p.Follows (scope false mails) (fun _ _ => True) ()) : p.Follows (protocol P) (fun _ _ => True) s := by
  refine h.transfer (fun _ o ha s' => ?_) fun _ _ _ => trivial
  cases o with
  | transaction tx => cases ha
  | _ => exact trivial

theorem of_still {α : Type} {p : BookingProg α} (h : p.Still (scope false false) ()) :
    p.Follows (protocol P) (fun _ _ => True) s :=
  of_scope (h.follows fun _ => trivial)

/-- From the settings on, the two requests that place a booking are alike. -/
theorem place_follows {coachId locale startAt : String} {endOf : Int → Int} {tx : Settings → Int → SlotTransaction}
    {g : BookingWithRelations → BookingProg BookingWithRelations} (hs : s.placed = none)
    (htx : ∀ settings start, (tx settings start).coachId = coachId ∧ (tx settings start).startAt = start ∧
      (tx settings start).endAt = endOf start)
    (hg : ∀ b, (g b).Still (scope false false) ()) :
    ((SettingsService.get coachId).bind fun settings => (parseStartAt P startAt locale).bind fun start =>
      (assertSameCalendarDay start (endOf start) (P.luxon.zone settings.businessTimezone) locale).bind fun _ =>
      (runSerializable (reserveSlot P (tx settings start) settings.businessTimezone)).bind g).Follows (protocol P)
        (fun _ _ => True) s := by
  rw [follows_bind]
  refine (get_follows coachId hs).mono fun s' r hr => ?_
  cases r with
  | error e => exact trivial
  | ok settings =>
      show Follows _ _ _ (Prog.bind _ _)
      rw [follows_bind]
      obtain ⟨hready, hco⟩ := hr.2 settings rfl
      refine (parseStartAt_follows hready _ _).mono fun s' r hr => ?_
      cases r with
      | error e => exact trivial
      | ok start =>
          show Follows _ _ _ (Prog.bind (assertSameCalendarDay start (endOf start) _ locale) _)
          unfold assertSameCalendarDay
          split
          · exact trivial
          · rename_i hday
            obtain ⟨hc, hstart, hend⟩ := htx settings start
            refine (runSerializable_follows hr (hco.trans hc.symm) ?_).seq fun _ b => of_still (hg b)
            rw [hstart, hend]
            exact not_not.mp hday

theorem create_follows (dto : CreateBookingDto) (originUrl : Option String) (hs : s.placed = none) :
    (BookingsService.create P dto originUrl).Follows (protocol P) (fun _ _ => True) s := by
  unfold BookingsService.create
  refine .perform_bind trivial (fun eventType _ => ?_) fun _ _ => trivial
  cases eventType with
  | none => exact trivial
  | some eventType =>
      dsimp only
      split
      · exact trivial
      split
      · exact trivial
      refine place_follows ?_ (fun _ _ => ⟨rfl, rfl, rfl⟩) fun b => .bind (enqueue_scope _ _) fun _ => .pure
      exact hs

theorem rescheduleByClient_follows (token newStartAt : String) (hs : s.placed = none) :
    (BookingsService.rescheduleByClient P token newStartAt).Follows (protocol P) (fun _ _ => True) s := by
  unfold BookingsService.rescheduleByClient BookingsService.findByManageToken
  rw [bind_eq, bind_eq, bind_assoc]
  refine .perform_bind trivial (fun b _ => ?_) fun _ _ => trivial
  cases b with
  | none => exact trivial
  | some b =>
      show Follows _ _ _ (Prog.bind (assertConfirmed _ _) _)
      refine assertConfirmed_follows (fun _ => ?_) fun _ => trivial
      rw [bind_eq, follows_bind]
      refine (assertWithinNoticeWindow_follows _ _ _ ?_).mono fun s' r hr => ?_
      · exact hs
      · cases r with
        | error e => exact trivial
        | ok _ =>
            show Follows _ _ s' _
            refine place_follows hr (fun _ _ => ⟨rfl, rfl, rfl⟩) fun updated => ?_
            exact .bind (dropMeetLink_scope _) fun _ => .bind (enqueue_scope _ _) fun _ => .pure

theorem body_follows (call : Call) : (call.body P).Follows (protocol P) (fun _ _ => True) {} := by
  cases call with
  | create dto originUrl => exact .seq (create_follows _ _ rfl) fun _ _ => trivial
  | rescheduleByClient token newStartAt => exact .seq (rescheduleByClient_follows _ _ rfl) fun _ _ => trivial
  | cancelByClient token reason => exact of_scope (Call.body_scope (.cancelByClient token reason))
  | cancelByCoach coach bookingId reason => exact of_scope (Call.body_scope (.cancelByCoach coach bookingId reason))
  | work job => exact of_scope (Call.body_scope (.work job))

theorem exec_answers (w : World) (o : Op) (ch : Choice) : (protocol P).answers o (exec w o ch).1 := by
  cases o with
  | settingsUpsert coachId =>
      intro settings h
      exact (exec_settingsUpsert (Prod.ext h rfl)).1
  | _ => exact trivial

theorem run_follows {admits : Statement → Prop} {w : World} {c : BookingConfig} {G : BookingGuard} {i : Nat}
    {th : BookingThread} (h : (calendarSystem P admits).Run G (.start w) c) (hi : c.threads[i]? = some th) :
    th.prog.Follows (protocol P) (fun _ _ => True) (c.reading i) :=
  h.follows (R := fun _ => protocol P) (fun _ => rfl) body_follows (fun _ => exec_answers) i th hi

end Reading

end CoachingCalendar
