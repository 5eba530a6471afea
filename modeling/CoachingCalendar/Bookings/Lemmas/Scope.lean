import CoachingCalendar.Bookings.Lemmas.Protocol

/-! # What calls never do -/

namespace CoachingCalendar
open Lib Lib.Prog

variable {P : Platform}

/-- The calls that issue a booking transaction. -/
def Call.reserves : Call → Bool
  | .create _ _ | .rescheduleByClient _ _ => true
  | _ => false

/-- No booking transactions and no mails, unless they are asked for. -/
def scope (reserves mails : Bool) : Protocol Ans Failure Unit where
  answers _ _ := True
  next _ _ := ()
  allowed _
    | .transaction _ => reserves
    | .sendEmail _ => mails
    | _ => True

/-- Cancellations and jobs issue no transaction, and requests send no mail. -/
abbrev Call.scope (call : Call) : Protocol Ans Failure Unit :=
  CoachingCalendar.scope call.reserves !call.isRequest

variable {reserves mails : Bool}

theorem scope_ignores : Ignores (scope reserves mails) () := by
  intro o ho
  cases o with
  | now | eventTypeFindUnique | coachFindUnique | settingsUpsert | overrideFindMany | weeklyFindMany =>
      exact ⟨trivial, fun _ => rfl⟩
  | _ => cases ho

/-! ## Parts -/

theorem getAuthenticatedClient_scope (coachId : String) :
    (getAuthenticatedClient P coachId).Still (scope reserves mails) () := by
  unfold getAuthenticatedClient
  refine .bind (.perform trivial fun _ => rfl) fun integration => ?_
  split
  · exact .throw
  · split
    · exact .throw
    · exact .pure

theorem deleteEvent_scope (coachId : String) (eventId : Nat) :
    (deleteEvent P coachId eventId).Still (scope reserves mails) () :=
  .bind (getAuthenticatedClient_scope _) fun _ => .orElse (.perform trivial fun _ => rfl) fun _ => .pure

theorem findByManageToken_scope (token : String) :
    (BookingsService.findByManageToken token).Still (scope reserves mails) () := by
  unfold BookingsService.findByManageToken
  refine .bind (.perform trivial fun _ => rfl) fun booking => ?_
  split
  · exact .throw
  · exact .pure

theorem assertConfirmed_scope (status : BookingStatus) (locale : String) :
    (assertConfirmed status locale).Still (scope reserves mails) () := by
  unfold assertConfirmed
  split
  · exact .throw
  · exact .pure

theorem enqueue_scope (b : BookingWithRelations) (kind : NotificationKind) :
    (BookingsService.enqueue b kind).Still (scope reserves mails) () := .perform trivial fun _ => rfl

theorem applyCancellation_scope (b : BookingWithRelations) (cancelledBy : CancelledBy) (reason : Option String) :
    (BookingsService.applyCancellation P b cancelledBy reason).Still (scope reserves mails) () := by
  have update : ∀ patch, (perform (Op.bookingUpdate b.id patch)).Still (scope reserves mails) () :=
    fun _ => .perform trivial fun _ => rfl
  unfold BookingsService.applyCancellation
  cases b.googleEventId with
  | none => exact update _
  | some eventId => exact .bind (deleteEvent_scope _ _) fun _ => update _

theorem dropMeetLink_scope (b : BookingWithRelations) :
    (BookingsService.dropMeetLink P b).Still (scope reserves mails) () := by
  unfold BookingsService.dropMeetLink
  split
  · exact .bind (deleteEvent_scope _ _) fun _ => .perform trivial fun _ => rfl
  · exact .pure

theorem reserveSlot_scope {tx : SlotTransaction} (hc : reserves = true) (timezone : String) :
    (runSerializable (reserveSlot P tx timezone)).Still (scope reserves mails) () :=
  (reserveSlot_follows scope_ignores hc (fun _ => rfl) timezone).mono fun _ _ _ => rfl

theorem ensureMeetLink_scope (b : BookingWithRelations) : (ensureMeetLink P b).Still (scope reserves mails) () := by
  unfold ensureMeetLink createMeetEvent
  split
  · exact .pure
  · refine .bind ?_ fun meet => .perform trivial fun _ => rfl
    refine .bind (getAuthenticatedClient_scope _) fun _ => .bind (.perform trivial fun _ => rfl) fun data => ?_
    split
    · exact .throw
    · exact .pure

theorem process_scope (job : Job) (hc : mails = true) : (process P job).Still (scope reserves mails) () := by
  have notify : ∀ kind b, (notifyBooking kind b).Still (scope reserves mails) () :=
    notifyBooking_still scope_ignores (fun _ => hc) fun _ _ => rfl
  unfold process
  refine .bind (.perform trivial fun _ => rfl) fun booking => ?_
  split
  · exact .pure
  · rename_i b
    cases job.data.kind with
    | confirmed => exact .bind (ensureMeetLink_scope b) fun _ => notify _ _
    | rescheduled => exact .bind (ensureMeetLink_scope b) fun _ => notify _ _
    | cancelled => exact .bind .pure fun _ => notify _ _

/-! ## Calls -/

theorem Call.body_scope (call : Call) : (call.body P).Follows call.scope (fun _ _ => True) () := by
  refine Still.follows (?_ : (call.body P).Still call.scope ()) fun _ => trivial
  cases call with
  | create dto originUrl =>
      refine .bind ?_ fun _ => .pure
      unfold BookingsService.create
      refine .bind (.perform trivial fun _ => rfl) fun eventType => ?_
      split
      · exact .throw
      · dsimp only
        split
        · exact .throw
        split
        · exact .throw
        refine .bind (SettingsService.get_still scope_ignores _) fun settings => ?_
        refine .bind (parseStartAt_still scope_ignores _ _) fun startAt => ?_
        refine .bind (assertSameCalendarDay_still _ _ _ _) fun _ => ?_
        exact .bind (reserveSlot_scope rfl _) fun b => .bind (enqueue_scope _ _) fun _ => .pure
  | cancelByClient token reason =>
      refine .bind ?_ fun _ => .pure
      refine .bind (findByManageToken_scope _) fun b => .bind (assertConfirmed_scope _ _) fun _ => ?_
      refine .bind (assertWithinNoticeWindow_still scope_ignores _ _ _) fun _ => ?_
      exact .bind (applyCancellation_scope _ _ _) fun _ => .bind (enqueue_scope _ _) fun _ => .pure
  | cancelByCoach coach bookingId reason =>
      refine .bind (.bind (.perform trivial fun _ => rfl) fun found => .bind ?_ fun b => ?_) fun _ => .pure
      · unfold assertCoachOwnsOrIsAdmin
        split
        · exact .throw
        · split
          · exact .throw
          · exact .pure
      · refine .bind (assertConfirmed_scope _ _) fun _ => ?_
        exact .bind (applyCancellation_scope _ _ _) fun _ => .bind (enqueue_scope _ _) fun _ => .pure
  | rescheduleByClient token newStartAt =>
      refine .bind ?_ fun _ => .pure
      refine .bind (findByManageToken_scope _) fun b => .bind (assertConfirmed_scope _ _) fun _ => ?_
      refine .bind (assertWithinNoticeWindow_still scope_ignores _ _ _) fun _ => ?_
      refine .bind (SettingsService.get_still scope_ignores _) fun settings => ?_
      refine .bind (parseStartAt_still scope_ignores _ _) fun startAt => ?_
      refine .bind (assertSameCalendarDay_still _ _ _ _) fun _ => ?_
      refine .bind (reserveSlot_scope rfl _) fun updated => .bind (dropMeetLink_scope _) fun _ => ?_
      exact .bind (enqueue_scope _ _) fun _ => .pure
  | work job => exact .bind (.orElse (process_scope job rfl) fun _ => .perform trivial fun _ => rfl) fun _ => .pure

end CoachingCalendar
