import CoachingCalendar.Bookings.Lemmas.Atomic
import CoachingCalendar.Bookings.Lemmas.Protocol

/-! # A request announces what it has done, once and at its end -/

namespace CoachingCalendar
open Lib Lib.Prog Lib.System

variable {P : Platform} {α : Type}

def Booking.notification (b : Booking) (kind : NotificationKind) : NotificationJobData where
  bookingId := b.id
  coachId := b.coachId
  kind := kind

/-- The notification that has been sent. Nothing comes after it. -/
def announcing : Protocol Ans Failure (Option NotificationJobData) where
  answers _ _ := True
  next s
    | ⟨.jobSend data, .ok _⟩ => some data
    | _ => s
  allowed s _ := s = none

/-- It has been sent when there is a result, and only then. -/
def announced (kind : NotificationKind) (s : Option NotificationJobData) : Except Failure BookingWithRelations → Prop
  | .ok b => s = some (b.toBooking.notification kind)
  | .error _ => s = none

/-! ## Parts that announce nothing -/

theorem announcing_still {o : Op} (ho : ∀ r, announcing.next none ⟨o, r⟩ = none) :
    (perform o).Still announcing none :=
  .perform rfl ho

theorem announcing_ignores : Ignores announcing none := by
  intro o ho
  cases o with
  | now | eventTypeFindUnique | coachFindUnique | settingsUpsert | overrideFindMany | weeklyFindMany =>
      exact ⟨rfl, fun _ => rfl⟩
  | _ => cases ho

theorem getAuthenticatedClient_announcing (coachId : String) :
    (getAuthenticatedClient P coachId).Still announcing none := by
  unfold getAuthenticatedClient
  refine .bind (announcing_still fun _ => rfl) fun integration => ?_
  split
  · exact .throw
  · split
    · exact .throw
    · exact .pure

theorem deleteEvent_announcing (coachId : String) (eventId : Nat) :
    (deleteEvent P coachId eventId).Still announcing none :=
  .bind (getAuthenticatedClient_announcing _) fun _ => .orElse (announcing_still fun _ => rfl) fun _ => .pure

theorem findByManageToken_announcing (token : String) :
    (BookingsService.findByManageToken token).Still announcing none := by
  unfold BookingsService.findByManageToken
  refine .bind (announcing_still fun _ => rfl) fun booking => ?_
  split
  · exact .throw
  · exact .pure

theorem assertConfirmed_announcing (status : BookingStatus) (locale : String) :
    (assertConfirmed status locale).Still announcing none := by
  unfold assertConfirmed
  split
  · exact .throw
  · exact .pure

theorem reserveSlot_announcing (tx : SlotTransaction) (timezone : String) :
    (runSerializable (reserveSlot P tx timezone)).Still announcing none := by
  refine (reserveSlot_follows announcing_ignores rfl (fun _ => rfl) timezone).mono fun s r hr => ?_
  cases r <;> exact hr

theorem applyCancellation_announcing (b : BookingWithRelations) (cancelledBy : CancelledBy) (reason : Option String) :
    (BookingsService.applyCancellation P b cancelledBy reason).Still announcing none := by
  unfold BookingsService.applyCancellation
  cases b.googleEventId with
  | none => exact announcing_still fun _ => rfl
  | some eventId => exact .bind (deleteEvent_announcing _ _) fun _ => announcing_still fun _ => rfl

theorem dropMeetLink_announcing (b : BookingWithRelations) :
    (BookingsService.dropMeetLink P b).Still announcing none := by
  unfold BookingsService.dropMeetLink
  split
  · exact .bind (deleteEvent_announcing _ _) fun _ => announcing_still fun _ => rfl
  · exact .pure

theorem process_announcing (job : Job) : (process P job).Still announcing none := by
  have notify : ∀ kind b, (notifyBooking kind b).Still announcing none :=
    notifyBooking_still announcing_ignores (fun _ => rfl) fun _ _ => rfl
  have link : ∀ b, (ensureMeetLink P b).Still announcing none := by
    intro b
    unfold ensureMeetLink createMeetEvent
    split
    · exact .pure
    · refine .bind (.bind (getAuthenticatedClient_announcing _) fun _ => .bind (announcing_still fun _ => rfl)
        fun data => ?_) fun meet => announcing_still fun _ => rfl
      split
      · exact .throw
      · exact .pure
  unfold process
  refine .bind (announcing_still fun _ => rfl) fun booking => ?_
  split
  · exact .pure
  · rename_i b
    cases job.data.kind with
    | confirmed => exact .bind (link b) fun _ => notify _ _
    | rescheduled => exact .bind (link b) fun _ => notify _ _
    | cancelled => exact .bind .pure fun _ => notify _ _

/-! ## Requests -/

theorem enqueue_announces (b : BookingWithRelations) (kind : NotificationKind) :
    ((BookingsService.enqueue b kind).bind fun _ => .pure b).Follows announcing (announced kind) none :=
  .perform_bind rfl (fun _ _ => rfl) fun _ _ => rfl

theorem create_announces (dto : CreateBookingDto) (originUrl : Option String) :
    (BookingsService.create P dto originUrl).Follows announcing (announced .confirmed) none := by
  unfold BookingsService.create
  refine Still.bind_follows (announcing_still fun _ => rfl) (fun eventType => ?_) fun _ => rfl
  split
  · exact rfl
  dsimp only
  split
  · exact rfl
  split
  · exact rfl
  refine (SettingsService.get_still announcing_ignores _).bind_follows (fun settings => ?_) fun _ => rfl
  refine (parseStartAt_still announcing_ignores _ _).bind_follows (fun startAt => ?_) fun _ => rfl
  refine (assertSameCalendarDay_still _ _ _ _).bind_follows (fun _ => ?_) fun _ => rfl
  exact (reserveSlot_announcing _ _).bind_follows (fun b => enqueue_announces b _) fun _ => rfl

theorem cancelByClient_announces (token : String) (reason : Option String) :
    (BookingsService.cancelByClient P token reason).Follows announcing (announced .cancelled) none := by
  refine (findByManageToken_announcing _).bind_follows (fun b => ?_) fun _ => rfl
  refine (assertConfirmed_announcing _ _).bind_follows (fun _ => ?_) fun _ => rfl
  refine (assertWithinNoticeWindow_still announcing_ignores _ _ _).bind_follows (fun _ => ?_) fun _ => rfl
  exact (applyCancellation_announcing _ _ _).bind_follows (fun b => enqueue_announces b _) fun _ => rfl

theorem cancelByCoach_announces (coach : Coach) (bookingId reason : String) :
    (BookingsService.cancelByCoach P coach bookingId reason).Follows announcing (announced .cancelled) none := by
  refine Still.bind_follows (announcing_still fun _ => rfl) (fun found => ?_) fun _ => rfl
  refine Still.bind_follows (?_ : (assertCoachOwnsOrIsAdmin (·.coachId) coach found _).Still announcing none) (fun b => ?_)
    fun _ => rfl
  · unfold assertCoachOwnsOrIsAdmin
    split
    · exact .throw
    · split
      · exact .throw
      · exact .pure
  · refine (assertConfirmed_announcing _ _).bind_follows (fun _ => ?_) fun _ => rfl
    exact (applyCancellation_announcing _ _ _).bind_follows (fun b => enqueue_announces b _) fun _ => rfl

theorem rescheduleByClient_announces (token newStartAt : String) :
    (BookingsService.rescheduleByClient P token newStartAt).Follows announcing (announced .rescheduled) none := by
  refine (findByManageToken_announcing _).bind_follows (fun b => ?_) fun _ => rfl
  refine (assertConfirmed_announcing _ _).bind_follows (fun _ => ?_) fun _ => rfl
  refine (assertWithinNoticeWindow_still announcing_ignores _ _ _).bind_follows (fun _ => ?_) fun _ => rfl
  refine (SettingsService.get_still announcing_ignores _).bind_follows (fun settings => ?_) fun _ => rfl
  refine (parseStartAt_still announcing_ignores _ _).bind_follows (fun startAt => ?_) fun _ => rfl
  refine (assertSameCalendarDay_still _ _ _ _).bind_follows (fun _ => ?_) fun _ => rfl
  refine (reserveSlot_announcing _ _).bind_follows (fun updated => ?_) fun _ => rfl
  exact (dropMeetLink_announcing _).bind_follows (fun b => enqueue_announces b _) fun _ => rfl

/-- How a call ends. -/
def Call.announced (call : Call) (s : Option NotificationJobData) : Except Failure (Option BookingWithRelations) → Prop
  | .ok (some b) => s = some (b.toBooking.notification call.kind)
  | _ => s = none

theorem Call.body_announced (call : Call) : (call.body P).Follows announcing call.announced none := by
  have request : ∀ {p : BookingProg BookingWithRelations}, p.Follows announcing (CoachingCalendar.announced call.kind) none →
      (p.bind fun b => .pure (some b)).Follows announcing call.announced none := by
    intro p hp
    rw [follows_bind]
    refine hp.mono fun s r hr => ?_
    cases r <;> exact hr
  cases call with
  | create dto originUrl => exact request (create_announces _ _)
  | cancelByClient token reason => exact request (cancelByClient_announces _ _)
  | cancelByCoach coach bookingId reason => exact request (cancelByCoach_announces _ _ _)
  | rescheduleByClient token newStartAt => exact request (rescheduleByClient_announces _ _)
  | work job =>
      refine Still.bind_follows (?_ : (CoachingCalendar.work P job).Still announcing none) (fun _ => rfl) fun _ => rfl
      exact .orElse (process_announcing job) fun _ => announcing_still fun _ => rfl

end CoachingCalendar
