import CoachingCalendar.Bookings.Lemmas.Checks
import CoachingCalendar.Bookings.System

/-! # Every call keeps to the course of its phases -/

namespace CoachingCalendar
open Lib Lib.Prog

variable {P : Platform} {call : Call} {s : Phase} {α : Type}

/-! ## Checks -/

theorem Call.protocol_ignores : Ignores (call.protocol P) s := by
  intro o ho
  cases o with
  | now | eventTypeFindUnique | coachFindUnique | settingsUpsert | overrideFindMany | weeklyFindMany =>
      exact ⟨trivial, fun r => by cases s <;> rfl⟩
  | _ => cases ho

theorem enqueue_still (b : BookingWithRelations) (kind : NotificationKind) :
    (BookingsService.enqueue b kind).Still (call.protocol P) s :=
  .perform trivial fun _ => rfl

theorem transaction_follows {tx : SlotTransaction} (timezone : String) (h : TransactionAllowed s tx) :
    (runSerializable (reserveSlot P tx timezone)).Follows (call.protocol P)
      (orStill s fun b s' => s' = s.next P ⟨.transaction tx, .ok b⟩) s :=
  reserveSlot_follows Call.protocol_ignores h (fun _ => by cases s <;> rfl) _

/-! ## Google -/

/-- `s₁` with a result, `s₂` with an error. -/
def Phase.endsIn (s₁ s₂ s' : Phase) : Except Failure α → Prop
  | .ok _ => s' = s₁
  | .error _ => s' = s₂

theorem getAuthenticatedClient_follows {b : Booking} (hc : call.isRequest) (coachId : String) :
    (getAuthenticatedClient P coachId).Follows (call.protocol P)
      (Phase.endsIn (.moved b) .done) (.moved b) := by
  unfold getAuthenticatedClient
  rw [bind_eq, follows_bind, follows_perform]
  refine ⟨fun _ _ => hc, fun r _ => ?_⟩
  show continued _ _ _ (if connected P r then Phase.moved b else .done) r
  rcases r with e | _ | g
  · rfl
  · rfl
  · cases hd : P.decrypt g.refreshTokenEncrypted with
    | none => simp [connected, continued, Phase.endsIn, hd]
    | some token => simp [connected, continued, Phase.endsIn, hd]

theorem getAuthenticatedClient_still (hs : ∀ b, s ≠ .moved b) (coachId : String) :
    (getAuthenticatedClient P coachId).Still (call.protocol P) s := by
  unfold getAuthenticatedClient
  refine .bind (.perform (fun b hb => absurd hb (hs b)) fun r => ?_) fun integration => ?_
  · cases s <;> first | rfl | exact absurd rfl (hs _)
  · split
    · exact .throw
    · split
      · exact .throw
      · exact .pure

theorem deleteEvent_still {b : Booking} {eventId : Nat} (h : b.googleEventId = some eventId)
    (coachId : String) : (deleteEvent P coachId eventId).Still (call.protocol P) (.read b) := by
  unfold deleteEvent
  refine .bind (getAuthenticatedClient_still (by simp) _) fun _ => ?_
  exact .orElse (.perform ⟨b, .inl rfl, h⟩ fun _ => rfl) fun _ => .pure

theorem deleteEvent_follows {b : Booking} {eventId : Nat} (hc : call.isRequest)
    (h : b.googleEventId = some eventId) (coachId : String) :
    (deleteEvent P coachId eventId).Follows (call.protocol P)
      (Phase.endsIn (.unlinked b) .done) (.moved b) := by
  unfold deleteEvent
  rw [bind_eq, follows_bind]
  refine (getAuthenticatedClient_follows hc _).mono fun s' r hr => ?_
  cases r with
  | error e => exact hr
  | ok token =>
      cases hr
      refine follows_orElse.mpr (follows_perform.mpr ⟨⟨b, .inr rfl, h⟩, fun r _ => ?_⟩)
      cases r <;> rfl

/-! ## Requests -/

/-- A settled phase, which a result `a` tells to be `f a`. -/
def Phase.leadsTo (f : α → Phase) (s' : Phase) (r : Except Failure α) : Prop :=
  s'.settled ∧ ∀ a, r = .ok a → s' = f a

theorem Phase.leadsTo_error {f : α → Phase} {s' : Phase} {e : Failure} :
    s'.leadsTo f (.error e) ↔ s'.settled := by simp [leadsTo]

theorem Phase.leadsTo_ok {f : α → Phase} {s' : Phase} {a : α} :
    s'.leadsTo f (.ok a) ↔ s'.settled ∧ s' = f a := by simp [leadsTo]

theorem findByManageToken_follows (token : String) :
    (BookingsService.findByManageToken token).Follows (call.protocol P)
      (Phase.leadsTo fun b => .read b.toBooking) .idle := by
  unfold BookingsService.findByManageToken
  rw [bind_eq, follows_bind, follows_perform]
  refine ⟨rfl, fun r _ => ?_⟩
  rcases r with e | _ | b
  · exact Phase.leadsTo_error.mpr trivial
  · exact Phase.leadsTo_error.mpr trivial
  · exact Phase.leadsTo_ok.mpr ⟨trivial, rfl⟩

theorem create_follows (dto : CreateBookingDto) (originUrl : Option String) :
    (BookingsService.create P dto originUrl).Follows (call.protocol P) (fun s' _ => s'.settled) .idle := by
  unfold BookingsService.create
  refine Still.bind_follows (.perform trivial fun _ => rfl) (fun eventType => ?_) fun _ => trivial
  cases eventType with
  | none => exact trivial
  | some eventType =>
      dsimp only
      split
      · exact trivial
      split
      · exact trivial
      refine (SettingsService.get_still Call.protocol_ignores _).bind_follows (fun settings => ?_) fun _ => trivial
      refine (parseStartAt_still Call.protocol_ignores _ _).bind_follows (fun startAt => ?_) fun _ => trivial
      refine (assertSameCalendarDay_still _ _ _ _).bind_follows (fun _ => ?_) fun _ => trivial
      rw [bind_eq, follows_bind]
      refine (transaction_follows _ (.create rfl rfl rfl rfl rfl)).mono fun s' r hr => ?_
      cases r with
      | error e => cases hr; exact trivial
      | ok booking =>
          cases hr
          exact (enqueue_still _ _).bind_follows (fun _ => trivial) fun _ => trivial

theorem applyCancellation_follows {b : BookingWithRelations} (hs : b.status = .confirmed)
    (cancelledBy : CancelledBy) (reason : Option String) :
    (BookingsService.applyCancellation P b cancelledBy reason).Follows (call.protocol P)
      (Phase.leadsTo fun b => .cancelled b.toBooking) (.read b.toBooking) := by
  have update : (perform (Op.bookingUpdate b.id ⟨some .cancelled, some cancelledBy, reason, none, none⟩)).Follows
      (call.protocol P) (Phase.leadsTo fun b => .cancelled b.toBooking) (.read b.toBooking) := by
    refine follows_perform.mpr ⟨PatchAllowed.cancel hs, fun r _ => ?_⟩
    cases r with
    | error e => exact Phase.leadsTo_error.mpr trivial
    | ok b' => exact Phase.leadsTo_ok.mpr ⟨trivial, rfl⟩
  unfold BookingsService.applyCancellation
  cases hg : b.googleEventId with
  | none => exact update
  | some eventId =>
      exact (deleteEvent_still hg _).bind_follows (fun _ => update) fun _ => Phase.leadsTo_error.mpr trivial

theorem cancellation_follows {b : BookingWithRelations} (hs : b.status = .confirmed)
    (cancelledBy : CancelledBy) (reason : Option String) :
    ((BookingsService.applyCancellation P b cancelledBy reason).bind fun updated =>
      (BookingsService.enqueue updated .cancelled).bind fun _ => .pure updated).Follows (call.protocol P)
      (Phase.leadsTo fun b => .cancelled b.toBooking) (.read b.toBooking) := by
  rw [follows_bind]
  refine (applyCancellation_follows hs _ _).mono fun s' r hr => ?_
  cases r with
  | error e => exact Phase.leadsTo_error.mpr hr.1
  | ok updated => exact (enqueue_still _ _).bind_follows (fun _ => hr) fun _ => Phase.leadsTo_error.mpr hr.1

theorem cancelByClient_follows (token : String) (reason : Option String) :
    (BookingsService.cancelByClient P token reason).Follows (call.protocol P)
      (Phase.leadsTo fun b => .cancelled b.toBooking) .idle := by
  unfold BookingsService.cancelByClient
  rw [bind_eq, follows_bind]
  refine (findByManageToken_follows token).mono fun s' r hr => ?_
  cases r with
  | error e => exact Phase.leadsTo_error.mpr hr.1
  | ok b =>
      obtain rfl := hr.2 b rfl
      refine assertConfirmed_follows (fun hs => ?_) fun _ => Phase.leadsTo_error.mpr trivial
      refine (assertWithinNoticeWindow_still Call.protocol_ignores _ _ _).bind_follows (fun _ => ?_)
        fun _ => Phase.leadsTo_error.mpr trivial
      exact cancellation_follows hs _ _

theorem cancelByCoach_follows (coach : Coach) (bookingId reason : String) :
    (BookingsService.cancelByCoach P coach bookingId reason).Follows (call.protocol P)
      (Phase.leadsTo fun b => .cancelled b.toBooking) .idle := by
  unfold BookingsService.cancelByCoach
  rw [bind_eq, follows_bind, follows_perform]
  refine ⟨rfl, fun r _ => ?_⟩
  rcases r with e | _ | b
  · exact Phase.leadsTo_error.mpr trivial
  · exact Phase.leadsTo_error.mpr trivial
  · show Follows _ _ (Phase.read b.toBooking) (Prog.bind (assertCoachOwnsOrIsAdmin (·.coachId) coach (some b) _) _)
    unfold assertCoachOwnsOrIsAdmin
    dsimp only
    split
    · exact Phase.leadsTo_error.mpr trivial
    · refine assertConfirmed_follows (fun hs => ?_) fun _ => Phase.leadsTo_error.mpr trivial
      exact cancellation_follows hs _ _

theorem dropMeetLink_follows (hc : call.isRequest) (b : BookingWithRelations) :
    (BookingsService.dropMeetLink P b).Follows (call.protocol P) (fun s' _ => s'.settled)
      (.moved b.toBooking) := by
  unfold BookingsService.dropMeetLink
  split
  · rename_i eventId hl hg
    rw [bind_eq, follows_bind]
    refine (deleteEvent_follows hc hg _).mono fun s' r hr => ?_
    cases r with
    | error e => cases hr; exact trivial
    | ok _ =>
        cases hr
        refine follows_perform.mpr ⟨.clear, fun r _ => ?_⟩
        cases r <;> exact trivial
  · rename_i hn
    intro hl
    cases hg : b.googleEventId with
    | none => rfl
    | some eventId => exact (hn eventId hl hg).elim

theorem rescheduleByClient_follows (hc : call.isRequest) (token newStartAt : String) :
    (BookingsService.rescheduleByClient P token newStartAt).Follows (call.protocol P)
      (fun s' _ => s'.settled) .idle := by
  unfold BookingsService.rescheduleByClient
  rw [bind_eq, follows_bind]
  refine (findByManageToken_follows token).mono fun s' r hr => ?_
  cases r with
  | error e => exact hr.1
  | ok b =>
      obtain rfl := hr.2 b rfl
      refine assertConfirmed_follows (fun hs => ?_) fun _ => trivial
      refine (assertWithinNoticeWindow_still Call.protocol_ignores _ _ _).bind_follows (fun _ => ?_) fun _ => trivial
      refine (SettingsService.get_still Call.protocol_ignores _).bind_follows (fun settings => ?_) fun _ => trivial
      refine (parseStartAt_still Call.protocol_ignores _ _).bind_follows (fun startAt => ?_) fun _ => trivial
      refine (assertSameCalendarDay_still _ _ _ _).bind_follows (fun _ => ?_) fun _ => trivial
      rw [bind_eq, follows_bind]
      refine (transaction_follows _ (.move rfl rfl rfl hs)).mono fun s' r hr => ?_
      cases r with
      | error e => cases hr; exact trivial
      | ok updated =>
          cases hr
          show Follows _ _ (Phase.moved updated.toBooking) (Prog.bind _ _)
          rw [follows_bind]
          refine (dropMeetLink_follows hc updated).mono fun s' r hr => ?_
          cases r with
          | error e => exact hr
          | ok updated => exact (enqueue_still _ _).bind_follows (fun _ => hr) fun _ => hr

/-! ## Jobs -/

theorem InsertedEvent.result_meetLink {data : InsertedEvent} {meet : MeetEventResult}
    (h : data.result = some meet) : meet.meetLink ≠ "" := by
  unfold result at h
  split at h
  · split at h
    · cases h
    · cases h; assumption
  · cases h

theorem createMeetEvent_follows {b : Booking} {input : CreateMeetEventInput} (coachId : String)
    (h : (call.protocol P).allowed (.read b) (.calendarInsert b.id coachId input)) :
    (createMeetEvent P b.id coachId input).Follows (call.protocol P)
      (fun s' r => match r with
        | .ok meet => s' = Phase.created b meet.eventId ∧ meet.meetLink ≠ ""
        | .error _ => s'.settled) (.read b) := by
  unfold createMeetEvent
  refine (getAuthenticatedClient_still (by simp) _).bind_follows (fun _ => ?_) fun _ => trivial
  rw [bind_eq, follows_bind, follows_perform]
  refine ⟨h, fun r _ => ?_⟩
  cases r with
  | error e => exact trivial
  | ok data =>
      dsimp only [continued, Call.protocol]
      cases hd : data.result with
      | none =>
          simp only [Phase.next, hd]
          exact trivial
      | some meet =>
          simp only [Phase.next, hd]
          exact ⟨rfl, InsertedEvent.result_meetLink hd⟩

theorem ensureMeetLink_follows (b : BookingWithRelations) :
    (ensureMeetLink P b).Follows (call.protocol P) (fun s' _ => s'.settled) (.read b.toBooking) := by
  unfold ensureMeetLink
  split
  · exact trivial
  · rename_i hn
    rw [not_or, not_not, Bool.not_eq_true] at hn
    rw [bind_eq, follows_bind]
    refine (createMeetEvent_follows _ ⟨b.toBooking, rfl, rfl, hn.1, hn.2, rfl, rfl⟩).mono fun s' r hr => ?_
    cases r with
    | error e => exact hr
    | ok meet =>
        obtain ⟨rfl, hl⟩ := hr
        refine follows_perform.mpr ⟨.attach hl, fun r _ => ?_⟩
        cases r <;> exact trivial

/-- The mails of a notification, under a protocol that does not look at mails. -/
theorem notifyBooking_still {σ : Type} {R : Protocol Ans Failure σ} {s : σ} (hR : Ignores R s)
    (ha : ∀ mail, R.allowed s (.sendEmail mail)) (hn : ∀ mail r, R.next s ⟨.sendEmail mail, r⟩ = s)
    (kind : NotificationKind) (b : BookingWithRelations) : (notifyBooking kind b).Still R s := by
  have send : ∀ mail, (attempt (Op.sendEmail mail) : BookingProg _).Still R s :=
    fun mail => ⟨ha mail, fun r _ => hn mail r⟩
  unfold notifyBooking
  refine .bind (SettingsService.get_still hR _) fun settings => ?_
  refine .bind (send _) fun toClient => .bind (send _) fun toCoach => ?_
  split
  · exact .pure
  · exact .throw
  · exact .throw

theorem process_follows (job : Job) :
    (process P job).Follows (call.protocol P) (fun s' _ => s'.settled) .idle := by
  obtain ⟨⟨bookingId, coachId, kind⟩, retryCount⟩ := job
  unfold process
  rw [bind_eq, follows_bind, follows_perform]
  refine ⟨rfl, fun r _ => ?_⟩
  rcases r with e | _ | b
  · exact trivial
  · exact trivial
  -- the part after the Meet link
  have notify : ∀ s' (r : Except Failure BookingWithRelations), s'.settled →
      continued (call.protocol P) (fun s' _ => s'.settled) (notifyBooking kind) s' r := by
    intro s' r hs
    cases r with
    | error e => exact hs
    | ok typed =>
        refine (notifyBooking_still Call.protocol_ignores (fun _ => trivial) (fun _ _ => ?_) _ _).follows fun _ => hs
        cases s' <;> rfl
  cases kind with
  | confirmed => exact follows_bind.mpr ((ensureMeetLink_follows b).mono notify)
  | rescheduled => exact follows_bind.mpr ((ensureMeetLink_follows b).mono notify)
  | cancelled => exact notify (.read b.toBooking) (.ok b) trivial

theorem work_follows (job : Job) :
    (work P job).Follows (call.protocol P) (fun s' _ => s'.settled) .idle := by
  unfold work
  rw [tryCatch_eq, follows_orElse]
  refine (process_follows job).mono fun s' r hr => ?_
  cases r with
  | ok _ => exact hr
  | error e => exact Still.follows (.perform trivial fun _ => by cases s' <;> rfl) fun _ => hr

/-! ## All calls -/

/-- Every call keeps to the course of its phases and ends with nothing left to be stored or deleted. -/
theorem Call.body_follows (call : Call) :
    (call.body P).Follows (call.protocol P) call.final .idle := by
  have request : ∀ {p : BookingProg BookingWithRelations}, call.isCancel = false →
      p.Follows (call.protocol P) (fun s' _ => s'.settled) .idle →
      (p.bind fun b => .pure (some b)).Follows (call.protocol P) call.final .idle := by
    intro p hc hp
    rw [follows_bind]
    refine hp.mono fun s' r hr => ?_
    cases r <;> exact ⟨hr, by simp [hc]⟩
  have cancel : ∀ {p : BookingProg BookingWithRelations},
      p.Follows (call.protocol P) (Phase.leadsTo fun b => .cancelled b.toBooking) .idle →
      (p.bind fun b => .pure (some b)).Follows (call.protocol P) call.final .idle := by
    intro p hp
    rw [follows_bind]
    refine hp.mono fun s' r hr => ?_
    cases r with
    | error e => exact ⟨hr.1, by simp⟩
    | ok b => exact ⟨hr.1, fun _ b' hb => ⟨b, by cases hb; rfl, hr.2 b rfl⟩⟩
  cases call with
  | create dto originUrl => exact request rfl (create_follows _ _)
  | cancelByClient token reason => exact cancel (cancelByClient_follows _ _)
  | cancelByCoach coach bookingId reason => exact cancel (cancelByCoach_follows _ _ _)
  | rescheduleByClient token newStartAt => exact request rfl (rescheduleByClient_follows rfl _ _)
  | work job =>
      show Follows _ _ _ (Prog.bind _ _)
      rw [follows_bind]
      refine (work_follows job).mono fun s' r hr => ?_
      cases r <;> exact ⟨hr, by simp [Call.isCancel]⟩

end CoachingCalendar
