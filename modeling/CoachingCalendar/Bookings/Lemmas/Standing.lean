import CoachingCalendar.Bookings.Changes
import CoachingCalendar.Bookings.Conditions
import CoachingCalendar.Bookings.Lemmas.Rows

/-! # What a call is entitled to do with a booking -/

namespace CoachingCalendar
open Lib Lib.Prog Lib.System

variable {P : Platform} {call : Call} {α : Type} {o : Op} {ch : Choice} {r : Except Failure (Ans o)}

/-! ## What calls never change -/

/-- The columns that no call changes, with the length in the place of the two times. -/
def Booking.identity (b : Booking) : Booking :=
  { b with
    startAt := 0, endAt := b.length, status := .confirmed, cancelledBy := none
    cancellationReason := none, googleEventId := none, meetLink := none }

@[simp] theorem BookingPatch.apply_identity (p : BookingPatch) (b : Booking) : (p.apply b).identity = b.identity := rfl

theorem moveTo_identity {startAt endAt : Int} {b : Booking} (h : endAt - startAt = b.length) :
    (moveTo startAt endAt b).identity = b.identity := by
  simp [Booking.identity, Booking.length, moveTo, h]

section Identity

variable {b b' : Booking} (h : b'.identity = b.identity)
include h

theorem Booking.identity_id : b'.id = b.id := congrArg (·.id) h

theorem Booking.identity_coachId : b'.coachId = b.coachId := congrArg (·.coachId) h

theorem Booking.identity_location : b'.location = b.location := congrArg (·.location) h

theorem Booking.identity_manageToken : b'.manageToken = b.manageToken := congrArg (·.manageToken) h

theorem Booking.identity_length : b'.length = b.length := congrArg (·.endAt) h

end Identity

/-! ## Standing -/

/-- What a call has to go by: the event type it found, the row it found, the row it found and the one it moved, or
the booking that it made. -/
inductive Standing where
  | nothing
  | type (eventType : EventType)
  | row (b : Booking)
  | moved (b b' : Booking)
  | booked (eventType : EventType) (b : Booking)

/-- The row that a booking transaction wrote. -/
def reserved : Event Ans Failure → Option Booking
  | ⟨.transaction _, .ok b⟩ => some b.toBooking
  | _ => none

namespace Standing

def next : Standing → Event Ans Failure → Standing
  | .nothing, e =>
      match readType e, readRow e with
      | some eventType, _ => .type eventType
      | none, some b => .row b
      | none, none => .nothing
  | .type eventType, e => ((reserved e).map (.booked eventType)).getD (.type eventType)
  | .row b, e => ((reserved e).map (.moved b)).getD (.row b)
  | s, _ => s

/-- The rows that a call has seen. -/
def rows : Standing → List Booking
  | .nothing | .type _ => []
  | .row b | .booked _ b => [b]
  | .moved b b' => [b, b']

end Standing

/-- A lookup gives what it asks for. -/
def Answered : (o : Op) → Except Failure (Ans o) → Prop
  | .eventTypeFindUnique id, .ok (some eventType) => eventType.id = id
  | .bookingFindByManageToken token, .ok (some b) => b.manageToken = token
  | .bookingFindUnique id, .ok (some b) => b.id = id
  | .transaction tx, .ok b => ∀ id, tx.write = .move id → b.id = id
  | .bookingUpdate id _, .ok b => b.id = id
  | _, _ => True

theorem exec_answered {w w' : World} (h : exec w o ch = (r, w')) : Answered o r := by
  cases o with
  | eventTypeFindUnique id =>
      rcases r with e | _ | eventType
      · trivial
      · trivial
      · exact Table.find_key (exec_eventTypeFindUnique h).symm
  | bookingFindByManageToken token =>
      rcases r with e | _ | b
      · trivial
      · trivial
      · exact (exec_bookingFindByManageToken h).2
  | bookingFindUnique id =>
      rcases r with e | _ | b
      · trivial
      · trivial
      · exact (exec_bookingFindUnique h).2
  | transaction tx =>
      cases r with
      | error e => trivial
      | ok b =>
          intro id hw
          obtain ⟨b₀, hf, hb, _⟩ := exec_move_ok h hw
          exact (congrArg Booking.id hb).trans (Table.find_key hf : b₀.id = id)
  | bookingUpdate id patch =>
      cases r with
      | error e => trivial
      | ok b =>
          obtain ⟨b₀, hf, hb, _⟩ := exec_bookingUpdate_ok h
          exact (congrArg Booking.id hb).trans (Table.find_key hf : b₀.id = id)
  | _ => trivial

/-- `b` is what a client asks for with `dto`, who comes from `originUrl`, and `eventType` offers it. -/
structure Asked (dto : CreateBookingDto) (originUrl : Option String) (eventType : EventType) (b : Booking) : Prop where
  eventTypeId : b.eventTypeId = dto.eventTypeId
  typeId : eventType.id = dto.eventTypeId
  active : eventType.isActive = true
  coachId : b.coachId = eventType.coachId
  offered : b.location ∈ eventType.locations
  location : b.location = dto.location
  clientName : b.clientName = dto.clientName
  clientEmail : b.clientEmail = dto.clientEmail
  clientPhone : b.clientPhone = dto.clientPhone
  clientNote : b.clientNote = dto.clientNote
  locale : b.locale = dto.locale
  originUrl : b.originUrl = originUrl
  length : b.length = eventType.durationMinutes * msPerMinute

/-- The updates that a call is entitled to, with what it has to go by. -/
inductive Call.MayPatch : Call → Standing → String → BookingPatch → Prop
  | cancelByClient {b reason} : MayPatch (.cancelByClient b.manageToken reason) (.row b) b.id
      { status := some .cancelled, cancelledBy := some .client, cancellationReason := reason }
  | cancelByCoach {coach : Coach} {b reason} : b.coachId = coach.id ∨ coach.role = .admin →
      MayPatch (.cancelByCoach coach b.id reason) (.row b) b.id
        { status := some .cancelled, cancelledBy := some .coach, cancellationReason := some reason }
  | unlink {b b' newStartAt} : b'.id = b.id → b'.location = .googleMeet →
      MayPatch (.rescheduleByClient b.manageToken newStartAt) (.moved b b') b.id
        { meetLink := some none, googleEventId := some none }
  | link {job : Job} {b meetLink eventId} : job.data.bookingId = b.id → job.data.kind.live = true →
      b.location = .googleMeet → meetLink ≠ "" → MayPatch (.work job) (.row b) b.id
        { meetLink := some (some meetLink), googleEventId := some (some eventId) }

/-- The transactions that a call is entitled to, with what it has to go by. -/
inductive Call.MayReserve : Call → Standing → SlotTransaction → Prop
  | create {dto originUrl eventType tx data} : tx.write = .create data →
      (∀ id manageToken, Asked dto originUrl eventType (data.toBooking id manageToken)) →
      MayReserve (.create dto originUrl) (.type eventType) tx
  | move {b : Booking} {newStartAt tx} : tx.write = .move b.id → tx.endAt - tx.startAt = b.length →
      MayReserve (.rescheduleByClient b.manageToken newStartAt) (.row b) tx

def Call.entitlement (call : Call) : Protocol Ans Failure Standing where
  answers := Answered
  next := Standing.next
  allowed s
    | .transaction tx => call.MayReserve s tx
    | .bookingUpdate id patch => call.MayPatch s id patch
    | .jobSend data => ∃ b ∈ s.rows, b.id = data.bookingId
    | .jobRetry job => call = .work job
    | _ => True

/-! ## Every call does what it is entitled to -/

namespace Standing

variable {s : Standing}

/-- Once a call has something to go by, only a transaction changes it. -/
theorem next_still {e : Event Ans Failure} (hs : s ≠ .nothing) (he : reserved e = none) : s.next e = s := by
  cases s with
  | nothing => exact absurd rfl hs
  | type eventType => simp [next, he]
  | row b => simp [next, he]
  | moved b b' => rfl
  | booked eventType b => rfl

theorem perform_still (hs : s ≠ .nothing) (ha : call.entitlement.allowed s o) (ho : ∀ r, reserved ⟨o, r⟩ = none) :
    (perform o).Still call.entitlement s :=
  .perform ha fun r => next_still hs (ho r)

theorem ignores (hs : s ≠ .nothing) : Ignores call.entitlement s := by
  intro o ho
  cases o with
  | now | eventTypeFindUnique | coachFindUnique | settingsUpsert | overrideFindMany | weeklyFindMany =>
      exact ⟨trivial, fun _ => next_still hs rfl⟩
  | _ => cases ho

theorem enqueue_still (hs : s ≠ .nothing) {b : BookingWithRelations} (hb : ∃ b' ∈ s.rows, b'.id = b.id)
    (kind : NotificationKind) : (BookingsService.enqueue b kind).Still call.entitlement s :=
  perform_still hs hb fun _ => rfl

theorem getAuthenticatedClient_still (hs : s ≠ .nothing) (coachId : String) :
    (getAuthenticatedClient P coachId).Still call.entitlement s := by
  unfold getAuthenticatedClient
  refine .bind (perform_still hs trivial fun _ => rfl) fun integration => ?_
  split
  · exact .throw
  · split
    · exact .throw
    · exact .pure

theorem deleteEvent_still (hs : s ≠ .nothing) (coachId : String) (eventId : Nat) :
    (deleteEvent P coachId eventId).Still call.entitlement s :=
  .bind (getAuthenticatedClient_still hs _) fun _ =>
    .orElse (perform_still hs trivial fun _ => rfl) fun _ => .pure

theorem reserve_follows {tx : SlotTransaction} {f : BookingWithRelations → BookingProg α} (hs : s ≠ .nothing)
    (h : call.MayReserve s tx) (timezone : String)
    (hf : ∀ b, Answered (.transaction tx) (.ok b) →
      (f b).Follows call.entitlement (fun _ _ => True) (s.next ⟨.transaction tx, .ok b⟩)) :
    ((runSerializable (reserveSlot P tx timezone)).bind f).Follows call.entitlement (fun _ _ => True) s := by
  rw [follows_bind]
  refine (runSerializableFrom_follows (Q := fun b s' => Answered (.transaction tx) (.ok b) ∧
    s' = s.next ⟨.transaction tx, .ok b⟩) _ _ ?_).mono fun s' r hr => ?_
  · unfold reserveSlot
    refine (assertWithinSchedule_still (ignores hs) _ _ _ _ _).bind_follows (fun _ => ?_) fun _ => rfl
    refine follows_perform.mpr ⟨h, fun r hr => ?_⟩
    cases r with
    | ok b => exact ⟨hr, rfl⟩
    | error e => exact next_still hs rfl
  · cases r with
    | error e => exact trivial
    | ok b =>
        obtain ⟨hb, rfl⟩ := hr
        exact hf b hb

theorem create_follows (dto : CreateBookingDto) (originUrl : Option String) :
    (BookingsService.create P dto originUrl).Follows (Call.create dto originUrl).entitlement (fun _ _ => True)
      .nothing := by
  unfold BookingsService.create
  refine .perform_bind trivial (fun eventType heq => ?_) fun _ _ => trivial
  cases eventType with
  | none => exact trivial
  | some eventType =>
      have hs : Standing.type eventType ≠ .nothing := nofun
      show Follows _ _ (Standing.type eventType) _
      dsimp only
      split
      · exact trivial
      rename_i hactive
      split
      · exact trivial
      rename_i hlocation
      refine (SettingsService.get_still (ignores hs) _).bind_follows (fun settings => ?_) fun _ => trivial
      refine (parseStartAt_still (ignores hs) _ _).bind_follows (fun startAt => ?_) fun _ => trivial
      refine (assertSameCalendarDay_still _ _ _ _).bind_follows (fun _ => ?_) fun _ => trivial
      refine reserve_follows hs (.create rfl fun id manageToken => ?_) _ fun b _ => ?_
      · have hlocation : dto.location ∈ eventType.locations := by simpa using hlocation
        exact ⟨heq, heq, by simpa using hactive, rfl, hlocation, rfl, rfl, rfl, rfl, rfl, rfl, rfl,
          by dsimp only [NewBooking.toBooking, Booking.length]; omega⟩
      · have hs : Standing.booked eventType b.toBooking ≠ .nothing := nofun
        exact (enqueue_still hs ⟨_, List.mem_singleton_self _, rfl⟩ _).bind_follows (fun _ => trivial) fun _ => trivial

theorem update_follows {id : String} {patch : BookingPatch} {f : BookingWithRelations → BookingProg α}
    (hs : s ≠ .nothing) (h : call.MayPatch s id patch)
    (hf : ∀ b : BookingWithRelations, b.id = id → (f b).Follows call.entitlement (fun _ _ => True) s) :
    ((perform (Op.bookingUpdate id patch)).bind f).Follows call.entitlement (fun _ _ => True) s := by
  refine .perform_bind h (fun b hb => ?_) fun _ _ => trivial
  rw [show call.entitlement.next s ⟨.bookingUpdate id patch, .ok b⟩ = s from next_still hs rfl]
  exact hf b hb

theorem cancellation_follows {b : BookingWithRelations} {cancelledBy : CancelledBy} {reason : Option String}
    (h : call.MayPatch (.row b.toBooking) b.id
      { status := some .cancelled, cancelledBy := some cancelledBy, cancellationReason := reason }) :
    ((BookingsService.applyCancellation P b cancelledBy reason).bind fun updated =>
      (BookingsService.enqueue updated .cancelled).bind fun _ => .pure updated).Follows call.entitlement
      (fun _ _ => True) (.row b.toBooking) := by
  have hs : Standing.row b.toBooking ≠ .nothing := nofun
  have update := update_follows (f := fun updated => (BookingsService.enqueue updated .cancelled).bind fun _ =>
    .pure updated) hs h fun updated hid =>
      (enqueue_still hs ⟨_, List.mem_singleton_self _, hid.symm⟩ _).bind_follows (fun _ => trivial) fun _ => trivial
  unfold BookingsService.applyCancellation
  cases b.googleEventId with
  | none => exact update
  | some eventId =>
      dsimp only
      rw [bind_eq, bind_assoc]
      exact (deleteEvent_still hs _ _).bind_follows (fun _ => update) fun _ => trivial

theorem cancelByClient_follows (token : String) (reason : Option String) :
    (BookingsService.cancelByClient P token reason).Follows (Call.cancelByClient token reason).entitlement
      (fun _ _ => True) .nothing := by
  unfold BookingsService.cancelByClient BookingsService.findByManageToken
  rw [bind_eq, bind_eq, bind_assoc]
  refine .perform_bind trivial (fun b hb => ?_) fun _ _ => trivial
  cases b with
  | none => exact trivial
  | some b =>
      obtain rfl : b.manageToken = token := hb
      have hs : Standing.row b.toBooking ≠ .nothing := nofun
      show Follows _ _ (Standing.row b.toBooking) (Prog.bind (assertConfirmed _ _) _)
      refine assertConfirmed_follows (fun _ => ?_) fun _ => trivial
      refine (assertWithinNoticeWindow_still (ignores hs) _ _ _).bind_follows (fun _ => ?_) fun _ => trivial
      exact cancellation_follows .cancelByClient

theorem cancelByCoach_follows (coach : Coach) (bookingId reason : String) :
    (BookingsService.cancelByCoach P coach bookingId reason).Follows
      (Call.cancelByCoach coach bookingId reason).entitlement (fun _ _ => True) .nothing := by
  unfold BookingsService.cancelByCoach assertCoachOwnsOrIsAdmin
  refine .perform_bind trivial (fun b hb => ?_) fun _ _ => trivial
  cases b with
  | none => exact trivial
  | some b =>
      obtain rfl : b.id = bookingId := hb
      show Follows _ _ (Standing.row b.toBooking) (Prog.bind _ _)
      dsimp only
      split
      · exact trivial
      rename_i howner
      refine assertConfirmed_follows (fun _ => ?_) fun _ => trivial
      exact cancellation_follows (.cancelByCoach (by tauto))

theorem rescheduleByClient_follows (token newStartAt : String) :
    (BookingsService.rescheduleByClient P token newStartAt).Follows
      (Call.rescheduleByClient token newStartAt).entitlement (fun _ _ => True) .nothing := by
  unfold BookingsService.rescheduleByClient BookingsService.findByManageToken
  rw [bind_eq, bind_eq, bind_assoc]
  refine .perform_bind trivial (fun b hb => ?_) fun _ _ => trivial
  cases b with
  | none => exact trivial
  | some b =>
      obtain rfl : b.manageToken = token := hb
      have hs : Standing.row b.toBooking ≠ .nothing := nofun
      have hR := @ignores (.rescheduleByClient b.manageToken newStartAt) _ hs
      show Follows _ _ (Standing.row b.toBooking) (Prog.bind (assertConfirmed _ _) _)
      refine assertConfirmed_follows (fun _ => ?_) fun _ => trivial
      refine (assertWithinNoticeWindow_still hR _ _ _).bind_follows (fun _ => ?_) fun _ => trivial
      refine (SettingsService.get_still hR _).bind_follows (fun settings => ?_) fun _ => trivial
      refine (parseStartAt_still hR _ _).bind_follows (fun startAt => ?_) fun _ => trivial
      refine (assertSameCalendarDay_still _ _ _ _).bind_follows (fun _ => ?_) fun _ => trivial
      refine reserve_follows hs (.move rfl (by dsimp only [Booking.length]; omega)) _ fun updated hid => ?_
      have hm : Standing.moved b.toBooking updated.toBooking ≠ .nothing := nofun
      have enqueue : ∀ b' : BookingWithRelations, b'.id = b.id →
          ((BookingsService.enqueue b' .rescheduled).bind fun _ => .pure b').Follows
            (Call.rescheduleByClient b.manageToken newStartAt).entitlement (fun _ _ => True)
            (.moved b.toBooking updated.toBooking) := fun b' hb' =>
        (enqueue_still hm ⟨_, List.mem_cons_self, hb'.symm⟩ _).bind_follows (fun _ => trivial) fun _ => trivial
      have hid : updated.id = b.id := hid b.id rfl
      show Follows _ _ (Standing.moved b.toBooking updated.toBooking) (Prog.bind _ _)
      unfold BookingsService.dropMeetLink
      split
      · rename_i hl _
        rw [bind_eq, bind_assoc]
        refine (deleteEvent_still hm _ _).bind_follows (fun _ => ?_) fun _ => trivial
        rw [hid]
        exact update_follows hm (.unlink hid hl) enqueue
      · exact enqueue updated hid

theorem process_follows (job : Job) :
    (process P job).Follows (Call.work job).entitlement (fun _ _ => True) .nothing := by
  unfold process
  refine .perform_bind trivial (fun b hb => ?_) fun _ _ => trivial
  cases b with
  | none => exact trivial
  | some b =>
      have hid : b.id = job.data.bookingId := hb
      have hs : Standing.row b.toBooking ≠ .nothing := nofun
      have notify : ∀ kind b', (notifyBooking kind b').Still (Call.work job).entitlement (.row b.toBooking) :=
        notifyBooking_still (ignores hs) (fun _ => trivial) fun mail r => next_still (e := ⟨.sendEmail mail, r⟩) hs rfl
      have link : job.data.kind.live = true →
          (ensureMeetLink P b).Still (Call.work job).entitlement (.row b.toBooking) := by
        intro hlive
        unfold ensureMeetLink createMeetEvent
        split
        · exact .pure
        rename_i hn
        rw [bind_eq, bind_eq, bind_assoc]
        refine .bind (getAuthenticatedClient_still hs _) fun _ => ?_
        rw [bind_eq, bind_assoc]
        refine .bind (perform_still hs trivial fun _ => rfl) fun data => ?_
        cases hd : data.result with
        | none => exact .throw
        | some meet =>
            refine perform_still hs (.link hid.symm hlive ?_ (InsertedEvent.result_meetLink hd)) fun _ => rfl
            tauto
      show Follows _ _ (Standing.row b.toBooking) _
      dsimp only
      split
      · rename_i hk
        exact (Still.bind (link (by rw [hk]; rfl)) fun _ => notify _ _).follows fun _ => trivial
      · rename_i hk
        exact (Still.bind (link (by rw [hk]; rfl)) fun _ => notify _ _).follows fun _ => trivial
      · exact (Still.bind .pure fun _ => notify _ _).follows fun _ => trivial

theorem body_follows (call : Call) : (call.body P).Follows call.entitlement (fun _ _ => True) .nothing := by
  cases call with
  | create dto originUrl => exact .seq (create_follows _ _) fun _ _ => trivial
  | cancelByClient token reason => exact .seq (cancelByClient_follows _ _) fun _ _ => trivial
  | cancelByCoach coach bookingId reason => exact .seq (cancelByCoach_follows _ _ _) fun _ _ => trivial
  | rescheduleByClient token newStartAt => exact .seq (rescheduleByClient_follows _ _) fun _ _ => trivial
  | work job =>
      refine .seq ?_ fun _ _ => trivial
      unfold work
      rw [tryCatch_eq, follows_orElse]
      refine (process_follows job).mono fun s' r _ => ?_
      cases r with
      | ok _ => exact trivial
      | error e => exact follows_perform.mpr ⟨rfl, fun _ _ => trivial⟩

end Standing

end CoachingCalendar
