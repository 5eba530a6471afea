import CoachingCalendar.Bookings.Lemmas.Checks
import CoachingCalendar.Bookings.System
import CoachingCalendar.Lib.UpTo
import CoachingCalendar.Store.Lemmas

/-!
# One request alone

Up to its commit a request only reads, so it can fail without a trace. After the commit every failure
leaves the change behind.
-/

namespace CoachingCalendar
open Lib Lib.Prog

variable {α β : Type}

/-- The answer that commits a change, and the booking as it then is. -/
def committedRow : (o : Op) → Except Failure (Ans o) → Option BookingWithRelations
  | .transaction _, .ok b => some b
  | .bookingUpdate _ _, .ok b => some b
  | _, _ => none

/-- The booking `b` is in the table `t` as it stands, and the other rows are those of `t₀`. -/
structure RowChange (t₀ t : Table Booking.id) (b : Booking) : Prop where
  row : t.find b.id = some b
  others : ∀ id, id ≠ b.id → t.find id = t₀.find id

/-- The change that a request stands for. -/
def Call.Describes (P : Platform) (t₀ : Table Booking.id) (b : Booking) : Call → Prop
  | .create dto originUrl => t₀.find b.id = none ∧ b.status = .confirmed ∧ b.eventTypeId = dto.eventTypeId ∧
      P.luxon.fromISO P.luxon.systemZone dto.startAt = some b.startAt ∧ b.location = dto.location ∧
      b.clientName = dto.clientName ∧ b.clientEmail = dto.clientEmail ∧ b.clientPhone = dto.clientPhone ∧
      b.clientNote = dto.clientNote ∧ b.locale = dto.locale ∧ b.originUrl = originUrl
  | .cancelByClient token reason => ∃ b₀ ∈ t₀, b₀.manageToken = token ∧ b₀.status = .confirmed ∧
      b = BookingPatch.apply ⟨some .cancelled, some .client, reason, none, none⟩ b₀
  | .cancelByCoach _ bookingId reason => ∃ b₀ ∈ t₀, b₀.id = bookingId ∧ b₀.status = .confirmed ∧
      b = BookingPatch.apply ⟨some .cancelled, some .coach, some reason, none, none⟩ b₀
  | .rescheduleByClient token newStartAt => ∃ b₀ ∈ t₀, b₀.manageToken = token ∧ b₀.status = .confirmed ∧
      ∃ startAt, P.luxon.fromISO P.luxon.systemZone newStartAt = some startAt ∧
        (b = moveTo startAt (startAt + (b₀.endAt - b₀.startAt)) b₀ ∨
          b = BookingPatch.apply { meetLink := some none, googleEventId := some none }
            (moveTo startAt (startAt + (b₀.endAt - b₀.startAt)) b₀))
  | .work _ => False

/-- The notification that a request asks for. -/
def Call.kind : Call → NotificationKind
  | .create _ _ => .confirmed
  | .cancelByClient _ _ | .cancelByCoach _ _ _ => .cancelled
  | .rescheduleByClient _ _ => .rescheduled
  | .work job => job.data.kind

section Parts

variable (P : Platform) (t₀ : Table Booking.id) (j₀ : List Job)

/-- Nothing has been written. -/
structure Untouched (w : World) : Prop where
  bookings : w.db.bookings = t₀
  jobs : w.jobs = j₀

/-- The end of a part that only reads: its result has the property `Q`. -/
def ReadEnd (Q : α → Prop) (r : Except Failure α) (w : World) (_ : Trace) : Prop :=
  Untouched t₀ j₀ w ∧ ∀ a, r = .ok a → Q a

/-- The end of a request at its commit, or before it. -/
def CommitEnd (C : BookingWithRelations → World → Prop) :
    Except Failure (Option BookingWithRelations) → World → Trace → Prop
  | .ok b, w, _ => ∃ b', b = some b' ∧ C b' w
  | .error _, w, _ => w.db.bookings = t₀

/-- Under the condition `A` the part commits with `C`, and in any case it goes on as `f`. -/
structure Part (A : Prop) (C : BookingWithRelations → World → Prop) (f : BookingWithRelations → BookingProg α)
    (p : BookingProg α) : Prop where
  continues : p.Continues committedRow f
  committed : A → Spec exec (fun w _ => Untouched t₀ j₀ w) (p.upTo committedRow) (CommitEnd t₀ C)

variable {P t₀ j₀} {A : Prop} {C : BookingWithRelations → World → Prop} {f : BookingWithRelations → BookingProg α}

/-! ## Before the first write -/

/-- The operations that change neither the bookings nor the queue. -/
def Op.quiet (o : Op) : Bool := !o.writes && !o.queues

def quiet : Protocol Ans Failure Unit where
  answers _ _ := True
  next s _ := s
  allowed _ o := o.quiet

theorem quiet_ignores : Ignores quiet () := by
  intro o ho
  cases o with
  | now | eventTypeFindUnique | coachFindUnique | settingsUpsert | overrideFindMany | weeklyFindMany =>
      exact ⟨rfl, fun _ => rfl⟩
  | _ => cases ho

theorem Untouched.exec {w : World} {o : Op} {ch : Choice} (ho : o.quiet = true) (h : Untouched t₀ j₀ w) :
    Untouched t₀ j₀ (exec w o ch).2 := by
  rw [Op.quiet, Bool.and_eq_true, Bool.not_eq_true', Bool.not_eq_true'] at ho
  cases hx : CoachingCalendar.exec w o ch with
  | mk r w' => exact ⟨(exec_frame ho.1 hx).1.trans h.bookings, (exec_jobs ho.2 hx).trans h.jobs⟩

theorem Untouched.still {p : BookingProg α} (h : p.Still quiet ()) :
    Spec CoachingCalendar.exec (fun w _ => Untouched t₀ j₀ w) p fun _ w _ => Untouched t₀ j₀ w :=
  h.spec (fun _ _ _ => trivial) (fun _ => rfl) fun _ _ _ _ ho hI => hI.exec ho

theorem passes_of_still {p : BookingProg α} (h : p.Still quiet ()) : p.Passes committedRow := by
  refine h.passes (fun _ _ => trivial) fun _ o ho r => ?_
  cases o with
  | transaction | bookingUpdate => cases ho
  | _ => rfl

theorem ReadEnd.andThen {p : BookingProg α} {g : α → BookingProg β} {Q : α → Prop} {Q' : β → Prop}
    (hp : Spec CoachingCalendar.exec (fun w _ => Untouched t₀ j₀ w) p (ReadEnd t₀ j₀ Q))
    (hg : ∀ a, Q a → Spec CoachingCalendar.exec (fun w _ => Untouched t₀ j₀ w) (g a) (ReadEnd t₀ j₀ Q')) :
    Spec CoachingCalendar.exec (fun w _ => Untouched t₀ j₀ w) (p.bind g) (ReadEnd t₀ j₀ Q') :=
  .bind hp (fun a env w t h => hg a (h.2 a rfl) env w t h.1) fun _ _ _ h => ⟨h.1, by simp⟩

theorem ReadEnd.throw {e : Failure} {Q : α → Prop} :
    Spec CoachingCalendar.exec (fun w _ => Untouched t₀ j₀ w) (Prog.throw e) (ReadEnd t₀ j₀ Q) :=
  .throw fun _ _ hu => ⟨hu, by simp⟩

theorem ReadEnd.pure {a : α} {Q : α → Prop} (ha : Q a) :
    Spec CoachingCalendar.exec (fun w _ => Untouched t₀ j₀ w) (Prog.pure a) (ReadEnd t₀ j₀ Q) :=
  .pure fun _ _ hu => ⟨hu, fun _ h => by cases h; exact ha⟩

theorem Part.throw {e : Failure} : Part t₀ j₀ A C f (Prog.throw e : BookingProg α) where
  continues := trivial
  committed _ := .throw fun _ _ hu => hu.bookings

/-- A part that only reads, and then the rest, which may rely on what was read. -/
theorem Part.bind {p : BookingProg β} {g : β → BookingProg α} {Q : β → Prop} (hs : p.Still quiet ())
    (hp : Spec CoachingCalendar.exec (fun w _ => Untouched t₀ j₀ w) p (ReadEnd t₀ j₀ Q))
    (hg : ∀ a, Part t₀ j₀ (A ∧ Q a) C f (g a)) : Part t₀ j₀ A C f (p.bind g) where
  continues := (passes_of_still hs).continues_bind fun a => (hg a).continues
  committed hA := by
    rw [(passes_of_still hs).upTo_bind]
    exact .bind hp (fun a env w t h => (hg a).committed ⟨hA, h.2 a rfl⟩ env w t h.1) fun _ _ _ h => h.1.bookings

theorem Part.andThen {p : BookingProg β} {g : β → BookingProg α} (hs : p.Still quiet ())
    (hg : ∀ a, Part t₀ j₀ A C f (g a)) : Part t₀ j₀ A C f (p.bind g) where
  continues := (passes_of_still hs).continues_bind fun a => (hg a).continues
  committed hA := by
    rw [(passes_of_still hs).upTo_bind]
    exact .bind (Untouched.still hs) (fun a => (hg a).committed hA) fun _ _ _ h => h.bookings

/-- A part that ends with its commit, and then the rest. -/
theorem Part.commit {p : BookingProg BookingWithRelations} {g : BookingWithRelations → BookingProg α}
    (h : Part t₀ j₀ A C .pure p) : Part t₀ j₀ A C g (p.bind g) where
  continues := h.continues.bind g
  committed hA := by
    rw [h.continues.upTo_bind]
    exact h.committed hA

theorem parseStartAt_spec (startAt locale : String) :
    Spec CoachingCalendar.exec (fun w _ => Untouched t₀ j₀ w) (parseStartAt P startAt locale)
      (ReadEnd t₀ j₀ fun t => P.luxon.fromISO P.luxon.systemZone startAt = some t) := by
  unfold parseStartAt
  cases ht : P.luxon.fromISO P.luxon.systemZone startAt with
  | none => exact ReadEnd.throw
  | some t =>
      refine .bind (Untouched.still (quiet_ignores.perform rfl)) (fun now => ?_) fun _ _ _ hu => ⟨hu, by simp⟩
      dsimp only
      split
      · exact ReadEnd.throw
      · exact ReadEnd.pure rfl

theorem assertConfirmed_spec (status : BookingStatus) (locale : String) :
    Spec CoachingCalendar.exec (fun w _ => Untouched t₀ j₀ w) (assertConfirmed status locale)
      (ReadEnd t₀ j₀ fun _ => status = .confirmed) := by
  unfold assertConfirmed
  split
  · exact ReadEnd.throw
  · rename_i hs
    exact ReadEnd.pure (not_not.mp hs)

theorem assertConfirmed_quiet (status : BookingStatus) (locale : String) :
    (assertConfirmed status locale).Still quiet () := by
  unfold assertConfirmed
  split
  · exact .throw
  · exact .pure

theorem find_spec {o : Op} {Q : Ans o → Prop} (ho : o.quiet = true)
    (hQ : ∀ w ch a w', w.db.bookings = t₀ → CoachingCalendar.exec w o ch = (.ok a, w') → Q a) :
    Spec CoachingCalendar.exec (fun w _ => Untouched t₀ j₀ w) (perform o) (ReadEnd t₀ j₀ Q) := by
  refine .perform fun w t ch hu => ⟨hu.exec ho, fun a ha => ?_⟩
  cases hx : CoachingCalendar.exec w o ch with
  | mk r w' =>
      rw [hx] at ha
      cases (show r = .ok a from ha)
      exact hQ w ch a w' hu.bookings hx

theorem lookup_quiet {o : Op} (ho : o.quiet = true) : (perform o).Still quiet () := .perform ho fun _ => rfl

/-! ## The commit -/

theorem Part.returns {p : BookingProg BookingWithRelations} (hp : p.Continues committedRow .pure)
    (hs : A → Spec CoachingCalendar.exec (fun w _ => Untouched t₀ j₀ w) p
      (orBefore (fun w _ => Untouched t₀ j₀ w) fun b w _ => C b w)) : Part t₀ j₀ A C .pure p where
  continues := hp
  committed hA := by
    rw [hp.upTo_eq]
    exact .bind (hs hA) (fun b => .pure fun w _ h => ⟨b, rfl, h⟩) fun _ _ _ h => h.bookings

/-- What a committed transaction leaves. -/
structure Reserved (t₀ : Table Booking.id) (j₀ : List Job) (tx : SlotTransaction) (b : BookingWithRelations)
    (w : World) : Prop where
  jobs : w.jobs = j₀
  change : RowChange t₀ w.db.bookings b.toBooking
  same : t₀.find b.id = some b.toBooking → w.db.bookings = t₀
  write : match tx.write with
    | .create data => t₀.find b.id = none ∧ ∃ token, b.toBooking = data.toBooking b.id token
    | .move id => ∃ b₀, t₀.find id = some b₀ ∧ b.toBooking = moveTo tx.startAt tx.endAt b₀

theorem Committed.reserved {w w' : World} {tx : SlotTransaction} {b : BookingWithRelations}
    (h : Committed w tx b w') : Reserved w.db.bookings w.jobs tx b w' := by
  cases h with
  | create hw hi =>
      refine ⟨rfl, ⟨(Table.find_insert hi).trans (if_pos rfl), fun id hid => ?_⟩, fun hsame => ?_, ?_⟩
      · exact (Table.find_insert hi).trans (if_neg hid)
      · cases hsame.symm.trans (Table.insert_some hi).1
      · rw [hw]
        exact ⟨(Table.insert_some hi).1, _, rfl⟩
  | @move id b₀ hw hb =>
      have hfind := (Committed.move hw hb : Committed w tx _ _).find
      refine ⟨rfl, ⟨hfind, fun id' hid => ?_⟩, fun hsame => ?_, ?_⟩
      · exact Table.find_update_of_ne (moveTo_id _ _) (Table.find_key hb ▸ hid)
      · exact Table.update_of_eq (moveTo_id _ _) hb (Option.some.inj (hsame.symm.trans (Table.find_self hb)))
      · rw [hw]
        exact ⟨b₀, hb, rfl⟩

theorem reserveSlot_part {tx : SlotTransaction} (timezone : String) :
    Part t₀ j₀ A (Reserved t₀ j₀ tx) .pure (runSerializable (reserveSlot P tx timezone)) := by
  have attempt : (reserveSlot P tx timezone).Continues committedRow .pure := by
    refine (passes_of_still (assertWithinSchedule_still quiet_ignores _ _ _ _ _)).continues_bind fun _ => ?_
    exact .perform (fun _ _ h => by cases h; rfl) (fun _ h => by cases h) fun _ => rfl
  refine .returns ?_ fun _ => runSerializableFrom_spec _ _ ?_
  · unfold runSerializable
    induction SERIALIZATION_RETRY_ATTEMPTS with
    | zero => exact trivial
    | succ left ih =>
        refine attempt.orElse fun e => ?_
        split
        · exact trivial
        · exact ih
  · unfold reserveSlot
    refine .bind (Untouched.still (assertWithinSchedule_still quiet_ignores _ _ _ _ _)) (fun _ => ?_)
      fun _ _ _ hu => hu
    refine .perform fun w t ch hu => ?_
    cases hx : CoachingCalendar.exec w (.transaction tx) ch with
    | mk r w' =>
        rcases exec_transaction hx with ⟨e, rfl, rfl⟩ | ⟨d, _, _, b, rfl, hc⟩
        · exact hu
        · have := hc.reserved
          rwa [hu.bookings, hu.jobs] at this

/-- The change of a request is in the table. -/
structure Written (P : Platform) (t₀ : Table Booking.id) (j₀ : List Job) (call : Call) (b : BookingWithRelations)
    (w : World) : Prop where
  jobs : w.jobs = j₀
  change : RowChange t₀ w.db.bookings b.toBooking
  same : t₀.find b.id = some b.toBooking → w.db.bookings = t₀
  describes : call.Describes P t₀ b.toBooking

/-- The change of a request is in the table, and its notification in the queue. -/
structure Done (P : Platform) (t₀ : Table Booking.id) (j₀ : List Job) (call : Call) (b : BookingWithRelations)
    (w : World) : Prop where
  jobs : w.jobs = j₀ ++ [{ data := { bookingId := b.id, coachId := b.coachId, kind := call.kind } }]
  change : RowChange t₀ w.db.bookings b.toBooking
  describes : call.Describes P t₀ b.toBooking

theorem Part.conseq {C' : BookingWithRelations → World → Prop} {p : BookingProg α} (h : Part t₀ j₀ A C f p)
    (hC : A → ∀ b w, C b w → C' b w) : Part t₀ j₀ A C' f p where
  continues := h.continues
  committed hA := (h.committed hA).conseq (fun _ _ hu => hu) fun r w t hr => by
    cases r with
    | error e => exact hr
    | ok b =>
        obtain ⟨b', hb', hc⟩ := hr
        exact ⟨b', hb', hC hA b' w hc⟩

theorem create_part (dto : CreateBookingDto) (originUrl : Option String) :
    Part t₀ j₀ True (Written P t₀ j₀ (.create dto originUrl))
      (fun b => (BookingsService.enqueue b .confirmed).bind fun _ => .pure b)
      (BookingsService.create P dto originUrl) := by
  unfold BookingsService.create
  refine .bind (Q := fun x => ∀ eventType, x = some eventType → eventType.id = dto.eventTypeId) (lookup_quiet rfl)
    (find_spec rfl fun w ch x w' _ hx eventType he => ?_) fun x => ?_
  · rw [exec_eventTypeFindUnique hx] at he
    exact Table.find_key he
  cases x with
  | none => exact .throw
  | some eventType =>
      dsimp only
      split
      · exact .throw
      split
      · exact .throw
      refine .andThen (SettingsService.get_still quiet_ignores _) fun settings => ?_
      refine .bind (parseStartAt_still quiet_ignores _ _) (parseStartAt_spec _ _) fun startAt => ?_
      refine .andThen (assertSameCalendarDay_still _ _ _ _) fun _ => ?_
      refine .commit ((reserveSlot_part _).conseq fun ⟨⟨_, hx⟩, hstart⟩ b w hr => ⟨hr.jobs, hr.change, hr.same, ?_⟩)
      obtain ⟨hnone, token, hb⟩ := hr.write
      rw [hb]
      exact ⟨hnone, rfl, hx _ rfl, hstart, rfl, rfl, rfl, rfl, rfl, rfl, rfl⟩

/-! ## Cancellations -/

theorem getAuthenticatedClient_quiet (coachId : String) : (getAuthenticatedClient P coachId).Still quiet () := by
  unfold getAuthenticatedClient
  refine .bind (.perform rfl fun _ => rfl) fun integration => ?_
  split
  · exact .throw
  · split
    · exact .throw
    · exact .pure

theorem deleteEvent_quiet (coachId : String) (eventId : Nat) : (deleteEvent P coachId eventId).Still quiet () :=
  .bind (getAuthenticatedClient_quiet _) fun _ => .orElse (.perform rfl fun _ => rfl) fun _ => .pure

theorem RowChange.trans {t t' t'' : Table Booking.id} {b b' : Booking} (h : RowChange t t' b)
    (h' : RowChange t' t'' b') (hid : b'.id = b.id) : RowChange t t'' b' :=
  ⟨h'.row, fun id hne => (h'.others id hne).trans (h.others id (hid ▸ hne))⟩

theorem exec_update_change {w w' : World} {ch : Choice} {id : String} {patch : BookingPatch}
    {b₁ : BookingWithRelations} (h : CoachingCalendar.exec w (.bookingUpdate id patch) ch = (.ok b₁, w')) :
    w'.jobs = w.jobs ∧ ∃ b, w.db.bookings.find id = some b ∧ b₁.toBooking = patch.apply b ∧
      RowChange w.db.bookings w'.db.bookings b₁.toBooking := by
  have hrow := exec_returnedRow (o := .bookingUpdate id patch) h rfl
  rcases exec_bookingUpdate h with ⟨e, he, _⟩ | ⟨b, hb, he, rfl⟩
  · cases he
  · cases he
    refine ⟨rfl, b, hb, rfl, hrow, fun id' hne => ?_⟩
    exact Table.find_update_of_ne patch.apply_id (Table.find_key hb ▸ hne)

theorem cancellation_part {call : Call} {b : BookingWithRelations} {cancelledBy : CancelledBy} {reason : Option String}
    (hb : A → t₀.find b.id = some b.toBooking ∧ b.status = .confirmed)
    (hd : A → call.Describes P t₀
      (BookingPatch.apply ⟨some .cancelled, some cancelledBy, reason, none, none⟩ b.toBooking)) :
    Part t₀ j₀ A (Written P t₀ j₀ call) .pure (BookingsService.applyCancellation P b cancelledBy reason) := by
  have update : Part t₀ j₀ A (Written P t₀ j₀ call) .pure
      (perform (Op.bookingUpdate b.id ⟨some .cancelled, some cancelledBy, reason, none, none⟩)) := by
    refine .returns (.perform (fun _ _ h => by cases h; rfl) (fun _ h => by cases h) fun _ => rfl) fun hA => ?_
    refine .perform fun w t ch hu => ?_
    cases hx : CoachingCalendar.exec w (.bookingUpdate b.id _) ch with
    | mk r w' =>
        cases r with
        | error e => exact exec_error hx ▸ hu
        | ok b₁ =>
            obtain ⟨hjobs, b₀, hb₀, hb₁, hc⟩ := exec_update_change hx
            rw [hu.bookings] at hb₀ hc
            obtain ⟨hrow, hs⟩ := hb hA
            cases hrow.symm.trans hb₀
            refine ⟨hjobs.trans hu.jobs, hc, fun hsame => ?_, hb₁ ▸ hd hA⟩
            -- the row was confirmed
            rw [hb₁] at hsame
            have hstatus := congrArg Booking.status (Option.some.inj (hrow.symm.trans hsame))
            cases hs.symm.trans hstatus
  unfold BookingsService.applyCancellation
  cases b.googleEventId with
  | none => exact update
  | some eventId => exact .andThen (deleteEvent_quiet _ _) fun _ => update

theorem findByManageToken_quiet (token : String) : (BookingsService.findByManageToken token).Still quiet () := by
  unfold BookingsService.findByManageToken
  refine .bind (lookup_quiet rfl) fun x => ?_
  cases x with
  | none => exact .throw
  | some b => exact .pure

theorem findByManageToken_spec (token : String) :
    Spec CoachingCalendar.exec (fun w _ => Untouched t₀ j₀ w) (BookingsService.findByManageToken token)
      (ReadEnd t₀ j₀ fun b => t₀.find b.id = some b.toBooking ∧ b.manageToken = token) := by
  unfold BookingsService.findByManageToken
  refine ReadEnd.andThen (Q := fun x => ∀ b, x = some b →
    t₀.find b.id = some b.toBooking ∧ b.manageToken = token) (find_spec rfl ?_) fun x hx => ?_
  · rintro w ch x w' ht hx b rfl
    rw [← ht]
    exact exec_bookingFindByManageToken hx
  · cases x with
    | none => exact ReadEnd.throw
    | some b => exact ReadEnd.pure (hx b rfl)

theorem cancelByClient_part (token : String) (reason : Option String) :
    Part t₀ j₀ True (Written P t₀ j₀ (.cancelByClient token reason))
      (fun b => (BookingsService.enqueue b .cancelled).bind fun _ => .pure b)
      (BookingsService.cancelByClient P token reason) := by
  unfold BookingsService.cancelByClient
  refine .bind (findByManageToken_quiet token) (findByManageToken_spec token) fun b => ?_
  refine .bind (assertConfirmed_quiet _ _) (assertConfirmed_spec _ _) fun _ => ?_
  refine .andThen (assertWithinNoticeWindow_still quiet_ignores _ _ _) fun _ => ?_
  refine .commit (cancellation_part (fun ⟨⟨_, hb, _⟩, hs⟩ => ⟨hb, hs⟩) fun ⟨⟨_, hb, ht⟩, hs⟩ => ?_)
  exact ⟨b.toBooking, Table.find_mem hb, ht, hs, rfl⟩

theorem cancelByCoach_part (coach : Coach) (bookingId reason : String) :
    Part t₀ j₀ True (Written P t₀ j₀ (.cancelByCoach coach bookingId reason))
      (fun b => (BookingsService.enqueue b .cancelled).bind fun _ => .pure b)
      (BookingsService.cancelByCoach P coach bookingId reason) := by
  unfold BookingsService.cancelByCoach
  refine .bind (Q := fun x => ∀ b, x = some b → t₀.find b.id = some b.toBooking ∧ b.id = bookingId) (lookup_quiet rfl)
    (find_spec rfl ?_) fun x => ?_
  · rintro w ch x w' ht hx b rfl
    rw [← ht]
    exact exec_bookingFindUnique hx
  cases x with
  | none => exact .throw
  | some b =>
      unfold assertCoachOwnsOrIsAdmin
      dsimp only
      split
      · exact .throw
      · change Part _ _ _ _ _ (Prog.bind (assertConfirmed b.status coach.preferredLocale) _)
        refine .bind (assertConfirmed_quiet _ _) (assertConfirmed_spec _ _) fun _ => ?_
        refine .commit (cancellation_part (fun h => ⟨(h.1.2 b rfl).1, h.2⟩) fun h => ?_)
        obtain ⟨hb, hid⟩ := h.1.2 b rfl
        exact ⟨b.toBooking, Table.find_mem hb, hid, h.2, rfl⟩

theorem rescheduleByClient_part (token newStartAt : String) :
    Part t₀ j₀ True (Written P t₀ j₀ (.rescheduleByClient token newStartAt))
      (fun b => (BookingsService.dropMeetLink P b).bind fun u =>
        (BookingsService.enqueue u .rescheduled).bind fun _ => .pure u)
      (BookingsService.rescheduleByClient P token newStartAt) := by
  unfold BookingsService.rescheduleByClient
  refine .bind (findByManageToken_quiet token) (findByManageToken_spec token) fun b => ?_
  refine .bind (assertConfirmed_quiet _ _) (assertConfirmed_spec _ _) fun _ => ?_
  refine .andThen (assertWithinNoticeWindow_still quiet_ignores _ _ _) fun _ => ?_
  refine .andThen (SettingsService.get_still quiet_ignores _) fun settings => ?_
  refine .bind (parseStartAt_still quiet_ignores _ _) (parseStartAt_spec _ _) fun startAt => ?_
  refine .andThen (assertSameCalendarDay_still _ _ _ _) fun _ => ?_
  refine .commit ((reserveSlot_part _).conseq fun ⟨⟨⟨_, hb, ht⟩, hs⟩, hstart⟩ u w hr =>
    ⟨hr.jobs, hr.change, hr.same, ?_⟩)
  obtain ⟨b₀, hb₀, hmoved⟩ := hr.write
  cases hb.symm.trans hb₀
  exact ⟨b.toBooking, Table.find_mem hb, ht, hs, startAt, hstart, .inl hmoved⟩

end Parts

variable {P : Platform} {t₀ : Table Booking.id} {j₀ : List Job}

/-! ## After the commit -/

/-- The event that a reschedule deletes. -/
def Call.droppedEvent : Call → BookingWithRelations → Option Nat
  | .rescheduleByClient _ _, b => if b.location = .googleMeet then b.googleEventId else none
  | _, _ => none

section After

variable (P) (env : Trace → Choice) (b : BookingWithRelations) (eventId : Nat) (s : World × Trace)

/-- The deletion of an event has been tried. -/
def afterDelete : World × Trace :=
  after exec env (after exec env s (.integrationFindUnique b.coachId)) (.calendarDelete b.coachId eventId)

/-- The client for the deletion is there, and the update that clears the link does not fail. -/
def Dropped : Prop :=
  ((env s.2).fault = none ∧ connected P (.ok (s.1.db.googleIntegrations.find b.coachId)) = true) ∧
    (env (afterDelete env b eventId s).2).fault = none

/-- The deletion of the event and the update that clears the link have been tried. -/
def afterDrop : World × Trace :=
  after exec env (afterDelete env b eventId s)
    (.bookingUpdate b.id { meetLink := some none, googleEventId := some none })

/-- What the call needs after its commit does not fail. -/
def Call.Through (call : Call) : Prop :=
  match call.droppedEvent b with
  | none => (env s.2).fault = none
  | some eventId => Dropped P env b eventId s ∧ (env (afterDrop env b eventId s).2).fault = none

/-- The commit has changed the row of the booking, or its link is cleared after it. -/
def Call.Leaves (t₀ : Table Booking.id) (call : Call) : Prop :=
  t₀.find b.id ≠ some b.toBooking ∨ ∃ eventId, call.droppedEvent b = some eventId ∧ Dropped P env b eventId s

end After

section Rest

variable {env : Trace → Choice} {b : BookingWithRelations} {eventId : Nat} {s : World × Trace} {call : Call}

/-- How a call ends after its commit: with its notification in the queue, or with an error and what it `leaves`. -/
def Ended (P : Platform) (t₀ : Table Booking.id) (j₀ : List Job) (call : Call) (through leaves : Prop)
    (out : Prog.Outcome World Ans Failure BookingWithRelations) : Prop :=
  through ∧ (∃ b, out.result = .ok b ∧ Done P t₀ j₀ call b out.world) ∨
    ¬ through ∧ (∃ e, out.result = .error e) ∧ (out.world.db.bookings = t₀ ↔ ¬ leaves)

theorem enqueue_ended {leaves : Prop} (hw : Written P t₀ j₀ call b s.1) (hl : s.1.db.bookings = t₀ ↔ ¬ leaves) :
    Ended P t₀ j₀ call ((env s.2).fault = none) leaves
      (((BookingsService.enqueue b call.kind).bind fun _ => .pure b).run exec env s.1 s.2) := by
  unfold BookingsService.enqueue
  cases hf : (env s.2).fault with
  | none =>
      have hx : exec s.1 (.jobSend ⟨b.id, b.coachId, call.kind⟩) (env s.2) = _ := unlessFault_none hf _
      rw [run_perform_ok (congrArg Prod.fst hx), after, hx]
      exact .inl ⟨rfl, b, rfl, by rw [← hw.jobs]; rfl, hw.change, hw.describes⟩
  | some e =>
      have hx : exec s.1 (.jobSend ⟨b.id, b.coachId, call.kind⟩) (env s.2) = _ := unlessFault_some hf _
      rw [run_perform_error (congrArg Prod.fst hx), after, hx]
      exact .inr ⟨by simp, ⟨e, rfl⟩, hl⟩

theorem lookup_untouched (coachId : String) :
    Untouched s.1.db.bookings s.1.jobs (after exec env s (.integrationFindUnique coachId)).1 :=
  Untouched.exec rfl ⟨rfl, rfl⟩

theorem afterDelete_untouched : Untouched s.1.db.bookings s.1.jobs (afterDelete env b eventId s).1 :=
  Untouched.exec rfl (lookup_untouched _)

theorem getAuthenticatedClient_run {coachId : String} (h : (env s.2).fault = none ∧
    connected P (.ok (s.1.db.googleIntegrations.find coachId)) = true) (q : BookingProg α) :
    ((getAuthenticatedClient P coachId).bind fun _ => q).run exec env s.1 s.2 =
      q.run exec env (after exec env s (.integrationFindUnique coachId)).1
        (after exec env s (.integrationFindUnique coachId)).2 := by
  obtain ⟨hf, hconn⟩ := h
  have hx : exec s.1 (.integrationFindUnique coachId) (env s.2) = _ := unlessFault_none hf _
  unfold getAuthenticatedClient
  rw [bind_eq, bind_assoc, run_perform_ok (congrArg Prod.fst hx)]
  generalize s.1.db.googleIntegrations.find coachId = found at hconn ⊢
  cases found with
  | none => cases hconn
  | some g =>
      dsimp only
      cases hd : P.decrypt g.refreshTokenEncrypted with
      | none => simp [connected, hd] at hconn
      | some token => rfl

theorem getAuthenticatedClient_stops {coachId : String} (h : ¬ ((env s.2).fault = none ∧
    connected P (.ok (s.1.db.googleIntegrations.find coachId)) = true)) (q : BookingProg α) :
    ∃ e, ((getAuthenticatedClient P coachId).bind fun _ => q).run exec env s.1 s.2 =
      ⟨.error e, (after exec env s (.integrationFindUnique coachId)).1,
        (after exec env s (.integrationFindUnique coachId)).2⟩ := by
  unfold getAuthenticatedClient
  rw [bind_eq, bind_assoc]
  cases hf : (env s.2).fault with
  | some e =>
      have hx : exec s.1 (.integrationFindUnique coachId) (env s.2) = _ := unlessFault_some hf _
      exact ⟨e, run_perform_error (congrArg Prod.fst hx) _⟩
  | none =>
      have hx : exec s.1 (.integrationFindUnique coachId) (env s.2) = _ := unlessFault_none hf _
      rw [run_perform_ok (congrArg Prod.fst hx)]
      replace h := fun hc => h ⟨hf, hc⟩
      generalize s.1.db.googleIntegrations.find coachId = found at h ⊢
      cases found with
      | none => exact ⟨_, rfl⟩
      | some g =>
          dsimp only
          cases hd : P.decrypt g.refreshTokenEncrypted with
          | none => exact ⟨_, rfl⟩
          | some token => exact absurd (by simp [connected, hd]) h

theorem deleteEvent_run (h : (env s.2).fault = none ∧
    connected P (.ok (s.1.db.googleIntegrations.find b.coachId)) = true) (q : BookingProg α) :
    ((deleteEvent P b.coachId eventId).bind fun _ => q).run exec env s.1 s.2 =
      q.run exec env (afterDelete env b eventId s).1 (afterDelete env b eventId s).2 := by
  unfold deleteEvent
  rw [bind_eq, bind_assoc, getAuthenticatedClient_run h]
  exact run_swallow (o := .calendarDelete b.coachId eventId) () q

theorem deleteEvent_stops (h : ¬ ((env s.2).fault = none ∧
    connected P (.ok (s.1.db.googleIntegrations.find b.coachId)) = true)) (q : BookingProg α) :
    ∃ e, ((deleteEvent P b.coachId eventId).bind fun _ => q).run exec env s.1 s.2 =
      ⟨.error e, (after exec env s (.integrationFindUnique b.coachId)).1,
        (after exec env s (.integrationFindUnique b.coachId)).2⟩ := by
  unfold deleteEvent
  rw [bind_eq, bind_assoc]
  exact getAuthenticatedClient_stops h _

theorem clear_run (h : (env s.2).fault = none) (hrow : s.1.db.bookings.find b.id = some b.toBooking) :
    ∃ u : BookingWithRelations, u.id = b.id ∧
      u.toBooking = BookingPatch.apply { meetLink := some none, googleEventId := some none } b.toBooking ∧
      (exec s.1 (.bookingUpdate b.id { meetLink := some none, googleEventId := some none }) (env s.2)).1 = .ok u := by
  refine ⟨s.1.db.withRelations (BookingPatch.apply { meetLink := some none, googleEventId := some none } b.toBooking),
    rfl, rfl, ?_⟩
  simp only [exec, unlessFault_none h, hrow]

/-- The row of before had an event, so the cleared row is not the row of before. -/
theorem Written.cleared {token newStartAt : String} {u : BookingWithRelations} {w w' : World}
    (hw : Written P t₀ j₀ (.rescheduleByClient token newStartAt) b w) (he : b.googleEventId = some eventId)
    (hid : u.id = b.id)
    (hu : u.toBooking = BookingPatch.apply { meetLink := some none, googleEventId := some none } b.toBooking)
    (hjobs : w'.jobs = w.jobs) (hc : RowChange w.db.bookings w'.db.bookings u.toBooking) :
    Written P t₀ j₀ (.rescheduleByClient token newStartAt) u w' ∧ w'.db.bookings ≠ t₀ := by
  obtain ⟨b₀, hb₀, ht, hs, startAt, hstart, hmoved⟩ := hw.describes
  have hgone : u.googleEventId = none := congrArg Booking.googleEventId hu
  have hmoved : b.toBooking = moveTo startAt (startAt + (b₀.endAt - b₀.startAt)) b₀ := by
    rcases hmoved with h | h
    · exact h
    · cases he.symm.trans (congrArg Booking.googleEventId h)
  have hnew : t₀.find u.id ≠ some u.toBooking := by
    intro hsame
    have hself := Table.find_some.mpr ⟨hb₀, (congrArg Booking.id hmoved).symm.trans hid.symm⟩
    have hold := congrArg Booking.googleEventId (Option.some.inj (hself.symm.trans hsame))
    have hevent : b.googleEventId = b₀.googleEventId := (congrArg Booking.googleEventId hmoved :)
    cases he.symm.trans (hevent.trans (hold.trans hgone))
  exact ⟨⟨hjobs.trans hw.jobs, hw.change.trans hc hid, fun hsame => absurd hsame hnew,
    b₀, hb₀, ht, hs, startAt, hstart, .inr (hu.trans (by rw [hmoved]))⟩, fun h => hnew (h ▸ hc.row)⟩

theorem dropMeetLink_ended {token newStartAt : String} (hloc : b.location = .googleMeet)
    (he : b.googleEventId = some eventId) (hw : Written P t₀ j₀ (.rescheduleByClient token newStartAt) b s.1)
    {changed : Prop} (hl : s.1.db.bookings = t₀ ↔ ¬ changed) :
    Ended P t₀ j₀ (.rescheduleByClient token newStartAt)
      (Dropped P env b eventId s ∧ (env (afterDrop env b eventId s).2).fault = none)
      (changed ∨ Dropped P env b eventId s)
      (((BookingsService.dropMeetLink P b).bind fun u =>
        (BookingsService.enqueue u .rescheduled).bind fun _ => .pure u).run exec env s.1 s.2) := by
  have hkept := @afterDelete_untouched env b eventId s
  simp only [BookingsService.dropMeetLink, hloc, he, bind_eq, bind_assoc]
  by_cases hlook : (env s.2).fault = none ∧ connected P (.ok (s.1.db.googleIntegrations.find b.coachId)) = true
  · rw [deleteEvent_run hlook]
    cases hf : (env (afterDelete env b eventId s).2).fault with
    | some e =>
        have hnot : ¬ Dropped P env b eventId s := fun h => by cases hf.symm.trans h.2
        have hx : exec (afterDelete env b eventId s).1
            (.bookingUpdate b.id { meetLink := some none, googleEventId := some none })
            (env (afterDelete env b eventId s).2) = _ := unlessFault_some hf _
        rw [run_perform_error (congrArg Prod.fst hx), after, hx]
        refine .inr ⟨fun h => hnot h.1, ⟨e, rfl⟩, ?_⟩
        rw [or_iff_left hnot, ← hl]
        exact iff_of_eq (congrArg (· = t₀) hkept.bookings)
    | none =>
        have hdropped : Dropped P env b eventId s := ⟨hlook, hf⟩
        have hrow := hkept.bookings ▸ hw.change.row
        obtain ⟨u, hid, hu, hx⟩ := clear_run hf hrow
        rw [run_perform_ok hx]
        change Ended _ _ _ _ _ _ (Prog.run exec env _ (afterDrop env b eventId s).1 (afterDrop env b eventId s).2)
        obtain ⟨hjobs, -, -, -, hc⟩ := exec_update_change (Prod.ext hx rfl)
        rw [hkept.bookings] at hc
        obtain ⟨hcleared, hnew⟩ := hw.cleared he hid hu (hjobs.trans hkept.jobs) hc
        simp only [hdropped, true_and, or_true]
        exact @enqueue_ended P t₀ j₀ env u (afterDrop env b eventId s) (.rescheduleByClient token newStartAt) _ hcleared
          (iff_of_false hnew (not_not.mpr trivial))
  · have hnot : ¬ Dropped P env b eventId s := fun h => hlook h.1
    obtain ⟨e, hrun⟩ := deleteEvent_stops hlook (α := BookingWithRelations) _
    rw [hrun]
    refine .inr ⟨fun h => hnot h.1, ⟨e, rfl⟩, ?_⟩
    rw [or_iff_left hnot, ← hl, (lookup_untouched b.coachId).bookings]

/-- What a call does after its commit. -/
def Call.rest (P : Platform) : Call → BookingWithRelations → BookingProg BookingWithRelations
  | .rescheduleByClient _ _, b => (BookingsService.dropMeetLink P b).bind fun u =>
      (BookingsService.enqueue u .rescheduled).bind fun _ => .pure u
  | call, b => (BookingsService.enqueue b call.kind).bind fun _ => .pure b

/-- A call ends well when what it needs after its commit does not fail. -/
theorem Call.rest_ended (hw : Written P t₀ j₀ call b s.1) :
    Ended P t₀ j₀ call (call.Through P env b s) (call.Leaves P env b s t₀) ((call.rest P b).run exec env s.1 s.2) := by
  have hl : s.1.db.bookings = t₀ ↔ ¬ t₀.find b.id ≠ some b.toBooking :=
    ⟨fun h => not_not.mpr (h ▸ hw.change.row), fun h => hw.same (not_not.mp h)⟩
  have other : call.droppedEvent b = none →
      call.rest P b = ((BookingsService.enqueue b call.kind).bind fun _ => .pure b) →
      Ended P t₀ j₀ call (call.Through P env b s) (call.Leaves P env b s t₀)
        ((call.rest P b).run exec env s.1 s.2) := by
    intro hnone hrest
    rw [hrest, Call.Through, Call.Leaves, hnone]
    simp only [reduceCtorEq, false_and, exists_false, or_false]
    exact enqueue_ended hw hl
  cases call with
  | rescheduleByClient token newStartAt =>
      cases hd : (Call.rescheduleByClient token newStartAt).droppedEvent b with
      | some eventId =>
          rw [Call.droppedEvent, Option.ite_none_right_eq_some] at hd
          have hd' : (Call.rescheduleByClient token newStartAt).droppedEvent b = some eventId := by
            rw [Call.droppedEvent, if_pos hd.1, hd.2]
          rw [Call.Through, Call.Leaves, hd']
          simp only [Option.some.injEq, exists_eq_left']
          exact dropMeetLink_ended hd.1 hd.2 hw hl
      | none =>
          refine other hd ?_
          have hkeep : BookingsService.dropMeetLink P b = .pure b := by
            unfold BookingsService.dropMeetLink
            split
            · rename_i hloc he
              rw [Call.droppedEvent, if_pos hloc, he] at hd
              cases hd
            · rfl
          rw [Call.rest, hkeep]
          rfl
  | _ => exact other rfl rfl

end Rest

/-! ## Requests -/

theorem Call.part {call : Call} (hc : call.isRequest) :
    Part t₀ j₀ True (Written P t₀ j₀ call) (fun b => (call.rest P b).bind fun b => .pure (some b)) (call.body P) := by
  have request : ∀ {p : BookingProg BookingWithRelations}, Part t₀ j₀ True (Written P t₀ j₀ call) (call.rest P) p →
      Part t₀ j₀ True (Written P t₀ j₀ call) (fun b => (call.rest P b).bind fun b => .pure (some b))
        (p.bind fun b => .pure (some b)) := fun hp =>
    ⟨hp.continues.bind _, fun hA => by rw [hp.continues.upTo_bind]; exact hp.committed hA⟩
  cases call with
  | create dto originUrl => exact request (create_part dto originUrl)
  | cancelByClient token reason => exact request (cancelByClient_part token reason)
  | cancelByCoach coach bookingId reason => exact request (cancelByCoach_part coach bookingId reason)
  | rescheduleByClient token newStartAt => exact request (rescheduleByClient_part token newStartAt)
  | work job => cases hc

/-- A request throws before its commit and has written nothing, or it commits and goes on. -/
theorem Call.run_body {call : Call} (hc : call.isRequest) (w : World) (env : Trace → Choice) :
    (∃ b w' t, ((call.body P).upTo committedRow).run exec env w [] = ⟨.ok (some b), w', t⟩ ∧
      Written P w.db.bookings w.jobs call b w' ∧
      (call.body P).run exec env w [] = ((call.rest P b).bind fun b => .pure (some b)).run exec env w' t) ∨
    ∃ e w' t, ((call.body P).upTo committedRow).run exec env w [] = ⟨.error e, w', t⟩ ∧
      w'.db.bookings = w.db.bookings ∧ (call.body P).run exec env w [] = ⟨.error e, w', t⟩ := by
  have hp := @Call.part P w.db.bookings w.jobs call hc
  have hcommit := hp.committed trivial env w [] ⟨rfl, rfl⟩
  rcases hp.continues.run exec env w [] with ⟨b, w', t, hup, hrun⟩ | ⟨e, w', t, hup, hrun⟩
  · rw [hup] at hcommit
    obtain ⟨_, hb, hw⟩ := hcommit
    cases hb
    exact .inl ⟨b, w', t, hup, hw, hrun⟩
  · rw [hup] at hcommit
    exact .inr ⟨e, w', t, hup, hcommit, hrun⟩

theorem Call.body_done {call : Call} (hc : call.isRequest) {w : World} {env : Trace → Choice}
    {x : Option BookingWithRelations} (h : ((call.body P).run exec env w []).result = .ok x) :
    ∃ b, x = some b ∧ Done P w.db.bookings w.jobs call b ((call.body P).run exec env w []).world := by
  rcases call.run_body (P := P) hc w env with ⟨b, w', t, -, hw, hrun⟩ | ⟨e, w', t, -, -, hrun⟩
  · rw [hrun, run_bind] at h ⊢
    have hend := @Call.rest_ended P w.db.bookings w.jobs env b (w', t) call hw
    generalize (call.rest P b).run exec env w' t = out at h hend ⊢
    obtain ⟨_ | b', w'', t'⟩ := out
    · cases h
    · rcases hend with ⟨-, b'', hb'', hd⟩ | ⟨-, ⟨e, he⟩, -⟩
      · cases hb''
        cases h
        exact ⟨_, rfl, hd⟩
      · cases he
  · rw [hrun] at h
    cases h

end CoachingCalendar
