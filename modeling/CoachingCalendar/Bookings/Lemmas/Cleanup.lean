import CoachingCalendar.Bookings.Lemmas.Atomic

/-!
# Requests that delete a calendar event

Requests alone, where nothing fails from outside but Google. What comes of the event is up to Google, the
rest of a request is settled by the state it starts from.
-/

namespace CoachingCalendar
open Lib Lib.Prog

variable {P : Platform} {α : Type} {w w' : World} {b : Booking}

/-- Nothing fails from outside but what Google answers. -/
def execGoogle (w : World) (o : Op) (ch : Choice) : Except Failure (Ans o) × World :=
  exec w o (if o.dates then ch else { ch with fault := none })

/-- The integration of the coach is there, and its token can be decrypted. -/
def Connected (P : Platform) (db : Db) (coachId : String) : Prop :=
  connected P (.ok (db.googleIntegrations.find coachId)) = true

/-- The request is about the booking `b`, and passes the checks. -/
def Call.PassesChecks (w : World) (b : Booking) : Call → Prop
  | .cancelByClient token _ => w.db.bookings.findFirst (fun b => b.manageToken = token) = some b ∧
      b.status = .confirmed ∧ ∃ settings, w.db.settingsOf b.coachId = some settings ∧
        w.clock + settings.cancellationNoticeHours * msPerHour ≤ b.startAt
  | .cancelByCoach coach bookingId _ => w.db.bookings.find bookingId = some b ∧
      (b.coachId = coach.id ∨ coach.role = .admin) ∧ b.status = .confirmed
  | _ => False

/-- The booking is cancelled, and the message that says so is in the queue. -/
def CancelledAndQueued (b : Booking) (w w' : World) : Prop :=
  (∃ b', w'.db.bookings.find b.id = some b' ∧ b'.status = .cancelled) ∧
    w'.jobs = w.jobs ++ [{ data := ⟨b.id, b.coachId, .cancelled⟩ }]

/-- The booking has no event any more, and the message that it has moved is in the queue. -/
def ClearedAndQueued (b : Booking) (w w' : World) : Prop :=
  (∃ b', w'.db.bookings.find b.id = some b' ∧ b'.meetLink = none ∧ b'.googleEventId = none) ∧
    w'.jobs = w.jobs ++ [{ data := ⟨b.id, b.coachId, .rescheduled⟩ }]

/-- The transaction of the request has committed. -/
def commits : Event Ans Failure → Bool
  | ⟨.transaction _, .ok _⟩ => true
  | _ => false

def Commits (t : Trace) : Prop := ∃ x ∈ t, commits x.event = true

/-! ## One operation -/

theorem execGoogle_eq {o : Op} (ho : o.dates = false) (ch : Choice) :
    execGoogle w o ch = exec w o { ch with fault := none } := by
  simp [execGoogle, ho]

/-- What a request changes besides the calendar is as it was. -/
structure Unchanged (w w' : World) : Prop where
  bookings : w'.db.bookings = w.db.bookings
  jobs : w'.jobs = w.jobs
  googleIntegrations : w'.db.googleIntegrations = w.db.googleIntegrations

theorem Unchanged.refl (w : World) : Unchanged w w := ⟨rfl, rfl, rfl⟩

theorem Unchanged.trans {w₁ : World} (h : Unchanged w w₁) (h' : Unchanged w₁ w') : Unchanged w w' :=
  ⟨h'.bookings.trans h.bookings, h'.jobs.trans h.jobs, h'.googleIntegrations.trans h.googleIntegrations⟩

theorem execGoogle_unchanged {o : Op} (ho : o.quiet = true) (ch : Choice) : Unchanged w (execGoogle w o ch).2 := by
  rw [Op.quiet, Bool.and_eq_true, Bool.not_eq_true', Bool.not_eq_true'] at ho
  rw [execGoogle]
  cases hx : exec w o (if o.dates then ch else { ch with fault := none }) with
  | mk r w' => exact ⟨(exec_frame ho.1 hx).1, exec_jobs ho.2 hx, (exec_onlyRead hx).googleIntegrations⟩

/-! ## Google -/

section Google

variable {coachId : String} {eventId : Nat}

theorem getAuthenticatedClient_ends :
    Ends execGoogle (getAuthenticatedClient P coachId) w fun r w' =>
      w' = w ∧ (Connected P w.db coachId ↔ ∃ token, r = .ok token) := by
  have lookup : Ends execGoogle (perform (Op.integrationFindUnique coachId)) w
      (returns fun g w' => w' = w ∧ g = w.db.googleIntegrations.find coachId) := .perform fun _ => ⟨rfl, rfl⟩
  refine lookup.seq fun g w₁ h => ?_
  obtain ⟨rfl, rfl⟩ := h
  unfold Connected connected
  cases w₁.db.googleIntegrations.find coachId with
  | none => exact .throw (by simp)
  | some g =>
      dsimp only
      cases P.decrypt g.refreshTokenEncrypted with
      | none => exact .throw (by simp)
      | some token => exact .pure (by simp)

/-- The deletion of an event does not fail for a coach who is connected, whatever Google answers. -/
theorem deleteEvent_returns (h : Connected P w.db coachId) :
    Ends execGoogle (deleteEvent P coachId eventId) w (returns fun _ => Unchanged w) := by
  refine getAuthenticatedClient_ends.bind (fun _ w' hw => ?_) fun e _ hw => ?_
  · obtain ⟨rfl, -⟩ := hw
    exact .swallow (.perform fun ch => execGoogle_unchanged rfl ch)
  · obtain ⟨token, ht⟩ := hw.2.mp h
    cases ht

theorem deleteEvent_fails (h : ¬ Connected P w.db coachId) :
    Ends execGoogle (deleteEvent P coachId eventId) w (raises (· = w)) := by
  refine getAuthenticatedClient_ends.bind (fun token _ hw => ?_) fun _ _ hw => hw.1
  exact absurd (hw.2.mpr ⟨token, rfl⟩) h

end Google

/-! ## The writes after it -/

theorem bookingUpdate_returns {patch : BookingPatch} (hb : w.db.bookings.find b.id = some b) :
    Ends execGoogle (perform (Op.bookingUpdate b.id patch)) w (returns fun b₁ w' => b₁.toBooking = patch.apply b ∧
      w'.db.bookings.find b.id = some b₁.toBooking ∧ w'.jobs = w.jobs) := by
  refine .perform fun ch => ?_
  rw [execGoogle_eq rfl, exec, unlessFault_none rfl, hb]
  exact ⟨rfl, Table.find_update_found patch.apply_id hb, rfl⟩

theorem enqueue_returns (b : BookingWithRelations) (kind : NotificationKind) :
    Ends execGoogle (BookingsService.enqueue b kind) w (returns fun _ w' =>
      w'.db = w.db ∧ w'.jobs = w.jobs ++ [{ data := ⟨b.id, b.coachId, kind⟩ }]) :=
  .perform fun _ => ⟨rfl, rfl⟩

/-! ## Cancellations -/

section Cancel

variable {row : BookingWithRelations} {cancelledBy : CancelledBy} {reason : Option String} {eventId : Nat}

theorem not_queued {w w' : World} {data : NotificationJobData} (h : w'.jobs = w.jobs) :
    w'.jobs ≠ w.jobs ++ [{ data := data }] := by
  rw [h]; simp

theorem cancelling_ends (he : row.googleEventId = some eventId) (hb : w.db.bookings.find row.id = some row.toBooking) :
    Ends execGoogle ((BookingsService.applyCancellation P row cancelledBy reason).bind fun updated =>
        (BookingsService.enqueue updated .cancelled).bind fun _ => .pure updated) w
      fun _ w' => CancelledAndQueued row.toBooking w w' ↔ Connected P w.db row.coachId := by
  by_cases h : Connected P w.db row.coachId
  · have update : Ends execGoogle (BookingsService.applyCancellation P row cancelledBy reason) w
        (returns fun b₁ w' => b₁.toBooking = BookingPatch.apply ⟨some .cancelled, some cancelledBy, reason, none, none⟩
          row.toBooking ∧ w'.db.bookings.find row.id = some b₁.toBooking ∧ w'.jobs = w.jobs) := by
      unfold BookingsService.applyCancellation
      rw [he]
      refine (deleteEvent_returns h).seq fun _ w₁ h₁ => ?_
      rw [← h₁.jobs]
      exact bookingUpdate_returns (b := row.toBooking) (h₁.bookings ▸ hb)
    refine update.seq fun b₁ w₁ ⟨hb₁, hrow, hj⟩ => (enqueue_returns b₁ .cancelled).seq fun _ w₂ ⟨hdb, hq⟩ => .pure ?_
    have hid : b₁.id = row.id := (congrArg Booking.id hb₁ :)
    have hcoach : b₁.coachId = row.coachId := (congrArg Booking.coachId hb₁ :)
    rw [hid, hcoach, hj] at hq
    exact ⟨fun _ => h, fun _ => ⟨⟨_, hdb ▸ hrow, hb₁ ▸ rfl⟩, hq⟩⟩
  · unfold BookingsService.applyCancellation
    rw [he]
    refine (deleteEvent_fails h).stop.stop.mono fun r w' hw => ?_
    cases r with
    | ok _ => exact hw.elim
    | error e =>
        obtain rfl : w' = w := hw
        exact ⟨fun hc => absurd hc.2 (not_queued rfl), fun hc => absurd hc h⟩

theorem assertConfirmed_returns {status : BookingStatus} {locale : String} (h : status = .confirmed) :
    Ends execGoogle (assertConfirmed status locale) w (returns fun _ => (· = w)) := by
  unfold assertConfirmed
  rw [if_neg (not_not.mpr h)]
  exact .pure rfl

theorem SettingsService.get_returns {coachId : String} {settings : Settings}
    (h : w.db.settingsOf coachId = some settings) :
    Ends execGoogle (SettingsService.get coachId) w (returns fun s w' =>
      s = settings ∧ Unchanged w w' ∧ w'.clock = w.clock) := by
  obtain ⟨coach, hc, hs⟩ := Option.map_eq_some_iff.mp h
  have lookup : Ends execGoogle (perform (Op.coachFindUnique coachId)) w (returns fun x w' => x = some coach ∧ w' = w) :=
    .perform fun ch => by
      rw [execGoogle_eq rfl, exec, unlessFault_none rfl, hc]
      exact ⟨rfl, rfl⟩
  unfold SettingsService.get
  refine lookup.seq fun x w₁ hx => ?_
  obtain ⟨rfl, rfl⟩ := hx
  refine .perform fun ch => ?_
  rw [execGoogle_eq rfl, exec, unlessFault_none rfl]
  cases hf : w₁.db.settings.find coachId with
  | some row =>
      rw [hf] at hs
      exact ⟨hs, .refl _, rfl⟩
  | none =>
      rw [hf] at hs
      exact ⟨hs, ⟨rfl, rfl, rfl⟩, rfl⟩

theorem assertWithinNoticeWindow_returns {coachId locale : String} {startAt : Int} {settings : Settings}
    (h : w.db.settingsOf coachId = some settings)
    (hn : w.clock + settings.cancellationNoticeHours * msPerHour ≤ startAt) :
    Ends execGoogle (assertWithinNoticeWindow coachId startAt locale) w (returns fun _ => Unchanged w) := by
  unfold assertWithinNoticeWindow
  refine (SettingsService.get_returns h).seq fun s w₁ hs => ?_
  obtain ⟨rfl, hw, hclock⟩ := hs
  have now : Ends execGoogle (perform Op.now) w₁ (returns fun t w' => t = w.clock ∧ w' = w₁) :=
    .perform fun _ => ⟨hclock, rfl⟩
  refine now.seq fun t w₂ ht => ?_
  obtain ⟨rfl, rfl⟩ := ht
  rw [if_neg (Int.not_lt.mpr hn)]
  exact .pure hw

theorem findByManageToken_returns {token : String}
    (h : w.db.bookings.findFirst (fun b => b.manageToken = token) = some b) :
    Ends execGoogle (BookingsService.findByManageToken token) w (returns fun row w' =>
      row = w.db.withRelations b ∧ w' = w) := by
  have lookup : Ends execGoogle (perform (Op.bookingFindByManageToken token)) w
      (returns fun x w' => x = some (w.db.withRelations b) ∧ w' = w) := .perform fun ch => by
    rw [execGoogle_eq rfl, exec, unlessFault_none rfl, h]
    exact ⟨rfl, rfl⟩
  unfold BookingsService.findByManageToken
  refine lookup.seq fun x w₁ hx => ?_
  obtain ⟨rfl, rfl⟩ := hx
  exact .pure ⟨rfl, rfl⟩

/-- A cancellation that passes its checks cancels and says so exactly when the coach is connected. -/
theorem cancel_ends {call : Call} (he : b.googleEventId = some eventId) (h : call.PassesChecks w b) :
    Ends execGoogle (call.body P) w fun _ w' => CancelledAndQueued b w w' ↔ Connected P w.db b.coachId := by
  -- what comes after the checks starts from a world in which nothing has changed
  have later : ∀ {w₁ reason cancelledBy}, Unchanged w w₁ → w.db.bookings.find b.id = some b →
      Ends execGoogle ((BookingsService.applyCancellation P (w.db.withRelations b) cancelledBy reason).bind
          fun updated => (BookingsService.enqueue updated .cancelled).bind fun _ => .pure updated) w₁
        fun _ w' => CancelledAndQueued b w w' ↔ Connected P w.db b.coachId := by
    intro w₁ reason cancelledBy hw hb
    have hends : Ends execGoogle ((BookingsService.applyCancellation P (w.db.withRelations b) cancelledBy reason).bind
        _) w₁ _ := cancelling_ends he (hw.bookings ▸ hb)
    unfold Connected CancelledAndQueued at *
    rwa [hw.googleIntegrations, hw.jobs] at hends
  cases call with
  | cancelByClient token reason =>
      obtain ⟨hfind, hs, settings, hset, hnotice⟩ := h
      refine .bind (Q := fun _ w' => CancelledAndQueued b w w' ↔ _) ?_ (fun _ _ h => .pure h) fun _ _ h => h
      unfold BookingsService.cancelByClient
      refine (findByManageToken_returns hfind).seq fun row w₁ hrow => ?_
      obtain ⟨rfl, rfl⟩ := hrow
      refine (assertConfirmed_returns hs).seq fun _ w₂ hw₂ => ?_
      obtain rfl : w₂ = w₁ := hw₂
      refine (assertWithinNoticeWindow_returns hset hnotice).seq fun _ w₃ hw₃ => ?_
      exact later hw₃ (Table.find_some.mpr ⟨(Table.findFirst_some hfind).1, rfl⟩)
  | cancelByCoach coach bookingId reason =>
      obtain ⟨hfind, howner, hs⟩ := h
      have lookup : Ends execGoogle (perform (Op.bookingFindUnique bookingId)) w
          (returns fun x w' => x = some (w.db.withRelations b) ∧ w' = w) := .perform fun ch => by
        rw [execGoogle_eq rfl, exec, unlessFault_none rfl, hfind]
        exact ⟨rfl, rfl⟩
      refine .bind (Q := fun _ w' => CancelledAndQueued b w w' ↔ _) ?_ (fun _ _ h => .pure h) fun _ _ h => h
      unfold BookingsService.cancelByCoach
      refine lookup.seq fun x w₁ hx => ?_
      obtain ⟨rfl, rfl⟩ := hx
      have howner : ¬ ((w₁.db.withRelations b).coachId ≠ coach.id ∧ coach.role ≠ .admin) := fun hne =>
        howner.elim hne.1 hne.2
      unfold assertCoachOwnsOrIsAdmin
      dsimp only
      rw [if_neg howner]
      refine (assertConfirmed_returns hs).seq fun _ w₂ hw₂ => ?_
      obtain rfl : w₂ = w₁ := hw₂
      exact later (.refl _) (Table.find_self hfind)
  | create | rescheduleByClient | work => exact h.elim

end Cancel

/-! ## Reschedules -/

section Reschedule

/-- Before the transaction has committed, nothing has changed. -/
structure Uncommitted (w w' : World) (t : Trace) : Prop where
  unchanged : Unchanged w w'
  notYet : ¬ Commits t

theorem Uncommitted.quiet {w₁ : World} {t : Trace} {o : Op} (ho : o.quiet = true) (ch : Choice)
    (h : Uncommitted w w₁ t) :
    Uncommitted w (execGoogle w₁ o ch).2 (t ++ [⟨w₁, o, (execGoogle w₁ o ch).1⟩]) := by
  refine ⟨h.unchanged.trans (execGoogle_unchanged ho ch), ?_⟩
  rintro ⟨x, hx, hc⟩
  rcases List.mem_append.mp hx with hx | hx
  · exact h.notYet ⟨x, hx, hc⟩
  · rw [List.mem_singleton.mp hx] at hc
    cases o <;> cases ho <;> cases hc

theorem Uncommitted.still {p : BookingProg α} (h : p.Still CoachingCalendar.quiet ()) :
    Spec execGoogle (Uncommitted w) p fun _ => Uncommitted w :=
  h.spec (fun _ _ _ => trivial) (fun _ => rfl) fun _ _ _ ch ho hI => hI.quiet ho ch

/-- What is claimed once the transaction has committed. -/
def OnceCommitted (Q : World → Prop) (_ : Except Failure α) (w' : World) (t : Trace) : Prop := Commits t → Q w'

theorem Uncommitted.bind {β : Type} {p : BookingProg β} {f : β → BookingProg α} {Q : World → Prop}
    (h : p.Still CoachingCalendar.quiet ())
    (hf : ∀ a, Spec execGoogle (Uncommitted w) (f a) (OnceCommitted Q)) :
    Spec execGoogle (Uncommitted w) (p.bind f) (OnceCommitted Q) :=
  .bind (Uncommitted.still h) hf fun _ _ _ hu hc => absurd hc hu.notYet

/-- The transaction has moved the row. -/
structure Moved (b : Booking) (w : World) (b₁ : BookingWithRelations) (w' : World) : Prop where
  jobs : w'.jobs = w.jobs
  googleIntegrations : w'.db.googleIntegrations = w.db.googleIntegrations
  row : w'.db.bookings.find b.id = some b₁.toBooking
  moved : ∃ startAt endAt, b₁.toBooking = moveTo startAt endAt b

theorem reserveSlot_moves {tx : SlotTransaction} (timezone : String) (hw : tx.write = .move b.id)
    (hb : w.db.bookings.find b.id = some b) :
    Spec execGoogle (Uncommitted w) (runSerializable (reserveSlot P tx timezone))
      (orBefore (Uncommitted w) fun b₁ w' _ => Moved b w b₁ w') := by
  refine runSerializableFrom_spec _ _ ?_
  unfold reserveSlot
  refine .bind (Uncommitted.still (assertWithinSchedule_still quiet_ignores _ _ _ _ _)) (fun _ => ?_) fun _ _ _ h => h
  refine .perform fun w₁ t ch h => ?_
  have hq : ∀ r : Except Failure BookingWithRelations, commits ⟨.transaction tx, r⟩ = false →
      ¬ Commits (t ++ [⟨w₁, .transaction tx, r⟩]) := by
    rintro r hr ⟨x, hx, hc⟩
    rcases List.mem_append.mp hx with hx | hx
    · exact h.notYet ⟨x, hx, hc⟩
    · rw [List.mem_singleton.mp hx, hr] at hc
      cases hc
  rw [execGoogle_eq rfl]
  cases hx : exec w₁ (.transaction tx) { ch with fault := none } with
  | mk r w' =>
      rcases exec_transaction hx with ⟨e, rfl, rfl⟩ | ⟨d, _, _, b₁, rfl, hc⟩
      · exact ⟨h.unchanged, hq _ rfl⟩
      · obtain ⟨b₀, hb₀, hb₁, hrow⟩ := exec_move_ok hx hw
        rw [h.unchanged.bookings] at hb₀
        cases hb.symm.trans hb₀
        refine ⟨(exec_jobs rfl hx).trans h.unchanged.jobs,
          (exec_onlyRead hx).googleIntegrations.trans h.unchanged.googleIntegrations, ?_, _, _, hb₁⟩
        rw [hrow, hb₁]

/-- What comes after the transaction clears the event and says so exactly when the booking is a Google Meet booking
of a coach who is connected. -/
theorem cleanup_ends {b₁ : BookingWithRelations} {eventId : Nat} (he : b.googleEventId = some eventId)
    (h : Moved b w b₁ w') :
    Ends execGoogle ((BookingsService.dropMeetLink P b₁).bind fun updated =>
        (BookingsService.enqueue updated .rescheduled).bind fun _ => .pure updated) w'
      fun _ w'' => ClearedAndQueued b w w'' ↔ b.location = .googleMeet ∧ Connected P w.db b.coachId := by
  obtain ⟨startAt, endAt, hmoved⟩ := h.moved
  have hid : b₁.id = b.id := (congrArg Booking.id hmoved :)
  have hcoach : b₁.coachId = b.coachId := (congrArg Booking.coachId hmoved :)
  have hlocation : b₁.location = b.location := (congrArg Booking.location hmoved :)
  have hevent : b₁.googleEventId = some eventId := (congrArg Booking.googleEventId hmoved :).trans he
  have hconnected : Connected P w'.db b₁.coachId ↔ Connected P w.db b.coachId := by
    unfold Connected
    rw [hcoach, h.googleIntegrations]
  -- the end, from the row that the Google part leaves
  have queue : ∀ {u : BookingWithRelations} {w₁ : World}, u.id = b.id → u.coachId = b.coachId → w₁.jobs = w'.jobs →
      Ends execGoogle ((BookingsService.enqueue u .rescheduled).bind fun _ => .pure u) w₁ fun _ w'' =>
        w''.db = w₁.db ∧ w''.jobs = w.jobs ++ [{ data := ⟨b.id, b.coachId, .rescheduled⟩ }] := by
    intro u w₁ hu hc hj
    refine (enqueue_returns u .rescheduled).seq fun _ w₂ ⟨hdb, hq⟩ => .pure ⟨hdb, ?_⟩
    rw [hq, hj, h.jobs, hu, hc]
  unfold BookingsService.dropMeetLink
  rw [hlocation, hevent]
  cases hl : b.location with
  | googleMeet =>
      by_cases hc : Connected P w.db b.coachId
      · have drop : Ends execGoogle ((deleteEvent P b₁.coachId eventId).bind fun _ =>
            perform (Op.bookingUpdate b₁.id { meetLink := some none, googleEventId := some none })) w'
            (returns fun u w₁ => u.toBooking =
                BookingPatch.apply { meetLink := some none, googleEventId := some none } b₁.toBooking ∧
              w₁.db.bookings.find b₁.id = some u.toBooking ∧ w₁.jobs = w'.jobs) := by
          refine (deleteEvent_returns (hconnected.mpr hc)).seq fun _ w₁ h₁ => ?_
          rw [← h₁.jobs]
          exact bookingUpdate_returns (b := b₁.toBooking) (h₁.bookings ▸ hid ▸ h.row)
        refine drop.seq fun u w₁ ⟨hu, hrow, hj⟩ => (queue ((congrArg Booking.id hu :).trans hid)
          ((congrArg Booking.coachId hu :).trans hcoach) hj).mono fun _ w'' ⟨hdb, hq⟩ => ?_
        refine ⟨fun _ => ⟨rfl, hc⟩, fun _ => ⟨⟨u.toBooking, ?_, ?_, ?_⟩, hq⟩⟩
        · rw [hdb, ← hid]; exact hrow
        · rw [hu]; rfl
        · rw [hu]; rfl
      · refine (deleteEvent_fails (fun h => hc (hconnected.mp h))).stop.stop.mono fun r w'' hw => ?_
        cases r with
        | ok _ => exact hw.elim
        | error e =>
            obtain rfl : w'' = w' := hw
            exact ⟨fun hq => absurd hq.2 (not_queued h.jobs), fun hq => absurd hq.2 hc⟩
  | inPerson | phone =>
      -- the row keeps its event
      refine Ends.seq (R := fun u w₁ => u = b₁ ∧ w₁ = w') (.pure ⟨rfl, rfl⟩) fun u w₁ hu => ?_
      obtain ⟨rfl, rfl⟩ := hu
      refine (queue hid hcoach rfl).mono fun _ w'' ⟨hdb, _⟩ => ⟨fun hq => ?_, fun hq => absurd hq.1 (by simp)⟩
      obtain ⟨⟨b', hb', _, hnone⟩, _⟩ := hq
      rw [hdb, h.row] at hb'
      cases hb'
      rw [hevent] at hnone
      cases hnone

theorem reschedule_ends {token newStartAt : String} {eventId : Nat} (he : b.googleEventId = some eventId)
    (hfind : w.db.bookings.findFirst (fun b => b.manageToken = token) = some b) :
    Spec execGoogle (fun w' t => w' = w ∧ t = []) (BookingsService.rescheduleByClient P token newStartAt)
      (OnceCommitted fun w' => ClearedAndQueued b w w' ↔ b.location = .googleMeet ∧ Connected P w.db b.coachId) := by
  have hb : w.db.bookings.find b.id = some b := Table.find_some.mpr ⟨(Table.findFirst_some hfind).1, rfl⟩
  have lookup : Spec execGoogle (fun w' t => w' = w ∧ t = []) (BookingsService.findByManageToken token)
      fun r w' t => Uncommitted w w' t ∧ ∀ row, r = .ok row → row = w.db.withRelations b := by
    have query : Spec execGoogle (fun w' t => w' = w ∧ t = []) (perform (Op.bookingFindByManageToken token))
        fun r w' t => Uncommitted w w' t ∧ r = .ok (some (w.db.withRelations b)) := by
      refine .perform fun w₁ t ch ⟨hw, ht⟩ => ?_
      subst hw ht
      refine ⟨Uncommitted.quiet rfl ch ⟨.refl _, fun ⟨x, hx, _⟩ => absurd hx List.not_mem_nil⟩, ?_⟩
      rw [execGoogle_eq rfl, exec, unlessFault_none rfl, hfind]
      rfl
    unfold BookingsService.findByManageToken
    refine .bind query (fun x => ?_) fun e w' t h => ⟨h.1, fun _ hr => by cases hr⟩
    rintro env w₁ t ⟨hu, hx⟩
    cases hx
    exact ⟨hu, fun _ hr => by cases hr; rfl⟩
  unfold BookingsService.rescheduleByClient
  refine .bind lookup (fun row => ?_) fun _ _ _ h hc => absurd hc h.1.notYet
  rintro env w₁ t ⟨hu, hrow⟩
  obtain rfl := hrow row rfl
  refine Uncommitted.bind ?_ (fun _ => ?_) env w₁ t hu
  · unfold assertConfirmed
    split
    · exact .throw
    · exact .pure
  refine Uncommitted.bind (assertWithinNoticeWindow_still quiet_ignores _ _ _) fun _ => ?_
  refine Uncommitted.bind (SettingsService.get_still quiet_ignores _) fun settings => ?_
  refine Uncommitted.bind (parseStartAt_still quiet_ignores _ _) fun startAt => ?_
  refine Uncommitted.bind (assertSameCalendarDay_still _ _ _ _) fun _ => ?_
  refine .bind (reserveSlot_moves _ rfl hb) (fun b₁ => ?_) fun _ _ _ hu hc => absurd hc hu.notYet
  exact fun env w' t hmoved _ => cleanup_ends he hmoved env t

end Reschedule

end CoachingCalendar
