import CoachingCalendar.Bookings.Lemmas.Atomic
import CoachingCalendar.Bookings.Lemmas.Exclusive
import CoachingCalendar.Bookings.Lemmas.Meet
import CoachingCalendar.Bookings.Lemmas.Notices

/-! # What holds in runs of the booking system -/

namespace CoachingCalendar
open Lib Lib.System

variable {P : Platform} {w : World} {c c' : BookingConfig}

theorem World.sample_fresh : World.sample.Fresh := ⟨rfl, rfl, rfl⟩

/-! ## No double booking -/

/-- In every state reachable from an empty booking table, whatever requests and jobs run in whatever
order, two confirmed bookings of one coach do not overlap. -/
theorem no_double_booking (hw : w.Fresh) (h : (bookingSystem P).Run .any (.start w) c) :
    ∀ b₁ ∈ c.world.db.bookings, ∀ b₂ ∈ c.world.db.bookings, b₁ ≠ b₂ →
      b₁.status = .confirmed → b₂.status = .confirmed → b₁.coachId = b₂.coachId →
      ¬ (b₁.startAt < b₂.endAt ∧ b₂.startAt < b₁.endAt) := by
  intro b₁ hb₁ b₂ hb₂ hne hs₁ hs₂ hco
  obtain ⟨⟨ℓ, hℓ⟩, _⟩ := run_represents hw h
  have held : ∀ b ∈ c.world.db.bookings, b.status = .confirmed → ℓ.held b.id = some b.hold := by
    intro b hb hs
    rw [hℓ.held]
    exact heldIn_some.mpr ⟨b, Table.find_some.mpr ⟨hb, rfl⟩, hs, rfl⟩
  have hid : b₁.id ≠ b₂.id := fun he => hne (Table.eq_of_key hb₁ hb₂ he)
  exact ℓ.exclusive b₂.id b₂.hold (held b₂ hb₂ hs₂) b₁.id b₁.hold hid (held b₁ hb₁ hs₁) hco

/-- Two clients book one coach at the same time, for different hours. -/
theorem no_double_booking_two : ∃ c, (bookingSystem .sample).Run .any (.start .sample) c ∧
    c.world.db.bookings.rows.length = 2 ∧
    ∀ b₁ ∈ c.world.db.bookings, ∀ b₂ ∈ c.world.db.bookings, b₁ ≠ b₂ →
      b₁.status = .confirmed → b₂.status = .confirmed → b₁.coachId = b₂.coachId →
      ¬ (b₁.startAt < b₂.endAt ∧ b₂.startAt < b₁.endAt) := by
  obtain ⟨c, h, hp⟩ := run_of_play (S := bookingSystem .sample) (G := .any) (c := .start .sample)
    ([.spawn (.create .sample none),
      .spawn (.create { CreateBookingDto.sample with startAt := "2026-03-09T11:00:00.000Z" } none)] ++
      fires 0 6 ++ fires 1 6 ++ fires 0 1 { newId := "b1", newToken := "t1" } ++
      fires 1 1 { newId := "b2", newToken := "t2" })
    (fun c => c.world.db.bookings.rows.length = 2) (by decide)
  exact ⟨c, h, of_decide_eq_true hp, no_double_booking World.sample_fresh h⟩

/-- Of two clients who want the same hour, the second is refused. -/
example : ((bookingSystem .sample).play .any
    ([.spawn (.create .sample none), .spawn (.create .sample none)] ++ fires 0 6 ++ fires 1 6 ++
      fires 0 1 { newId := "b1", newToken := "t1" } ++ fires 1 1 { newId := "b2", newToken := "t2" })
    (.start .sample)).any (fun c => c.world.db.bookings.rows.length = 1) = true := by
  decide

/-! ## Cancelled is final -/

/-- The row of a cancelled booking keeps its status, its time and what was recorded with the
cancellation, and at most one cancelling call succeeds. -/
def CancelledIsFinal (c c' : BookingConfig) : Prop :=
  (∀ id b, c.world.db.bookings.find id = some b → b.status = .cancelled →
    ∃ b', c'.world.db.bookings.find id = some b' ∧ b'.outcome = b.outcome) ∧
  ∀ i j call₁ call₂ b₁ b₂, c'.Ended i call₁ (.ok (some b₁)) → c'.Ended j call₂ (.ok (some b₂)) →
    call₁.isCancel → call₂.isCancel → b₁.id = b₂.id → i = j

/-- When no cancellation is committed between a call's read of a booking and its write, cancelled is
final. -/
theorem cancelled_is_final (h : (bookingSystem P).Run noCancelBetween (.start w) c)
    (h' : (bookingSystem P).Run noCancelBetween c c') : CancelledIsFinal c c' := by
  refine ⟨fun id b hb hs => run_outcome h h' hb hs, fun i j call₁ call₂ b₁ b₂ he₁ he₂ hc₁ hc₂ hid => ?_⟩
  have hrun := h.trans h'
  exact (run_cancelling hrun).once i j _ _ (ended_cancelled hrun he₁ hc₁) (ended_cancelled hrun he₂ hc₂) hid

/-- The client cancels, and then a cancellation by the coach comes too late to be let through. -/
theorem cancelled_is_final_sample : ∃ c c', (bookingSystem .sample).Run noCancelBetween (.start .sample) c ∧
    (bookingSystem .sample).Run noCancelBetween c c' ∧
    (∃ b ∈ c.world.db.bookings, b.status = .cancelled) ∧ CancelledIsFinal c c' := by
  obtain ⟨c, h, hp⟩ := run_of_play (S := bookingSystem .sample) (G := noCancelBetween) (c := .start .sample)
    (bookSample ++ [.spawn (.cancelByClient "t1" none)] ++ fires 1 6)
    (fun c => c.world.db.bookings.rows.any (·.status = .cancelled) &&
      ((bookingSystem .sample).play noCancelBetween
        ([.spawn (.cancelByCoach .sample "b1" "late")] ++ fires 2 1) c).isSome) (by decide)
  rw [Bool.and_eq_true, List.any_eq_true, Option.isSome_iff_exists] at hp
  obtain ⟨⟨b, hb, hs⟩, c', hc'⟩ := hp
  have h' := play_run hc'
  exact ⟨c, c', h, h', ⟨b, hb, of_decide_eq_true hs⟩, cancelled_is_final h h'⟩

/-- Both cancel: the client is told that the booking is cancelled, then the coach's call, which read
the row before, cancels it again. -/
theorem cancelled_is_not_final : ¬ ∀ (P : Platform) (w : World) (c c' : BookingConfig),
    (bookingSystem P).Run .any (.start w) c → (bookingSystem P).Run .any c c' → CancelledIsFinal c c' := by
  intro hall
  obtain ⟨c, h, hp⟩ := run_of_play (S := bookingSystem .sample) (G := .any) (c := .start .sample)
    (bookSample ++ [.spawn (.cancelByClient "t1" none), .spawn (.cancelByCoach .sample "b1" "ill")] ++
      fires 1 4 ++ fires 2 1 ++ fires 1 2)
    (fun c => (c.world.db.bookings.find "b1").any (fun b => b.status = .cancelled && b.cancelledBy = some .client) &&
      ((bookingSystem .sample).play .any (fires 2 2) c).any fun c' =>
        (c'.world.db.bookings.find "b1").any (·.cancelledBy = some .coach)) (by decide)
  rw [Bool.and_eq_true, Option.any_eq_true, Option.any_eq_true] at hp
  obtain ⟨⟨b, hb, hs⟩, c', hc', hq⟩ := hp
  obtain ⟨b', hb', hby'⟩ := (Option.any_eq_true _ _).mp hq
  rw [Bool.and_eq_true, decide_eq_true_eq, decide_eq_true_eq] at hs
  obtain ⟨b'', hb'', ho⟩ := (hall .sample .sample c c' h (play_run hc')).1 "b1" b hb hs.1
  cases hb'.symm.trans hb''
  have hby := congrArg Outcome.cancelledBy ho
  have hby : b'.cancelledBy = b.cancelledBy := hby
  rw [hs.2, of_decide_eq_true hby'] at hby
  cases hby

/-! ## Calendar events -/

/-- A booking has at most one event in the calendar, which is stored with it, at its time. -/
def OneEventAtTheRightTime (w : World) : Prop :=
  ∀ b ∈ w.db.bookings, b.status = .confirmed → b.location = .googleMeet →
    (w.calendar.filter fun e => e.bookingId = b.id).length ≤ 1 ∧
    ∀ e ∈ w.calendar, e.bookingId = b.id →
      b.googleEventId = some e.id ∧ e.startAt = b.startAt ∧ e.endAt = b.endAt

/-- When every deletion takes effect, no job fails between creating an event and storing its number,
and nobody else moves the booking or stores an event with it meanwhile, then with no request and no
job in progress every booking has at most one event, which is stored with it, at its time. -/
theorem one_event_at_the_right_time (hw : w.Fresh)
    (h : (bookingSystem P).Run (noMeetOverlap P) (.start w) c) (hq : c.Quiet) :
    OneEventAtTheRightTime c.world := by
  intro b hb _ _
  have hd := run_dated hw h
  -- a call that has ended owes nothing
  have paid : ∀ i e, ¬ (phases P c i).Owes e := by
    intro i e ho
    have hset : (phases P c i).settled := by
      rcases Nat.lt_or_ge i c.threads.length with hi | hi
      · have hth := List.getElem?_eq_getElem hi
        have hf := bookingRun_follows h hth
        rcases hq _ (List.getElem_mem hi) with ⟨a, ha⟩ | ⟨f, hf'⟩
        · rw [ha] at hf; exact hf.1
        · rw [hf'] at hf; exact hf.1
      · rw [show phases P c i = .idle from h.phase_init _ _ hi]; exact trivial
    rcases ho.inv with ⟨b, hs, _⟩ | ⟨b, hs, hl, hn⟩
    · rw [hs] at hset; exact hset
    · rw [hs] at hset
      rw [hset hl] at hn; cases hn
  have stored : ∀ e ∈ c.world.calendar, e.bookingId = b.id → Stored b e := by
    intro e he hid
    obtain ⟨b', hb', _, hs | ⟨i, ho⟩⟩ := hd.live e he
    · rw [hid] at hb'
      obtain rfl := Table.eq_of_key hb (Table.find_mem hb') (Table.find_key hb').symm
      exact hs
    · exact absurd ho (paid i e)
  refine ⟨?_, fun e he hid => ⟨(stored e he hid).number, (stored e he hid).startAt, (stored e he hid).endAt⟩⟩
  have hkey : ((c.world.calendar.filter fun e => e.bookingId = b.id).map (·.id)).Nodup :=
    hd.numbered.distinct.sublist (List.filter_sublist.map _)
  refine Table.length_le_one_of_key hkey fun x hx y hy => ?_
  simp only [List.mem_filter, decide_eq_true_eq] at hx hy
  exact Option.some.inj ((stored x hx.1 hx.2).number.symm.trans (stored y hy.1 hy.2).number)

/-- A booking is made and its job runs. -/
theorem one_event_at_the_right_time_sample : ∃ c,
    (bookingSystem .sample).Run (noMeetOverlap .sample) (.start .sample) c ∧ c.Quiet ∧
    c.world.calendar.length = 1 ∧ OneEventAtTheRightTime c.world := by
  obtain ⟨c, h, hp⟩ := run_of_play (S := bookingSystem .sample) (G := noMeetOverlap .sample)
    (c := .start .sample)
    (bookSample ++ [.spawn (.work ⟨⟨"b1", "c1", .confirmed⟩, 0⟩)] ++ fires 1 8 .linked)
    (fun c => c.isQuiet && c.world.calendar.length = 1) (by decide)
  rw [Bool.and_eq_true, decide_eq_true_eq] at hp
  have hq := Config.quiet_of_isQuiet hp.1
  exact ⟨c, h, hq, hp.2, one_event_at_the_right_time World.sample_fresh h hq⟩

/-- A booking that has its event is moved: the event goes, and the job of the move makes another. -/
example : ((bookingSystem .sample).play .any
    (bookSample ++ [.spawn (.work ⟨⟨"b1", "c1", .confirmed⟩, 0⟩)] ++ fires 1 8 .linked ++
      [.spawn (.rescheduleByClient "t1" "2026-03-10T09:00:00.000Z")] ++ fires 2 14 ++
      [.spawn (.work ⟨⟨"b1", "c1", .rescheduled⟩, 0⟩)] ++ fires 3 8 .linked)
    (.start .sample)).map (fun c => c.world.calendar.map fun e => e.startAt) = some [1773133200000] := by
  decide

/-- A booking is moved before its first job runs. Its two jobs both find no link, and both create an
event. -/
theorem two_events_for_one_booking : ¬ ∀ (P : Platform) (w : World) (c : BookingConfig), w.Fresh →
    (bookingSystem P).Run (deletesTakeEffect P) (.start w) c → c.Quiet → c.world.jobs = [] →
    OneEventAtTheRightTime c.world := by
  intro hall
  obtain ⟨c, h, hp⟩ := run_of_play (S := bookingSystem .sample) (G := deletesTakeEffect .sample)
    (c := .start .sample)
    (bookSample ++ [.spawn (.rescheduleByClient "t1" "2026-03-10T09:00:00.000Z")] ++ fires 1 11 ++
      [.spawn (.work ⟨⟨"b1", "c1", .confirmed⟩, 0⟩), .spawn (.work ⟨⟨"b1", "c1", .rescheduled⟩, 0⟩)] ++
      fires 2 3 .linked ++ fires 3 3 .linked ++ fires 2 5 ++ fires 3 5)
    (fun c => c.isQuiet && c.world.jobs.isEmpty && (c.world.db.bookings.find "b1").any fun b =>
      b.status = .confirmed && b.location = .googleMeet &&
        1 < (c.world.calendar.filter fun e => e.bookingId = b.id).length) (by decide)
  simp only [Bool.and_eq_true, Option.any_eq_true, decide_eq_true_eq, List.isEmpty_iff] at hp
  obtain ⟨⟨hq, hj⟩, b, hb, ⟨hs, hl⟩, hlen⟩ := hp
  have := (hall .sample .sample c World.sample_fresh h (Config.quiet_of_isQuiet hq) hj b (Table.find_mem hb)
    hs hl).1
  exact absurd hlen (Nat.not_lt.mpr this)

/-! ## Announcements -/

/-- No job that says that a booking is on, and that found it cancelled, announces it. -/
def CancelledNotAnnounced (c : BookingConfig) : Prop :=
  ∀ i job prog, c.threads[i]? = some ⟨.work job, prog⟩ → job.data.kind.live → ∀ b, found (c.past i) = some b →
    b.status = .cancelled → (c.past i).any (announces b.id) = false

/-- A cancelled booking is not announced when no job that says it is on waits once it is cancelled. Where
such a job does find its booking cancelled, it announces it unless a service stops it. -/
theorem cancelled_is_not_announced (hw : w.Fresh) :
    (∀ c, (bookingSystem P).Run noneWaitsOnceCancelled (.start w) c → CancelledNotAnnounced c) ∧
    ∀ c i job r b, (bookingSystem P).Run .any (.start w) c → c.Ended i (.work job) r → job.data.kind.live →
      found (c.past i) = some b → b.status = .cancelled →
      ((c.past i).any (announces b.id) = false ↔ stopped P b (c.past i) = true) := by
  refine ⟨fun c h i job prog hi hl b hb hs => ?_, fun c i job r b h he hl hb _ => ?_⟩
  · exact absurd hs ((run_noticed hw.bookings h).looks i job prog hi hl b hb)
  · rw [run_handled h hl he b hb, Bool.not_eq_false']

/-- A booking is announced and then cancelled. -/
theorem cancelled_is_not_announced_sample : ∃ c,
    (bookingSystem .sample).Run noneWaitsOnceCancelled (.start .sample) c ∧
    (∃ b ∈ c.world.db.bookings, b.status = .cancelled) ∧ CancelledNotAnnounced c := by
  obtain ⟨c, h, hp⟩ := run_of_play (S := bookingSystem .sample) (G := noneWaitsOnceCancelled)
    (c := .start .sample)
    (bookSample ++ [.spawn (.work ⟨⟨"b1", "c1", .confirmed⟩, 0⟩)] ++ fires 1 8 .linked ++
      [.spawn (.cancelByClient "t1" none)] ++ fires 2 8)
    (fun c => c.world.db.bookings.rows.any (·.status = .cancelled)) (by decide)
  obtain ⟨b, hb, hs⟩ := List.any_eq_true.mp hp
  exact ⟨c, h, ⟨b, hb, of_decide_eq_true hs⟩, (cancelled_is_not_announced World.sample_fresh).1 c h⟩

/-- A booking is cancelled before its first job runs. The job creates an event and says that the booking
is on. -/
theorem cancelled_is_announced : ¬ ∀ (P : Platform) (w : World) (c : BookingConfig), w.Fresh →
    (bookingSystem P).Run .any (.start w) c → CancelledNotAnnounced c := by
  intro hall
  obtain ⟨c, h, hp⟩ := run_of_play (S := bookingSystem .sample) (G := .any) (c := .start .sample)
    (bookSample ++ [.spawn (.cancelByClient "t1" none)] ++ fires 1 6 ++
      [.spawn (.work ⟨⟨"b1", "c1", .confirmed⟩, 0⟩)] ++ fires 2 8 .linked)
    (fun c => c.threads[2]?.any (fun th => th.call = .work ⟨⟨"b1", "c1", .confirmed⟩, 0⟩) &&
      (found (c.past 2)).any fun b => b.status = .cancelled && (c.past 2).any (announces b.id))
    (by decide)
  simp only [Bool.and_eq_true, Option.any_eq_true, decide_eq_true_eq] at hp
  obtain ⟨⟨⟨call, prog⟩, hi, rfl⟩, b, hb, hs, ha⟩ := hp
  rw [hall .sample .sample c World.sample_fresh h 2 _ prog hi rfl b hb hs] at ha
  cases ha

/-! ## All or nothing -/

/-- A call that throws leaves the booking table as it was. A call that returns leaves its change in the
table and its notification in the queue. -/
def AllOrNothing (P : Platform) (call : Call) (w : World)
    (out : Prog.Outcome World Ans Failure (Option BookingWithRelations)) : Prop :=
  match out.result with
  | .error _ => out.world.db.bookings = w.db.bookings
  | .ok b => ∃ b', b = some b' ∧ Done P w.db.bookings w.jobs call b' out.world

/-- A request is all or nothing exactly when nothing it needs after its commit fails while a change is left. -/
theorem all_or_nothing_iff {call : Call} (hc : call.isRequest) (w : World) (env : Trace → Choice) :
    AllOrNothing P call w ((call.body P).run exec env w []) ↔
      ∀ b w' t, ((call.body P).upTo committedRow).run exec env w [] = ⟨.ok (some b), w', t⟩ →
        call.Leaves P env b (w', t) w.db.bookings → call.Through P env b (w', t) := by
  unfold AllOrNothing
  rcases call.run_body (P := P) hc w env with ⟨b, w', t, hup, hw, hrun⟩ | ⟨e, w', t, hup, hsame, hrun⟩
  · have hend := @Call.rest_ended P w.db.bookings w.jobs env b (w', t) call hw
    have hone : (∀ b₁ w₁ t₁, ((call.body P).upTo committedRow).run exec env w [] = ⟨.ok (some b₁), w₁, t₁⟩ →
        call.Leaves P env b₁ (w₁, t₁) w.db.bookings → call.Through P env b₁ (w₁, t₁)) ↔
          (call.Leaves P env b (w', t) w.db.bookings → call.Through P env b (w', t)) := by
      refine ⟨fun h => h b w' t hup, fun h b₁ w₁ t₁ h₁ => ?_⟩
      cases hup.symm.trans h₁
      exact h
    rw [hone, hrun, Prog.run_bind]
    generalize (call.rest P b).run exec env w' t = out at hend ⊢
    obtain ⟨e | b', w'', t'⟩ := out
    · rcases hend with ⟨-, _, hok, -⟩ | ⟨hnot, -, hsame⟩
      · cases hok
      · exact hsame.trans ⟨fun h hl => absurd hl h, fun h hl => hnot (h hl)⟩
    · rcases hend with ⟨hthrough, _, hok, hd⟩ | ⟨-, ⟨_, herr⟩, -⟩
      · cases hok
        exact iff_of_true ⟨_, rfl, hd⟩ fun _ => hthrough
      · cases herr
  · rw [hrun, hup]
    exact iff_of_true hsame fun b w₁ t₁ h => by cases h

/-- What a fault-free environment draws. -/
def Choice.drawn : Choice := { newId := "b1", newToken := "t1" }

/-- A booking is created where nothing fails. -/
theorem all_or_nothing_iff_create :
    ((Call.create .sample none).body .sample |>.run exec (fun _ => .drawn) .sample []).trace.length = 8 ∧
    AllOrNothing .sample (.create .sample none) .sample
      ((Call.body .sample (.create .sample none)).run exec (fun _ => .drawn) .sample []) :=
  ⟨by decide, (all_or_nothing_iff rfl _ _).mpr fun _ _ _ _ _ => rfl⟩

/-- Only database writes and the queue fail. -/
def onlyWritesFail (t : Trace) : Bool :=
  t.all fun x => match x.event with
    | ⟨o, .error _⟩ => o.writes || o.queues
    | _ => true

/-- The booking is committed, and then the queue refuses the notification. -/
theorem not_all_or_nothing : ¬ ∀ (P : Platform) (call : Call) (w : World) (env : Trace → Choice),
    call.isRequest → onlyWritesFail ((call.body P).run exec env w []).trace →
    AllOrNothing P call w ((call.body P).run exec env w []) := by
  intro hall
  have h := hall .sample (.create .sample none) .sample
    (fun t => if t.length = 7 then { fault := some (.other "queue") } else .drawn) rfl (by decide)
  unfold AllOrNothing at h
  split at h
  · exact absurd h (by decide)
  · rename_i hr
    have hok : Except.isOk _ = true := congrArg Except.isOk hr
    exact absurd hok (by decide)

end CoachingCalendar
