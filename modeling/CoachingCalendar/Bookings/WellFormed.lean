import CoachingCalendar.Bookings.Lemmas.Basis
import CoachingCalendar.Bookings.Lemmas.Meet
import CoachingCalendar.Dashboard.Lemmas.Statements

/-!
# Well-formed rows

What holds of every booking while calls, jobs and updates of event types run in any order.
-/

namespace CoachingCalendar
open Lib Lib.Prog Lib.System

variable {P : Platform} {w w' : World} {c : BookingConfig} {G : BookingGuard}
variable {call : Call} {o : Op} {ch : Choice} {r : Except Failure (Ans o)} {i : Nat}

/-! ## Changes -/

section Changes

variable {admits : Statement → Prop}

theorem Applied.bookings {newId : String} {d d' : Db} {s : Statement} {a : s.Ans} (h : Applied newId d s a d') :
    d'.bookings = d.bookings := by
  cases h with
  | eventTypeReorder h => exact reorder_keeps (J := fun d' => d'.bookings = d.bookings) h rfl fun _ _ _ _ hd => hd
  | _ => rfl

theorem Change.apply_cases (d : Change admits) (w : World) :
    (∃ ms, d = .tick ms) ∨ d.apply w = w ∨
      ∃ s newId a db, admits s ∧ Applied newId w.db s a db ∧ d.apply w = w.write db := by
  cases d with
  | tick ms => exact .inl ⟨ms, rfl⟩
  | edit e =>
      cases hs : w.db.apply e.newId e.statement with
      | error _ => exact .inr (.inl (by simp [apply, hs]))
      | ok x => exact .inr (.inr ⟨_, _, _, _, e.admitted, apply_ok hs, by simp [apply, hs]⟩)

theorem Change.apply_bookings (d : Change admits) (w : World) : (d.apply w).db.bookings = w.db.bookings := by
  rcases d.apply_cases w with ⟨ms, rfl⟩ | hw | ⟨s, newId, a, db, _, ha, hw⟩
  · rfl
  · rw [hw]
  · rw [hw]
    exact ha.bookings

theorem run_of_changes {c c' : BookingConfig} (h : (calendarSystem P admits).Run G c c') :
    (bookingSystem P).Run G c c' := by
  refine h.of_drift fun d w => ?_
  rcases d.apply_cases w with ⟨ms, rfl⟩ | hw | ⟨s, newId, a, db, _, ha, hw⟩
  · exact ⟨.tick ms, rfl⟩
  · exact ⟨.tick 0, by rw [hw]; simp [Drift.apply]⟩
  · refine ⟨.edit db, ?_⟩
    rw [hw, Drift.apply, ← ha.bookings]

end Changes

/-! ## Columns that are set together -/

structure CoherentRows (w : World) (φ : Nat → Phase) : Prop where
  known : RowsKnown w φ
  /-- Events are created for Google Meet bookings only. -/
  created : ∀ i b eventId, φ i = .created b eventId → b.location = .googleMeet
  rows : ∀ b ∈ w.db.bookings, b.Coherent

theorem NewBooking.toBooking_coherent (data : NewBooking) (id manageToken : String) :
    (data.toBooking id manageToken).Coherent :=
  ⟨by simp [toBooking], by simp [toBooking], fun _ => ⟨rfl, rfl⟩⟩

theorem PatchAllowed.coherent {s : Phase} {id : String} {patch : BookingPatch} {b : Booking}
    (h : PatchAllowed s id patch) (hb : b.Coherent)
    (hs : ∀ b₀ eventId, s = .created b₀ eventId → b₀.id = id → b.location = .googleMeet) : (patch.apply b).Coherent := by
  cases h with
  | cancel _ => exact ⟨by simp [BookingPatch.apply], hb.linked, hb.online⟩
  | clear => exact ⟨hb.cancelled, by simp [BookingPatch.apply], fun _ => ⟨rfl, rfl⟩⟩
  | attach _ =>
      exact ⟨hb.cancelled, by simp [BookingPatch.apply], fun hl => absurd (hs _ _ rfl rfl) hl⟩

theorem CoherentRows.fire {φ : Nat → Phase} (h : CoherentRows w φ) (ha : (φ i).allowed call o)
    (hx : exec w o ch = (r, w')) : CoherentRows w' (Function.update φ i ((φ i).next P ⟨o, r⟩)) := by
  refine ⟨h.known.fire hx, fun j b eventId hj => ?_, ?_⟩
  · by_cases hji : j = i
    · subst hji
      rw [Function.update_self] at hj
      rcases Phase.next_created hj with hs | ⟨hs, bookingId, coachId, input, data, meet, he, _⟩
      · exact h.created j b eventId hs
      · cases he
        obtain ⟨b', hb', _, hl, _⟩ := ha
        cases hs.symm.trans hb'
        exact hl
    · rw [Function.update_of_ne hji] at hj
      exact h.created j b eventId hj
  · intro b hb
    rcases exec_new (i := i) hx hb with ⟨b₀, hb₀, hid⟩ | hc
    · have hf := Table.find_some.mpr ⟨hb₀, hid⟩
      have hf' := Table.find_some.mpr ⟨hb, rfl⟩
      rcases exec_row hx hf with hf'' | ⟨patch, b₁, he, hf''⟩ | ⟨tx, b₁, he, hw, hf''⟩
      · cases hf'.symm.trans hf''
        exact h.rows b hb₀
      · cases he
        cases hf'.symm.trans hf''
        generalize hs : φ i = s at ha
        refine PatchAllowed.coherent ha (h.rows b₀ hb₀) fun b' eventId hs' hid' => ?_
        -- the row that the job read has the location of the row in the table
        obtain ⟨b'', hf₀, hsame⟩ := h.known i b' (by rw [hs, hs']; rfl)
        cases (hid' ▸ hf₀).symm.trans hf
        rw [hsame.2.2]
        exact h.created i b' eventId (hs.trans hs')
      · cases hf'.symm.trans hf''
        exact ⟨(h.rows b₀ hb₀).cancelled, (h.rows b₀ hb₀).linked, (h.rows b₀ hb₀).online⟩
    · obtain ⟨tx, data, manageToken, _, _, hf⟩ := exec_bookingCreated hx hc
      rw [Option.some.inj ((Table.find_some.mpr ⟨hb, rfl⟩).symm.trans hf)]
      exact data.toBooking_coherent _ _

theorem CoherentRows.start (h : w.Fresh) : CoherentRows w fun _ => .idle := by
  refine ⟨.start, fun i b n hb => ?_, fun b hb => ?_⟩
  · cases hb
  · rw [h.bookings] at hb
    exact absurd hb Table.not_mem_empty

theorem run_coherent (h₀ : w.Fresh) (h : (bookingSystem P).Run G (.start w) c) :
    ∀ b ∈ c.world.db.bookings, b.Coherent := by
  refine (bookingRun_tracked (I := fun w _ φ => CoherentRows w φ) .refl h (.start h₀)
    (fun _ _ _ _ hi => ⟨hi.known, hi.created, hi.rows⟩) (fun d w log φ hi => ?_)
    fun c i call o k ch r w' hi _ ha hx _ => hi.fire ha hx).rows
  refine ⟨hi.known.of_bookings d.apply_bookings, hi.created, ?_⟩
  rw [d.apply_bookings]
  exact hi.rows

/-! ## Event types -/

theorem exec_readType {eventType : EventType} (hx : exec w o ch = (r, w')) (ht : readType ⟨o, r⟩ = some eventType) :
    w.db.eventTypes.find eventType.id = some eventType := by
  unfold readType at ht
  split at ht
  · rename_i he
    cases he; subst ht
    exact Table.find_self (exec_eventTypeFindUnique hx).symm
  · cases ht

/-- An event type that was found once lasts as long as its checks let it, and is there with the coach it had. -/
structure Db.Knows (d : Db) (eventType : EventType) : Prop where
  duration : Dashboard.isDuration eventType.durationMinutes
  there : ∃ e, d.eventTypes.find eventType.id = some e ∧ e.coachId = eventType.coachId

theorem EventTypePatch.apply_duration {patch : EventTypePatch} (hp : Dashboard.isValidUpdateEventTypeDto patch)
    {e : EventType} (he : Dashboard.isDuration e.durationMinutes) :
    Dashboard.isDuration (patch.apply e).durationMinutes := by
  simp only [Dashboard.isValidUpdateEventTypeDto, Bool.and_eq_true] at hp
  obtain ⟨⟨⟨⟨-, hd⟩, -⟩, -⟩, -⟩ := hp
  unfold apply
  cases hj : patch.durationMinutes.join with
  | none => exact he
  | some v => simpa [hj] using hd

theorem Change.apply_types (d : Change Statement.updatesEventType) (hd : w.db.DurationsValid) :
    (d.apply w).db.DurationsValid ∧ ∀ eventType, w.db.Knows eventType → (d.apply w).db.Knows eventType := by
  rcases d.apply_cases w with ⟨ms, rfl⟩ | hw | ⟨s, newId, a, db, hs, ha, hw⟩
  · exact ⟨hd, fun _ ht => ht⟩
  · rw [hw]
    exact ⟨hd, fun _ ht => ht⟩
  · rw [hw]
    cases ha with
    | @eventTypeUpdate id patch e _ _ =>
        have hid : ∀ e, (patch.apply e).id = e.id := fun _ => rfl
        refine ⟨Table.forall_update hid hd fun e _ _ he => EventTypePatch.apply_duration hs he, fun t ht => ?_⟩
        obtain ⟨hdur, e', hf, hc⟩ := ht
        refine ⟨hdur, _, Table.find_update_of_some id hid hf, ?_⟩
        split
        · exact hc
        · exact hc
    | _ => cases hs

theorem run_types (hd : w.db.DurationsValid)
    (h : (calendarSystem P Statement.updatesEventType).Run G (.start w) c) : c.world.db.DurationsValid ∧
      ∀ e ∈ c.log, ∀ eventType, readType e.toEvent = some eventType → c.world.db.Knows eventType := by
  refine h.invariant (I := fun c => c.world.db.DurationsValid ∧
    ∀ e ∈ c.log, ∀ eventType, readType e.toEvent = some eventType → c.world.db.Knows eventType)
    ⟨hd, fun e he => by cases he⟩ fun c c' hc hs => ?_
  obtain ⟨hd, hk⟩ := hc
  cases hs with
  | spawn _ ha =>
      obtain ⟨jobs, rfl⟩ := Call.accept_jobs ha
      exact ⟨hd, hk⟩
  | @fire i call o k ch r w' hi hx _ =>
      have het : w'.db.eventTypes = c.world.db.eventTypes := (exec_onlyRead hx).eventTypes
      refine ⟨by rw [Db.DurationsValid, het]; exact hd, fun e he t ht => ?_⟩
      rcases List.mem_append.mp he with he | he
      · obtain ⟨hdur, e', hf, hc⟩ := hk e he t ht
        exact ⟨hdur, e', by rwa [het], hc⟩
      · cases List.mem_singleton.mp he
        have hf := exec_readType hx ht
        exact ⟨hd t (Table.find_mem hf), t, by rwa [het], rfl⟩
  | drift d =>
      obtain ⟨hd', hkeep⟩ := d.apply_types hd
      exact ⟨hd', fun e he t ht => hkeep t (hk e he t ht)⟩

/-! ## All rows -/

/-- Every booking is well formed, whatever order calls, jobs and updates of event types come in. -/
theorem bookings_wellFormed (h₀ : w.Fresh) (hd : w.db.DurationsValid)
    (h : (calendarSystem P Statement.updatesEventType).Run .any (.start w) c) :
    ∀ b ∈ c.world.db.bookings, b.WellFormed c := by
  intro b hb
  obtain ⟨hcreated, hof⟩ := run_ofType h₀ (run_of_changes h) hb
  obtain ⟨i, eventType, hi⟩ := hcreated
  have hb' := hof i eventType hi
  obtain ⟨e, he, ht⟩ := List.exists_of_findSome?_eq_some hi.found
  obtain ⟨l, hl, -, rfl⟩ := mem_past.mp he
  obtain ⟨hdur, e', hf, hc⟩ := (run_types hd h).2 l hl eventType ht
  refine ⟨?_, ⟨i, eventType, hi⟩, fun j t hj => (hof j t hj).length, ?_, run_coherent h₀ (run_of_changes h) b hb⟩
  · have hlen := hb'.length
    simp only [Dashboard.isDuration, Dashboard.isIn, Bool.and_eq_true, decide_eq_true_eq] at hdur
    unfold Booking.length msPerMinute at hlen
    omega
  · exact ⟨e', by rw [hb'.eventTypeId]; exact hf, hc.trans hb'.coachId.symm⟩

/-- A booking of an hour, rescheduled after its event type has been cut to half an hour. -/
theorem bookings_wellFormed_edited :
    ∃ c, (calendarSystem .sample Statement.updatesEventType).Run .any (.start .sample) c ∧
      (∃ b ∈ c.world.db.bookings, b.startAt = 1773133200000 ∧ b.length = 60 * msPerMinute) ∧
      ∀ b ∈ c.world.db.bookings, b.WellFormed c := by
  obtain ⟨c, h, hp⟩ := run_of_play (S := calendarSystem .sample Statement.updatesEventType) (G := .any)
    (c := .start .sample)
    ([.spawn (.create .sample none)] ++ List.replicate 8 (.fire 0 { newId := "b1", newToken := "t1" }) ++
      [.drift (.edit { statement := .eventTypeUpdate "e1" { durationMinutes := some (some 30) }, admitted := rfl }),
        .spawn (.rescheduleByClient "t1" "2026-03-10T09:00:00.000Z")] ++ List.replicate 11 (.fire 1 {}))
    (fun c => c.world.db.bookings.rows.any fun b => b.startAt = 1773133200000 && b.length = 60 * msPerMinute)
    (by decide)
  have hd : World.sample.db.DurationsValid := by
    intro e he
    cases List.mem_singleton.mp he
    rfl
  refine ⟨c, h, ?_, bookings_wellFormed ⟨rfl, rfl, rfl⟩ hd h⟩
  simpa using hp

end CoachingCalendar
