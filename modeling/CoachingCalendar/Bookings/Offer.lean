import CoachingCalendar.Bookings.Placement
import CoachingCalendar.Dashboard.Lemmas.Usable

/-!
# Edits of what a coach offers

Event types and availability are edited while calls and jobs run, and the settings stay as they are.
-/

namespace CoachingCalendar
open Lib Lib.System

variable {P : Platform} {w w' : World} {c : BookingConfig} {G : BookingGuard}
variable {o : Op} {ch : Choice} {r : Except Failure (Ans o)}

/-- A statement about event types or availability, with data that the checks let through. -/
def Statement.editsOffer : Statement → Prop
  | .eventTypeCreate _ data => Dashboard.isDuration data.durationMinutes
  | .eventTypeUpdate _ patch => Dashboard.isValidUpdateEventTypeDto patch
  | .settingsUpdate _ _ => False
  | s => s.Usable

theorem Statement.editsOffer.usable {s : Statement} (h : s.editsOffer) : s.Usable := by
  cases s with
  | eventTypeCreate | eventTypeUpdate => trivial
  | settingsUpdate => cases h
  | _ => exact h

section Applied

variable {newId : String} {d d' : Db} {s : Statement} {a : s.Ans}

theorem Applied.settings (h : Applied newId d s a d') (hs : s.editsOffer) : d'.settings = d.settings := by
  cases h with
  | settingsUpdate => cases hs
  | eventTypeReorder h => exact reorder_keeps (J := fun d' => d'.settings = d.settings) h rfl fun _ _ _ _ hd => hd
  | _ => rfl

theorem Applied.durations (h : Applied newId d s a d') (hs : s.editsOffer) (hd : d.DurationsValid) :
    d'.DurationsValid := by
  cases h with
  | eventTypeCreate _ hi => exact Table.forall_insert hi hd hs
  | @eventTypeUpdate id patch e _ _ =>
      exact Table.forall_update (f := patch.apply) (fun _ => rfl) hd fun e _ _ he => EventTypePatch.apply_duration hs he
  | eventTypeDelete _ => exact Table.forall_delete hd
  | eventTypeReorder h =>
      refine reorder_keeps (J := Db.DurationsValid) h hd fun d id index _ hd => ?_
      exact Table.forall_update (f := fun e => { e with position := index }) (fun _ => rfl) hd fun e _ _ he => he
  | _ => exact hd

end Applied

/-! ## What was read -/

/-- The event types that were found have durations that the checks let through, and the settings that were found are
those in the table. -/
structure ReadsHold (c : BookingConfig) : Prop where
  durations : c.world.db.DurationsValid
  types : ∀ e ∈ c.log, ∀ t, readType e.toEvent = some t → Dashboard.isDuration t.durationMinutes
  settings : ∀ e ∈ c.log, ∀ s, readSettings e.toEvent = some s → c.world.db.settings.find s.coachId = some s

theorem exec_readSettings {s : Settings} (hx : exec w o ch = (r, w')) (hs : readSettings ⟨o, r⟩ = some s) :
    w'.db.settings.find s.coachId = some s := by
  unfold readSettings at hs
  split at hs
  · rename_i he
    cases he
    cases hs
    obtain ⟨hco, hf⟩ := exec_settingsUpsert hx
    rwa [hco]
  · cases hs

theorem run_readsHold (hd : w.db.DurationsValid)
    (h : (calendarSystem P Statement.editsOffer).Run G (.start w) c) : ReadsHold c := by
  refine h.invariant (I := ReadsHold) ⟨hd, fun _ => nofun, fun _ => nofun⟩ fun c c' hc hs => ?_
  cases hs with
  | spawn _ ha =>
      obtain ⟨jobs, rfl⟩ := Call.accept_jobs ha
      exact ⟨hc.durations, hc.types, hc.settings⟩
  | @fire i call o k ch r w' hi hx _ =>
      refine ⟨?_, fun e he t ht => ?_, fun e he s hs => ?_⟩
      · unfold Db.DurationsValid
        rw [(exec_onlyRead hx).eventTypes]
        exact hc.durations
      · rcases List.mem_append.mp he with he | he
        · exact hc.types e he t ht
        · cases List.mem_singleton.mp he
          exact hc.durations t (Table.find_mem (exec_readType hx ht))
      · rcases List.mem_append.mp he with he | he
        · exact exec_settings_kept hx (hc.settings e he s hs)
        · cases List.mem_singleton.mp he
          exact exec_readSettings hx hs
  | drift d =>
      change ReadsHold ⟨d.apply c.world, _, _⟩
      rcases d.apply_cases c.world with ⟨ms, rfl⟩ | hw | ⟨s, newId, a, db, hs, ha, hw⟩
      · exact ⟨hc.durations, hc.types, hc.settings⟩
      · rw [hw]
        exact ⟨hc.durations, hc.types, hc.settings⟩
      · rw [hw]
        refine ⟨ha.durations hs hc.durations, hc.types, ?_⟩
        change ∀ e ∈ c.log, ∀ s, readSettings e.toEvent = some s → db.settings.find s.coachId = some s
        rw [ha.settings hs]
        exact hc.settings

/-- The settings that a call has, or has committed a booking by. -/
def Reading.Has (s : Reading) (settings : Settings) : Prop := s.settings = some settings ∨ s.placed = some settings

theorem Reading.has_next {s : Reading} {e : Event Ans Failure} {settings : Settings} (h : (s.next e).Has settings) :
    s.Has settings ∨ readSettings e = some settings := by
  unfold Reading.Has Reading.next at h
  split at h
  · exact .inl (.inl (h.elim id id))
  · exact .inl h
  · rcases h with h | h
    · rcases Option.or_eq_some_iff.mp h with h | h
      · exact .inr h
      · exact .inl (.inl h.2)
    · exact .inl (.inr h)

theorem reading_has {i : Nat} {settings : Settings} (h : (c.reading i).Has settings) :
    ∃ e ∈ c.log, readSettings e.toEvent = some settings := by
  have fold : ∀ (past : List (Event Ans Failure)) (s : Reading), (past.foldl Reading.next s).Has settings →
      s.Has settings ∨ ∃ e ∈ past, readSettings e = some settings := by
    intro past
    induction past with
    | nil => exact fun _ h => .inl h
    | cons e past ih =>
        intro s h
        rcases ih _ h with h | ⟨e', he, h⟩
        · rcases Reading.has_next h with h | h
          · exact .inl h
          · exact .inr ⟨e, List.mem_cons_self, h⟩
        · exact .inr ⟨e', List.mem_cons_of_mem _ he, h⟩
  rcases fold _ _ h with (h | h) | ⟨e, he, h⟩
  · cases h
  · cases h
  · obtain ⟨l, hl, -, rfl⟩ := mem_past.mp he
    exact ⟨l, hl, h⟩

/-- Every booking was placed by the settings that its coach has, on one date of their timezone. -/
theorem run_onDate (hw : w.Fresh) (hd : w.db.DurationsValid)
    (h : (calendarSystem P Statement.editsOffer).Run G (.start w) c) {b : Booking} (hb : b ∈ c.world.db.bookings) :
    ∃ settings, c.world.db.settings.find b.coachId = some settings ∧
      (P.luxon.zone settings.businessTimezone).date b.startAt =
        (P.luxon.zone settings.businessTimezone).date b.endAt := by
  obtain ⟨settings, hpl, hco, hday⟩ := run_placed hw h b hb
  obtain ⟨e, -, hplaced⟩ := Option.bind_eq_some_iff.mp hpl
  obtain ⟨l, hl, hs⟩ := reading_has (.inr hplaced)
  exact ⟨settings, hco ▸ (run_readsHold hd h).settings l hl settings hs, hday⟩

theorem run_typeRead {admits : Statement → Prop} (hw : w.Fresh) (h : (calendarSystem P admits).Run G (.start w) c)
    {b : Booking} (hb : b ∈ c.world.db.bookings) :
    ∃ e ∈ c.log, ∃ eventType, readType e.toEvent = some eventType ∧ OfType eventType b := by
  obtain ⟨⟨i, eventType, hi⟩, hof⟩ := run_ofType hw (run_of_changes h) hb
  obtain ⟨e, he, ht⟩ := List.exists_of_findSome?_eq_some hi.found
  obtain ⟨l, hl, -, rfl⟩ := mem_past.mp he
  exact ⟨l, hl, eventType, ht, hof i eventType hi⟩

theorem run_duration (hw : w.Fresh) (hd : w.db.DurationsValid)
    (h : (calendarSystem P Statement.editsOffer).Run G (.start w) c) {b : Booking} (hb : b ∈ c.world.db.bookings) :
    ∃ minutes, Dashboard.isDuration minutes ∧ b.length = minutes * msPerMinute := by
  obtain ⟨l, hl, eventType, ht, hof⟩ := run_typeRead hw h hb
  exact ⟨_, (run_readsHold hd h).types l hl eventType ht, hof.length⟩

theorem run_length (hw : w.Fresh) (hd : w.db.DurationsValid)
    (h : (calendarSystem P Statement.editsOffer).Run G (.start w) c) {b : Booking} (hb : b ∈ c.world.db.bookings) :
    0 < b.length ∧ b.length ≤ msPerDay := by
  obtain ⟨minutes, hdur, hlen⟩ := run_duration hw hd h hb
  simp only [Dashboard.isDuration, Dashboard.isIn, Bool.and_eq_true, decide_eq_true_eq] at hdur
  rw [hlen]
  simp only [msPerMinute, msPerDay]
  omega

/-- The id of an event type that a call has read is not given to one of another coach. -/
def BookingConfig.KeepsTypeIds (c : BookingConfig) : Prop :=
  ∀ e ∈ c.log, ∀ eventType, readType e.toEvent = some eventType →
    ∀ present, c.world.db.eventTypes.find eventType.id = some present → present.coachId = eventType.coachId

theorem run_owned {admits : Statement → Prop} (hw : w.Fresh) (h : (calendarSystem P admits).Run G (.start w) c)
    (hids : c.KeepsTypeIds) {b : Booking} (hb : b ∈ c.world.db.bookings) {eventType : EventType}
    (ht : c.world.db.eventTypes.find b.eventTypeId = some eventType) : eventType.coachId = b.coachId := by
  obtain ⟨l, hl, booked, hread, hof⟩ := run_typeRead hw h hb
  rw [hof.coachId]
  exact hids l hl booked hread eventType (hof.eventTypeId ▸ ht)

/-! ## Manage tokens -/

/-- No two bookings have one manage token. -/
def TokensApart (t : Table Booking.id) : Prop :=
  ∀ b ∈ t, ∀ b' ∈ t, b.manageToken = b'.manageToken → b = b'

theorem TokensApart.findFirst {t : Table Booking.id} (h : TokensApart t) {b : Booking} (hb : b ∈ t) :
    (t.findFirst fun x => x.manageToken = b.manageToken) = some b := by
  cases hf : t.findFirst fun x => x.manageToken = b.manageToken with
  | none => simpa using Table.findFirst_none.mp hf b hb
  | some b' =>
      obtain ⟨hb', htoken⟩ := Table.findFirst_some hf
      rw [h b' hb' b hb (of_decide_eq_true htoken)]

theorem TokensApart.update {t : Table Booking.id} {id : String} {f : Booking → Booking}
    (hf : ∀ b, (f b).id = b.id) (hk : ∀ b, (f b).manageToken = b.manageToken) (h : TokensApart t) :
    TokensApart (t.update id f hf) := by
  intro b hb b' hb' he
  obtain ⟨b₀, hb₀, rfl⟩ := (Table.mem_update hf).mp hb
  obtain ⟨b₁, hb₁, rfl⟩ := (Table.mem_update hf).mp hb'
  have htoken : ∀ x : Booking, (if x.id = id then f x else x).manageToken = x.manageToken := by
    intro x
    split
    · exact hk x
    · rfl
  rw [htoken, htoken] at he
  rw [h b₀ hb₀ b₁ hb₁ he]

theorem exec_tokensApart (hx : exec w o ch = (r, w')) (h : TokensApart w.db.bookings) :
    TokensApart w'.db.bookings := by
  cases ho : o.writes with
  | false => rwa [(exec_frame ho hx).1]
  | true =>
      cases o with
      | transaction tx =>
          rcases unlessFault_cases hx with ⟨_, _, rfl⟩ | hx
          · exact h
          unfold runTransaction at hx
          split at hx
          · cases hx; exact h
          split at hx
          · dsimp only at hx
            split at hx
            · cases hx; exact h
            rename_i hfresh
            split at hx
            · cases hx; exact h
            rename_i hi
            cases hx
            have hnew : ∀ b ∈ w.db.bookings, b.manageToken ≠ ch.newToken := fun b hb => by
              simpa using Table.findFirst_none.mp (Option.not_isSome_iff_eq_none.mp hfresh) b hb
            intro b hb b' hb' he
            rcases (Table.mem_insert hi).mp hb with hb | rfl
            · rcases (Table.mem_insert hi).mp hb' with hb' | rfl
              · exact h b hb b' hb' he
              · exact absurd he (hnew b hb)
            · rcases (Table.mem_insert hi).mp hb' with hb' | rfl
              · exact absurd he.symm (hnew b' hb')
              · rfl
          · split at hx
            · cases hx; exact h
            · cases hx
              exact h.update (moveTo_id _ _) fun _ => rfl
      | bookingUpdate id patch =>
          rcases exec_bookingUpdate hx with ⟨_, _, rfl⟩ | ⟨_, _, _, rfl⟩
          · exact h
          · exact h.update patch.apply_id fun _ => rfl
      | _ => cases ho

theorem run_tokensApart (hw : w.Fresh) (h : (bookingSystem P).Run G (.start w) c) :
    TokensApart c.world.db.bookings := by
  refine h.world_invariant (J := fun w => TokensApart w.db.bookings) ?_ (fun w o ch hw => ?_)
    (fun call w w' hw ha => ?_) fun d w hw => ?_
  · intro b hb
    change b ∈ w.db.bookings at hb
    rw [hw.bookings] at hb
    exact absurd hb Table.not_mem_empty
  · exact exec_tokensApart rfl hw
  · obtain ⟨jobs, rfl⟩ := Call.accept_jobs ha
    exact hw
  · change TokensApart (d.apply w).db.bookings
    rwa [d.apply_bookings]

/-! ## Bookings of a coach -/

/-- In every state that calls, jobs and edits of the offer lead to, each booking is as long as an event type may be, on one
date in the timezone of its coach, and the one that its manage link finds. -/
theorem bookings_on_one_date (hw : w.Fresh) (hd : w.db.DurationsValid)
    (h : (calendarSystem P Statement.editsOffer).Run G (.start w) c) : ∀ b ∈ c.world.db.bookings,
      (∃ minutes, Dashboard.isDuration minutes ∧ b.length = minutes * msPerMinute) ∧
      (∃ settings, c.world.db.settings.find b.coachId = some settings ∧
        (P.luxon.zone settings.businessTimezone).date b.startAt =
          (P.luxon.zone settings.businessTimezone).date b.endAt) ∧
      (c.world.db.bookings.findFirst fun x => x.manageToken = b.manageToken) = some b :=
  fun _ hb => ⟨run_duration hw hd h hb, run_onDate hw hd h hb,
    (run_tokensApart hw (run_of_changes h)).findFirst hb⟩

/-- Two clients book two hours of a Monday, and the event type is then made two hours long. -/
theorem bookings_on_one_date_two : ∃ c, (calendarSystem .sample Statement.editsOffer).Run .any (.start .sample) c ∧
    c.world.db.bookings.rows.length = 2 ∧ ∀ b ∈ c.world.db.bookings,
      (∃ minutes, Dashboard.isDuration minutes ∧ b.length = minutes * msPerMinute) ∧
      (∃ settings, c.world.db.settings.find b.coachId = some settings ∧
        (Platform.sample.luxon.zone settings.businessTimezone).date b.startAt =
          (Platform.sample.luxon.zone settings.businessTimezone).date b.endAt) ∧
      (c.world.db.bookings.findFirst fun x => x.manageToken = b.manageToken) = some b := by
  obtain ⟨c, h, hp⟩ := run_of_play (S := calendarSystem .sample Statement.editsOffer) (G := .any) (c := .start .sample)
    ([.spawn (.create .sample none),
      .spawn (.create { CreateBookingDto.sample with startAt := "2026-03-09T11:00:00.000Z" } none)] ++
      List.replicate 8 (.fire 0 { newId := "b1", newToken := "t1" }) ++
      List.replicate 8 (.fire 1 { newId := "b2", newToken := "t2" }) ++
      [.drift (.edit { statement := .eventTypeUpdate "e1" { durationMinutes := some (some 120) }, admitted := rfl })])
    (fun c => c.world.db.bookings.rows.length = 2) (by decide)
  have hd : World.sample.db.DurationsValid := by
    intro e he
    cases List.mem_singleton.mp he
    rfl
  exact ⟨c, h, of_decide_eq_true hp, bookings_on_one_date ⟨rfl, rfl, rfl⟩ hd h⟩

end CoachingCalendar
