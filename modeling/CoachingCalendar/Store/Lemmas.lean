import CoachingCalendar.Store.Operations

/-! # What operations do to the world -/

namespace CoachingCalendar
open Lib

variable {w w' : World} {o : Op} {ch : Choice}

theorem unlessFault_cases {α : Type} {x : Except Failure α × World} {r : Except Failure α}
    (h : unlessFault ch w x = (r, w')) : (∃ e, r = .error e ∧ w' = w) ∨ x = (r, w') := by
  unfold unlessFault at h
  split at h
  · cases h; exact .inl ⟨_, rfl, rfl⟩
  · exact .inr h

theorem unlessFault_none {α : Type} (hch : ch.fault = none) (x : Except Failure α × World) :
    unlessFault ch w x = x := by
  simp [unlessFault, hch]

theorem unlessFault_some {α : Type} {e : Failure} (hch : ch.fault = some e) (x : Except Failure α × World) :
    unlessFault ch w x = (.error e, w) := by
  simp [unlessFault, hch]

/-! ## Writes to the bookings -/

theorem exec_bookingUpdate {id : String} {patch : BookingPatch} {r : Except Failure BookingWithRelations}
    (h : exec w (.bookingUpdate id patch) ch = (r, w')) :
    (∃ e, r = .error e ∧ w' = w) ∨
      ∃ b, w.db.bookings.find id = some b ∧ r = .ok (w.db.withRelations (patch.apply b)) ∧
        w' = w.write { w.db with bookings := w.db.bookings.update id patch.apply patch.apply_id } := by
  rcases unlessFault_cases h with he | h
  · exact .inl he
  · split at h
    · cases h; exact .inl ⟨_, rfl, rfl⟩
    · rename_i b hb
      cases h; exact .inr ⟨b, hb, rfl, rfl⟩

theorem exec_bookingUpdate_ok {id : String} {patch : BookingPatch} {b₁ : BookingWithRelations}
    (h : exec w (.bookingUpdate id patch) ch = (.ok b₁, w')) :
    ∃ b, w.db.bookings.find id = some b ∧ b₁.toBooking = patch.apply b ∧
      w'.db.bookings.find id = some (patch.apply b) := by
  rcases exec_bookingUpdate h with ⟨e, he, _⟩ | ⟨b, hb, he, rfl⟩
  · cases he
  · cases he
    obtain rfl := Table.find_key hb
    exact ⟨b, hb, rfl, Table.find_update_found patch.apply_id hb⟩

/-- What a transaction does when it commits. -/
inductive Committed (w : World) (tx : SlotTransaction) : BookingWithRelations → World → Prop
  | create {data id manageToken bookings} : tx.write = .create data →
      w.db.bookings.insert (data.toBooking id manageToken) = some bookings →
      Committed w tx (w.db.withRelations (data.toBooking id manageToken))
        (w.commit { w.db with bookings := bookings })
  | move {id b} : tx.write = .move id → w.db.bookings.find id = some b →
      Committed w tx (w.db.withRelations (moveTo tx.startAt tx.endAt b)) (w.commit { w.db with
        bookings := w.db.bookings.update id (moveTo tx.startAt tx.endAt) (moveTo_id _ _) })

theorem runTransaction_cases {d : Db} {tx : SlotTransaction} {newId newToken : String}
    {r : Except Failure BookingWithRelations} (h : runTransaction w d tx newId newToken = (r, w')) :
    (∃ e, r = .error e ∧ w' = w) ∨
      d.bookings.findFirst tx.conflicts = none ∧ ∃ b, r = .ok b ∧ Committed w tx b w' := by
  unfold runTransaction at h
  split at h
  · cases h; exact .inl ⟨_, rfl, rfl⟩
  · rename_i hf
    split at h
    · rename_i hw
      dsimp only at h
      split at h
      · cases h; exact .inl ⟨_, rfl, rfl⟩
      · split at h
        · cases h; exact .inl ⟨_, rfl, rfl⟩
        · rename_i hi
          cases h; exact .inr ⟨hf, _, rfl, .create hw hi⟩
    · rename_i hw
      split at h
      · cases h; exact .inl ⟨_, rfl, rfl⟩
      · rename_i hb
        cases h; exact .inr ⟨hf, _, rfl, .move hw hb⟩

theorem World.snapshot_mem (w : World) (n : Nat) : w.snapshot n ∈ w.db :: w.recent := by
  unfold snapshot
  cases hn : (w.db :: w.recent)[n]? with
  | none => exact List.mem_cons_self
  | some d => exact List.mem_of_getElem? hn

theorem exec_transaction {tx : SlotTransaction} {r : Except Failure BookingWithRelations}
    (h : exec w (.transaction tx) ch = (r, w')) :
    (∃ e, r = .error e ∧ w' = w) ∨
      ∃ d ∈ w.db :: w.recent, d.bookings.findFirst tx.conflicts = none ∧
        ∃ b, r = .ok b ∧ Committed w tx b w' := by
  rcases unlessFault_cases h with he | h
  · exact .inl he
  · exact (runTransaction_cases h).imp_right fun hc => ⟨_, w.snapshot_mem _, hc⟩

theorem exec_move_ok {tx : SlotTransaction} {id : String} {b₁ : BookingWithRelations}
    (h : exec w (.transaction tx) ch = (.ok b₁, w')) (hw : tx.write = .move id) :
    ∃ b, w.db.bookings.find id = some b ∧ b₁.toBooking = moveTo tx.startAt tx.endAt b ∧
      w'.db.bookings.find id = some (moveTo tx.startAt tx.endAt b) := by
  rcases exec_transaction h with ⟨e, he, _⟩ | ⟨d, _, _, b, he, hc⟩
  · cases he
  · cases he
    cases hc with
    | create hw' _ => rw [hw] at hw'; cases hw'
    | move hw' hb =>
        rw [hw] at hw'; cases hw'
        obtain rfl := Table.find_key hb
        exact ⟨_, hb, rfl, Table.find_update_found (moveTo_id _ _) hb⟩

/-- The operations that can write to the booking table. -/
def Op.writes : Op → Bool
  | .transaction _ | .bookingUpdate _ _ => true
  | _ => false

/-- The other operations leave the bookings alone. One of them can write to another table. -/
theorem exec_frame {r : Except Failure (Ans o)} (ho : o.writes = false) (h : exec w o ch = (r, w')) :
    w'.db.bookings = w.db.bookings ∧
      (w'.db = w.db ∧ w'.recent = w.recent ∨ w'.recent = w.db :: w.recent) := by
  cases o with
  | transaction tx => cases ho
  | bookingUpdate id patch => cases ho
  | now => cases h; exact ⟨rfl, .inl ⟨rfl, rfl⟩⟩
  | jobRetry job =>
      cases h
      split <;> exact ⟨rfl, .inl ⟨rfl, rfl⟩⟩
  | settingsUpsert coachId =>
      rcases unlessFault_cases h with ⟨e, rfl, rfl⟩ | h
      · exact ⟨rfl, .inl ⟨rfl, rfl⟩⟩
      · split at h <;> cases h
        · exact ⟨rfl, .inl ⟨rfl, rfl⟩⟩
        · exact ⟨rfl, .inr rfl⟩
  | eventTypeFindUnique | coachFindUnique | overrideFindMany | weeklyFindMany | bookingFindByManageToken
  | bookingFindUnique | jobSend | integrationFindUnique | calendarInsert | calendarDelete | sendEmail =>
      rcases unlessFault_cases h with ⟨e, rfl, rfl⟩ | h
      · exact ⟨rfl, .inl ⟨rfl, rfl⟩⟩
      · cases h; exact ⟨rfl, .inl ⟨rfl, rfl⟩⟩

/-- The tables that the booking side only reads. -/
structure OnlyRead (d d' : Db) : Prop where
  coaches : d'.coaches = d.coaches
  eventTypes : d'.eventTypes = d.eventTypes
  weeklyAvailabilities : d'.weeklyAvailabilities = d.weeklyAvailabilities
  overrides : d'.overrides = d.overrides
  googleIntegrations : d'.googleIntegrations = d.googleIntegrations

theorem OnlyRead.refl (d : Db) : OnlyRead d d := ⟨rfl, rfl, rfl, rfl, rfl⟩

theorem exec_onlyRead {r : Except Failure (Ans o)} (h : exec w o ch = (r, w')) : OnlyRead w.db w'.db := by
  cases o with
  | now => cases h; exact .refl _
  | jobRetry job => cases h; split <;> exact .refl _
  | settingsUpsert coachId =>
      rcases unlessFault_cases h with ⟨e, rfl, rfl⟩ | h
      · exact .refl _
      · split at h <;> cases h <;> exact ⟨rfl, rfl, rfl, rfl, rfl⟩
  | transaction tx =>
      rcases exec_transaction h with ⟨e, rfl, rfl⟩ | ⟨d, _, _, b, rfl, hc⟩
      · exact .refl _
      · cases hc <;> exact ⟨rfl, rfl, rfl, rfl, rfl⟩
  | bookingUpdate id patch =>
      rcases exec_bookingUpdate h with ⟨e, rfl, rfl⟩ | ⟨b, _, rfl, rfl⟩ <;> exact ⟨rfl, rfl, rfl, rfl, rfl⟩
  | eventTypeFindUnique | coachFindUnique | overrideFindMany | weeklyFindMany | bookingFindByManageToken
  | bookingFindUnique | jobSend | integrationFindUnique | calendarInsert | calendarDelete | sendEmail =>
      rcases unlessFault_cases h with ⟨e, rfl, rfl⟩ | h
      · exact .refl _
      · cases h; exact .refl _

/-! ## Rows stay -/

/-- A row with the columns that nothing changes. -/
def SameRow (b b' : Booking) : Prop := b'.id = b.id ∧ b'.coachId = b.coachId ∧ b'.location = b.location

/-- Every row of `t` is in `t'`, with the columns that nothing changes. -/
def Kept (t t' : Table Booking.id) : Prop :=
  ∀ id b, t.find id = some b → ∃ b', t'.find id = some b' ∧ SameRow b b'

theorem SameRow.refl (b : Booking) : SameRow b b := ⟨rfl, rfl, rfl⟩

theorem SameRow.trans {b b' b'' : Booking} (h : SameRow b b') (h' : SameRow b' b'') : SameRow b b'' :=
  ⟨h'.1.trans h.1, h'.2.1.trans h.2.1, h'.2.2.trans h.2.2⟩

theorem moveTo_sameRow (startAt endAt : Int) (b : Booking) : SameRow b (moveTo startAt endAt b) :=
  ⟨rfl, rfl, rfl⟩

@[simp] theorem moveTo_status (startAt endAt : Int) (b : Booking) :
    (moveTo startAt endAt b).status = b.status := rfl

theorem BookingPatch.apply_sameRow (p : BookingPatch) (b : Booking) : SameRow b (p.apply b) :=
  ⟨rfl, rfl, rfl⟩

/-- What can happen to a row: nothing, an update by its id, or a move. -/
theorem exec_row {r : Except Failure (Ans o)} {id : String} {b : Booking} (h : exec w o ch = (r, w'))
    (hb : w.db.bookings.find id = some b) :
    w'.db.bookings.find id = some b ∨
      (∃ patch b₁, (⟨o, r⟩ : Event Ans Failure) = ⟨.bookingUpdate id patch, .ok b₁⟩ ∧
        w'.db.bookings.find id = some (patch.apply b)) ∨
      ∃ tx b₁, (⟨o, r⟩ : Event Ans Failure) = ⟨.transaction tx, .ok b₁⟩ ∧ tx.write = .move id ∧
        w'.db.bookings.find id = some (moveTo tx.startAt tx.endAt b) := by
  cases ho : o.writes with
  | false => rw [(exec_frame ho h).1]; exact .inl hb
  | true =>
      cases o with
      | transaction tx =>
          rcases exec_transaction h with ⟨e, rfl, rfl⟩ | ⟨d, _, _, b₁, rfl, hc⟩
          · exact .inl hb
          cases hc with
          | create _ hi => exact .inl (Table.find_insert_of_some hi hb)
          | @move id' _ hw _ =>
              have hrow := Table.find_update_of_some id' (moveTo_id tx.startAt tx.endAt) hb
              by_cases hid : id = id'
              · subst hid
                exact .inr (.inr ⟨tx, _, rfl, hw, hrow.trans (by rw [if_pos rfl])⟩)
              · exact .inl (hrow.trans (by rw [if_neg hid]))
      | bookingUpdate id' patch =>
          rcases exec_bookingUpdate h with ⟨e, rfl, rfl⟩ | ⟨b, _, rfl, rfl⟩
          · exact .inl hb
          have hrow := Table.find_update_of_some id' patch.apply_id hb
          by_cases hid : id = id'
          · subst hid
            exact .inr (.inl ⟨patch, _, rfl, hrow.trans (by rw [if_pos rfl])⟩)
          · exact .inl (hrow.trans (by rw [if_neg hid]))
      | _ => cases ho

theorem exec_kept {r : Except Failure (Ans o)} (h : exec w o ch = (r, w')) :
    Kept w.db.bookings w'.db.bookings := by
  intro id b hb
  rcases exec_row h hb with hf | ⟨patch, b₁, _, hf⟩ | ⟨tx, b₁, _, _, hf⟩
  · exact ⟨b, hf, .refl b⟩
  · exact ⟨_, hf, patch.apply_sameRow b⟩
  · exact ⟨_, hf, moveTo_sameRow _ _ b⟩

/-- What new rows have and moves and the updates in question keep, every row has. -/
theorem exec_rows {r : Except Failure (Ans o)} {Q : Booking → Prop} (h : exec w o ch = (r, w'))
    (hQ : ∀ b ∈ w.db.bookings, Q b) (hnew : ∀ data id manageToken, Q (NewBooking.toBooking data id manageToken))
    (hmove : ∀ startAt endAt b, Q b → Q (moveTo startAt endAt b))
    (hpatch : ∀ id patch b₁ b, (⟨o, r⟩ : Event Ans Failure) = ⟨.bookingUpdate id patch, .ok b₁⟩ →
      b.id = id → Q b → Q (patch.apply b)) : ∀ b ∈ w'.db.bookings, Q b := by
  cases ho : o.writes with
  | false => rw [(exec_frame ho h).1]; exact hQ
  | true =>
      cases o with
      | transaction tx =>
          rcases exec_transaction h with ⟨e, rfl, rfl⟩ | ⟨d, _, _, b₁, rfl, hc⟩
          · exact hQ
          intro b hb
          cases hc with
          | create _ hi =>
              rcases (Table.mem_insert hi).mp hb with hb | rfl
              · exact hQ b hb
              · exact hnew _ _ _
          | move _ _ =>
              obtain ⟨b', hb', rfl⟩ := (Table.mem_update (moveTo_id tx.startAt tx.endAt)).mp hb
              split
              · exact hmove _ _ _ (hQ b' hb')
              · exact hQ b' hb'
      | bookingUpdate id patch =>
          rcases exec_bookingUpdate h with ⟨e, rfl, rfl⟩ | ⟨b₁, _, rfl, rfl⟩
          · exact hQ
          intro b hb
          obtain ⟨b', hb', rfl⟩ := (Table.mem_update patch.apply_id).mp hb
          split
          · rename_i hid
            exact hpatch _ _ _ _ rfl hid (hQ b' hb')
          · exact hQ b' hb'
      | _ => cases ho

/-! ## Rows that operations return -/

/-- The row that an operation found or wrote. -/
def returnedRow : Event Ans Failure → Option Booking
  | ⟨.transaction _, .ok b⟩ => some b.toBooking
  | ⟨.bookingUpdate _ _, .ok b⟩ => some b.toBooking
  | e => readRow e

theorem exec_readRow {r : Except Failure (Ans o)} {b : Booking} (h : exec w o ch = (r, w'))
    (hb : readRow ⟨o, r⟩ = some b) : w' = w ∧ w.db.bookings.find b.id = some b := by
  cases o with
  | bookingFindByManageToken token =>
      rcases unlessFault_cases h with ⟨e, rfl, rfl⟩ | h
      · cases hb
      · cases h
        simp only [readRow, Option.map_map, Option.map_eq_some_iff, Function.comp,
          Db.withRelations_toBooking] at hb
        obtain ⟨row, hf, rfl⟩ := hb
        exact ⟨rfl, Table.find_some.mpr ⟨(Table.findFirst_some hf).1, rfl⟩⟩
  | bookingFindUnique id =>
      rcases unlessFault_cases h with ⟨e, rfl, rfl⟩ | h
      · cases hb
      · cases h
        simp only [readRow, Option.map_map, Option.map_eq_some_iff, Function.comp,
          Db.withRelations_toBooking] at hb
        obtain ⟨row, hf, rfl⟩ := hb
        exact ⟨rfl, (Table.find_key hf).symm ▸ hf⟩
  | _ => cases r <;> cases hb

theorem exec_bookingFindByManageToken {token : String} {b : BookingWithRelations}
    (h : exec w (.bookingFindByManageToken token) ch = (.ok (some b), w')) :
    w.db.bookings.find b.id = some b.toBooking ∧ b.manageToken = token := by
  refine ⟨(exec_readRow (o := .bookingFindByManageToken token) h rfl).2, ?_⟩
  rcases unlessFault_cases h with ⟨e, he, _⟩ | h
  · cases he
  · simp only [Prod.mk.injEq, Except.ok.injEq, Option.map_eq_some_iff] at h
    obtain ⟨⟨row, hf, rfl⟩, _⟩ := h
    simpa using (Table.findFirst_some hf).2

theorem exec_bookingFindUnique {id : String} {b : BookingWithRelations}
    (h : exec w (.bookingFindUnique id) ch = (.ok (some b), w')) :
    w.db.bookings.find b.id = some b.toBooking ∧ b.id = id := by
  refine ⟨(exec_readRow (o := .bookingFindUnique id) h rfl).2, ?_⟩
  rcases unlessFault_cases h with ⟨e, he, _⟩ | h
  · cases he
  · simp only [Prod.mk.injEq, Except.ok.injEq, Option.map_eq_some_iff] at h
    obtain ⟨⟨row, hf, rfl⟩, _⟩ := h
    exact Table.find_key hf

theorem Committed.find {tx : SlotTransaction} {b : BookingWithRelations} (h : Committed w tx b w') :
    w'.db.bookings.find b.id = some b.toBooking := by
  cases h with
  | create _ hi => exact (Table.find_insert hi).trans (if_pos rfl)
  | move _ hb =>
      have hid := Table.find_key hb
      subst hid
      exact Table.find_update_found (moveTo_id _ _) hb

theorem exec_returnedRow {r : Except Failure (Ans o)} {b : Booking} (h : exec w o ch = (r, w'))
    (hb : returnedRow ⟨o, r⟩ = some b) : w'.db.bookings.find b.id = some b := by
  cases o with
  | transaction tx =>
      rcases exec_transaction h with ⟨e, rfl, rfl⟩ | ⟨d, _, _, b', rfl, hc⟩
      · cases hb
      · cases hb; exact hc.find
  | bookingUpdate id patch =>
      cases r with
      | error e => cases hb
      | ok b₁ =>
          cases hb
          obtain ⟨b', hf, hb₁, hf'⟩ := exec_bookingUpdate_ok h
          rw [hb₁, patch.apply_id, Table.find_key hf]
          exact hf'
  | bookingFindByManageToken token =>
      obtain ⟨rfl, hf⟩ := exec_readRow (o := .bookingFindByManageToken token) h hb
      exact hf
  | bookingFindUnique id =>
      obtain ⟨rfl, hf⟩ := exec_readRow (o := .bookingFindUnique id) h hb
      exact hf
  | _ => cases r <;> cases hb

/-! ## The calendar -/

/-- The operations that can change the calendar. -/
def Op.dates : Op → Bool
  | .calendarInsert _ _ _ | .calendarDelete _ _ => true
  | _ => false

theorem exec_calendarInsert {bookingId coachId : String} {input : CreateMeetEventInput}
    {r : Except Failure InsertedEvent} (h : exec w (.calendarInsert bookingId coachId input) ch = (r, w')) :
    (∃ e, r = .error e ∧ w' = w) ∨
      (∃ data, r = .ok data ∧ ∀ id, data.id = some id → id = w.nextEventId) ∧ w' = { w with
        calendar := w.calendar ++ [{ input with id := w.nextEventId, coachId, bookingId }]
        nextEventId := w.nextEventId + 1 } := by
  rcases unlessFault_cases h with he | h
  · exact .inl he
  · cases h
    refine .inr ⟨⟨_, rfl, fun id hid => ?_⟩, rfl⟩
    dsimp only at hid
    split at hid <;> cases hid
    rfl

theorem exec_calendarDelete {coachId : String} {eventId : Nat} {r : Except Failure Unit}
    (h : exec w (.calendarDelete coachId eventId) ch = (r, w')) :
    (∃ e, r = .error e ∧ w' = w) ∨
      r = .ok () ∧ w' = { w with calendar := w.calendar.filter fun e => e.id ≠ eventId } := by
  rcases unlessFault_cases h with he | h
  · exact .inl he
  · cases h; exact .inr ⟨rfl, rfl⟩

theorem exec_calendar_frame {r : Except Failure (Ans o)} (ho : o.dates = false)
    (h : exec w o ch = (r, w')) : w'.calendar = w.calendar ∧ w'.nextEventId = w.nextEventId := by
  cases o with
  | calendarInsert => cases ho
  | calendarDelete => cases ho
  | now => cases h; exact ⟨rfl, rfl⟩
  | jobRetry job => cases h; split <;> exact ⟨rfl, rfl⟩
  | settingsUpsert coachId =>
      rcases unlessFault_cases h with ⟨e, rfl, rfl⟩ | h
      · exact ⟨rfl, rfl⟩
      · split at h <;> cases h <;> exact ⟨rfl, rfl⟩
  | transaction tx =>
      rcases exec_transaction h with ⟨e, rfl, rfl⟩ | ⟨d, _, _, b, rfl, hc⟩
      · exact ⟨rfl, rfl⟩
      · cases hc <;> exact ⟨rfl, rfl⟩
  | bookingUpdate id patch =>
      rcases exec_bookingUpdate h with ⟨e, rfl, rfl⟩ | ⟨b, _, rfl, rfl⟩ <;> exact ⟨rfl, rfl⟩
  | eventTypeFindUnique | coachFindUnique | overrideFindMany | weeklyFindMany | bookingFindByManageToken
  | bookingFindUnique | jobSend | integrationFindUnique | sendEmail =>
      rcases unlessFault_cases h with ⟨e, rfl, rfl⟩ | h
      · exact ⟨rfl, rfl⟩
      · cases h; exact ⟨rfl, rfl⟩

theorem exec_calendar_cases {r : Except Failure (Ans o)} (h : exec w o ch = (r, w')) :
    (w'.calendar = w.calendar ∧ w'.nextEventId = w.nextEventId) ∨
    (∃ bookingId coachId input, o = .calendarInsert bookingId coachId input ∧
      w'.calendar = w.calendar ++ [{ input with id := w.nextEventId, coachId, bookingId }] ∧
      w'.nextEventId = w.nextEventId + 1) ∨
    (∃ coachId eventId, o = .calendarDelete coachId eventId ∧
      w'.calendar = w.calendar.filter (fun e => e.id ≠ eventId) ∧ w'.nextEventId = w.nextEventId) := by
  cases ho : o.dates with
  | false => exact .inl (exec_calendar_frame ho h)
  | true =>
      cases o with
      | calendarInsert bookingId coachId input =>
          rcases exec_calendarInsert h with ⟨e, rfl, rfl⟩ | ⟨_, rfl⟩
          · exact .inl ⟨rfl, rfl⟩
          · exact .inr (.inl ⟨bookingId, coachId, input, rfl, rfl, rfl⟩)
      | calendarDelete coachId eventId =>
          rcases exec_calendarDelete h with ⟨e, rfl, rfl⟩ | ⟨_, rfl⟩
          · exact .inl ⟨rfl, rfl⟩
          · exact .inr (.inr ⟨coachId, eventId, rfl, rfl, rfl⟩)
      | _ => cases ho

theorem exec_events {ev : CalendarEvent} {r : Except Failure (Ans o)} (h : exec w o ch = (r, w'))
    (hev : ev ∈ w'.calendar) :
    ev ∈ w.calendar ∨ ev.id = w.nextEventId ∧ w'.nextEventId = w.nextEventId + 1 ∧
      o = .calendarInsert ev.bookingId ev.coachId ev.toCreateMeetEventInput := by
  rcases exec_calendar_cases h with ⟨hc, -⟩ | ⟨bookingId, coachId, input, rfl, hc, hn⟩ | ⟨coachId, eventId, rfl, hc, -⟩
  · exact .inl (hc ▸ hev)
  · rw [hc] at hev
    rcases List.mem_append.mp hev with hev | hev
    · exact .inl hev
    · obtain rfl := List.mem_singleton.mp hev
      exact .inr ⟨rfl, hn, rfl⟩
  · rw [hc] at hev
    exact .inl (List.mem_filter.mp hev).1

theorem exec_nextEventId {r : Except Failure (Ans o)} (h : exec w o ch = (r, w')) :
    w.nextEventId ≤ w'.nextEventId := by
  rcases exec_calendar_cases h with ⟨-, hn⟩ | ⟨_, _, _, -, -, hn⟩ | ⟨_, _, -, -, hn⟩ <;> omega

/-! ## Failures -/

theorem exec_error {e : Failure} (h : exec w o ch = (.error e, w')) : w' = w := by
  cases o with
  | now => cases h
  | jobRetry => cases h
  | settingsUpsert coachId =>
      rcases unlessFault_cases h with ⟨e, _, hw⟩ | h
      · exact hw
      · split at h <;> cases h
  | transaction tx =>
      rcases exec_transaction h with ⟨e, _, hw⟩ | ⟨d, _, _, b, hb, _⟩
      · exact hw
      · cases hb
  | bookingUpdate id patch =>
      rcases exec_bookingUpdate h with ⟨e, _, hw⟩ | ⟨b, _, hb, _⟩
      · exact hw
      · cases hb
  | eventTypeFindUnique | coachFindUnique | overrideFindMany | weeklyFindMany | bookingFindByManageToken
  | bookingFindUnique | integrationFindUnique | calendarInsert | calendarDelete | sendEmail | jobSend =>
      rcases unlessFault_cases h with ⟨e, _, hw⟩ | h
      · exact hw
      · cases h

/-! ## The queue -/

/-- The operations that put a job into the queue. -/
def Op.queues : Op → Bool
  | .jobSend _ | .jobRetry _ => true
  | _ => false

theorem exec_jobs {r : Except Failure (Ans o)} (ho : o.queues = false) (h : exec w o ch = (r, w')) :
    w'.jobs = w.jobs := by
  cases o with
  | jobSend | jobRetry => cases ho
  | now => cases h; rfl
  | settingsUpsert coachId =>
      rcases unlessFault_cases h with ⟨e, rfl, rfl⟩ | h
      · rfl
      · split at h <;> cases h <;> rfl
  | transaction tx =>
      rcases exec_transaction h with ⟨e, rfl, rfl⟩ | ⟨d, _, _, b, rfl, hc⟩
      · rfl
      · cases hc <;> rfl
  | bookingUpdate id patch =>
      rcases exec_bookingUpdate h with ⟨e, rfl, rfl⟩ | ⟨b, _, rfl, rfl⟩ <;> rfl
  | eventTypeFindUnique | coachFindUnique | overrideFindMany | weeklyFindMany | bookingFindByManageToken
  | bookingFindUnique | integrationFindUnique | calendarInsert | calendarDelete | sendEmail =>
      rcases unlessFault_cases h with ⟨e, rfl, rfl⟩ | h
      · rfl
      · cases h; rfl

theorem exec_jobSend {data : NotificationJobData} (h : exec w (.jobSend data) ch = (.ok (), w')) :
    w' = { w with jobs := w.jobs ++ [{ data }] } := by
  rcases unlessFault_cases h with ⟨e, he, _⟩ | h
  · cases he
  · cases h; rfl

theorem exec_eventTypeFindUnique {id : String} {x : Option EventType}
    (h : exec w (.eventTypeFindUnique id) ch = (.ok x, w')) : x = w.db.eventTypes.find id := by
  rcases unlessFault_cases h with ⟨e, he, _⟩ | h
  · cases he
  · cases h; rfl

/-! ## Settings -/

theorem exec_settingsUpsert {coachId : String} {settings : Settings}
    (h : exec w (.settingsUpsert coachId) ch = (.ok settings, w')) :
    settings.coachId = coachId ∧ w'.db.settings.find coachId = some settings := by
  rcases unlessFault_cases h with ⟨e, he, _⟩ | h
  · cases he
  · split at h
    · rename_i s hs
      cases h
      exact ⟨Table.find_key hs, hs⟩
    · rename_i hnone
      cases h
      obtain ⟨settings, hins⟩ := Table.insert_of_fresh (r := ({ coachId } : Settings)) hnone
      refine ⟨rfl, ?_⟩
      simp only [World.write, hins, Option.getD_some]
      exact (Table.find_insert hins).trans (if_pos rfl)

theorem exec_settings_kept {r : Except Failure (Ans o)} {k : String} {s : Settings} (h : exec w o ch = (r, w'))
    (hs : w.db.settings.find k = some s) : w'.db.settings.find k = some s := by
  cases o with
  | now => cases h; exact hs
  | jobRetry job => cases h; split <;> exact hs
  | settingsUpsert coachId =>
      rcases unlessFault_cases h with ⟨e, rfl, rfl⟩ | h
      · exact hs
      · split at h <;> cases h
        · exact hs
        · rename_i hnone
          obtain ⟨settings, hins⟩ := Table.insert_of_fresh (r := ({ coachId } : Settings)) hnone
          simp only [World.write, hins, Option.getD_some]
          exact Table.find_insert_of_some hins hs
  | transaction tx =>
      rcases exec_transaction h with ⟨e, rfl, rfl⟩ | ⟨d, _, _, b, rfl, hc⟩
      · exact hs
      · cases hc <;> exact hs
  | bookingUpdate id patch =>
      rcases exec_bookingUpdate h with ⟨e, rfl, rfl⟩ | ⟨b, _, rfl, rfl⟩ <;> exact hs
  | eventTypeFindUnique | coachFindUnique | overrideFindMany | weeklyFindMany | bookingFindByManageToken
  | bookingFindUnique | jobSend | integrationFindUnique | calendarInsert | calendarDelete | sendEmail =>
      rcases unlessFault_cases h with ⟨e, rfl, rfl⟩ | h
      · exact hs
      · cases h; exact hs

end CoachingCalendar
