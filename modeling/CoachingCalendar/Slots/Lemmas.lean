import CoachingCalendar.Availability.Lemmas
import CoachingCalendar.Bookings.Service

/-! # The checks of a booking, and the slots that are offered -/

namespace CoachingCalendar
open Lib Lib.Prog

variable {P : Platform} {Z : Zone} {env : Trace → Choice} {w : World}

/-! ## The schedule -/

theorem candidate_within {L : Luxon} {r : MinuteRange} {startAt endAt : Int} :
    r.contains (candidate L Z startAt endAt) = true ↔ r.startMinute * msPerMinute ≤ Z.clock startAt ∧
      endAt - L.startOfDay Z startAt ≤ r.endMinute * msPerMinute := by
  rw [MinuteRange.contains_iff]
  exact and_congr (Int.le_ediv_iff_mul_le (by decide)) Iff.rfl

theorem assertWithinSchedule_runs (henv : ∀ t, (env t).fault = none) (coachId : String) (startAt endAt : Int)
    (timezone locale : String) :
    Runs exec env (assertWithinSchedule P coachId startAt endAt timezone locale) w
      (if (effectiveRanges P (P.luxon.zone timezone) w.db coachId ((P.luxon.zone timezone).date startAt)).any
          (·.contains (candidate P.luxon (P.luxon.zone timezone) startAt endAt))
        then .ok () else .error (.conflict (.translated "errors.outsideAvailability" locale))) w := by
  unfold assertWithinSchedule
  refine .bind (isWithinEffectiveRange_runs henv _ _ _ _) ?_
  generalize List.any _ _ = within
  cases within with
  | true => exact .pure
  | false => exact .throw

/-! ## Offered slots -/

/-- What the slot list offers: a start on a step of a range of a day, not before the cutoff, with no
booking in the way that the list sees. -/
structure Offered (P : Platform) (Z : Zone) (fuel : Nat) (db : Db) (now : Int) (query : QuerySlotsDto)
    (eventType : EventType) (settings : Settings) (lo hi startAt : Int) : Prop where
  cutoff : now + settings.cancellationNoticeHours * msPerHour ≤ startAt
  free : ∀ b ∈ db.bookings, query.sees eventType.coachId lo (P.luxon.plusDay Z hi) b = true →
    ¬ (b.startAt < startAt + eventType.durationMinutes * msPerMinute ∧ startAt < b.endAt)
  step : ∃ days, visited (fun day => day ≤ hi) (P.luxon.plusDay Z) fuel lo = some days ∧ ∃ day ∈ days,
    ∃ rangesByDate, getEffectiveRangesForDateRange P fuel db eventType.coachId (Z.date lo) (Z.date hi) Z =
      some rangesByDate ∧ ∃ range ∈ (rangesByDate (Z.date day)).getD [],
    ∃ starts, visited (fun m => m + eventType.durationMinutes ≤ range.endMinute) (· + eventType.durationMinutes)
      fuel range.startMinute = some starts ∧ ∃ m ∈ starts, startAt = P.luxon.setMinute Z day m

theorem mem_rangeSlots {L : Luxon} {fuel : Nat} {durationMinutes cutoff day : Int} {existing : List Booking}
    {range : MinuteRange} {slots : List (Int × Int)} {slot : Int × Int}
    (h : rangeSlots L Z fuel durationMinutes cutoff existing day range = some slots) (hs : slot ∈ slots) :
    (∃ starts, visited (fun m => m + durationMinutes ≤ range.endMinute) (· + durationMinutes) fuel
      range.startMinute = some starts ∧ ∃ m ∈ starts, slot = slotAt L Z durationMinutes day m) ∧
    cutoff ≤ slot.1 ∧ ∀ b ∈ existing, ¬ (b.startAt < slot.2 ∧ slot.1 < b.endAt) := by
  obtain ⟨starts, hv, rfl⟩ := Option.map_eq_some_iff.mp h
  obtain ⟨hs, hf⟩ := List.mem_filter.mp hs
  obtain ⟨m, hm, rfl⟩ := List.mem_map.mp hs
  simp only [Bool.and_eq_true, Bool.not_eq_true', decide_eq_false_iff_not, Int.not_lt, List.any_eq_false,
    decide_eq_true_eq] at hf
  exact ⟨⟨starts, hv, m, hm, rfl⟩, hf.1, hf.2⟩

theorem mem_computeSlots {fuel : Nat} {db : Db} {now lo hi : Int} {query : QuerySlotsDto} {slots : List Slot}
    {slot : Slot} {eventType : EventType} {settings : Settings}
    (hE : db.eventTypes.find query.eventTypeId = some eventType)
    (hS : db.settingsOf eventType.coachId = some settings) (hZ : P.luxon.zone settings.businessTimezone = Z)
    (hlo : (P.luxon.fromISO Z query.fromDate).map (P.luxon.startOfDay Z) = some lo)
    (hhi : (P.luxon.fromISO Z query.toDate).map (P.luxon.startOfDay Z) = some hi)
    (h : computeSlots P fuel db now query = some (.ok slots)) (hs : slot ∈ slots) :
    eventType.isActive = true ∧ ∃ startAt, slot = ⟨eventType.coachId, P.luxon.toISO startAt,
        P.luxon.toISO (startAt + eventType.durationMinutes * msPerMinute)⟩ ∧
      Offered P Z fuel db now query eventType settings lo hi startAt := by
  subst hZ
  simp only [computeSlots, hE, hS, hlo, hhi] at h
  split at h
  · cases h
  rename_i ha
  split at h
  · cases h
  split at h
  · cases h
  simp only [Option.bind_eq_bind, Option.bind_eq_some_iff, Option.pure_def, Option.some.injEq,
    Except.ok.injEq] at h
  obtain ⟨rangesByDate, hr, days, hd, parts, hp, rfl⟩ := h
  obtain ⟨s, hmem, rfl⟩ := List.mem_map.mp hs
  obtain ⟨ofRange, hrange, hmem⟩ := List.mem_flatten.mp hmem
  obtain ⟨ofDay, hday, hrange⟩ := List.mem_flatten.mp hrange
  obtain ⟨day, hin, hday⟩ := mem_of_mapM hp hday
  obtain ⟨range, hr', hslots⟩ := mem_of_mapM hday hrange
  obtain ⟨⟨starts, hv, m, hm, rfl⟩, hcut, hfree⟩ := mem_rangeSlots hslots hmem
  refine ⟨by simpa using ha, _, rfl, hcut, fun b hb hsee => ?_,
    days, hd, day, hin, rangesByDate, hr, range, hr', starts, hv, m, hm, rfl⟩
  exact hfree b (Table.mem_findMany.mpr ⟨hb, hsee⟩)

/-! ## Booking a time -/

theorem SlotTransaction.conflicts_iff {tx : SlotTransaction} {b : Booking} :
    tx.conflicts b = true ↔ b.coachId = tx.coachId ∧ b.status = .confirmed ∧
      (∀ id, tx.excludeBookingId = some id → b.id ≠ id) ∧ b.startAt < tx.endAt ∧ tx.startAt < b.endAt := by
  simp [conflicts, and_assoc, Option.all_eq_true]

/-- The tables and the clock that a booking depends on. -/
structure SameTables (w w₁ : World) : Prop where
  bookings : w₁.db.bookings = w.db.bookings
  overrides : w₁.db.overrides = w.db.overrides
  weeklyAvailabilities : w₁.db.weeklyAvailabilities = w.db.weeklyAvailabilities
  clock : w₁.clock = w.clock

theorem SameTables.effectiveRanges {w₁ : World} (h : SameTables w w₁) :
    effectiveRanges P Z w₁.db = effectiveRanges P Z w.db := by
  funext coachId isoDate
  simp only [CoachingCalendar.effectiveRanges, h.overrides, h.weeklyAvailabilities]

theorem SettingsService.get_runs (henv : ∀ t, (env t).fault = none) {coachId : String} {settings : Settings}
    (h : w.db.settingsOf coachId = some settings) :
    ∃ w₁, Runs exec env (SettingsService.get coachId) w (.ok settings) w₁ ∧ SameTables w w₁ := by
  obtain ⟨coach, hc, hs⟩ := Option.map_eq_some_iff.mp h
  have coachRuns : Runs exec env (perform (Op.coachFindUnique coachId)) w (.ok (some coach)) w :=
    .perform fun t => (unlessFault_none (henv t) _).trans (by rw [hc])
  cases hf : w.db.settings.find coachId with
  | some row =>
      rw [hf] at hs
      cases hs
      exact ⟨w, .bind coachRuns (.perform fun t => (unlessFault_none (henv t) _).trans (by rw [hf]; rfl)),
        rfl, rfl, rfl, rfl⟩
  | none =>
      rw [hf] at hs
      cases hs
      refine ⟨w.write { w.db with settings := (w.db.settings.insert { coachId }).getD w.db.settings },
        .bind coachRuns (.perform fun t => (unlessFault_none (henv t) _).trans ?_), rfl, rfl, rfl, rfl⟩
      rw [hf]; rfl

theorem parseStartAt_runs {s locale : String} {startAt : Int}
    (hT : P.luxon.fromISO P.luxon.systemZone s = some startAt) (hnow : w.clock ≤ startAt) :
    Runs exec env (parseStartAt P s locale) w (.ok startAt) w := by
  unfold parseStartAt
  rw [hT]
  refine .bind (.perform fun _ => rfl) ?_
  dsimp only
  rw [if_neg (Int.not_lt.mpr hnow)]
  exact .pure

theorem assertSameCalendarDay_runs {startAt endAt : Int} {locale : String}
    (h : Z.date startAt = Z.date endAt) :
    Runs exec env (assertSameCalendarDay startAt endAt Z locale) w (.ok ()) w := by
  unfold assertSameCalendarDay
  rw [if_neg (not_not.mpr h)]
  exact .pure

theorem assertSameCalendarDay_fails {startAt endAt : Int} {locale : String}
    (h : Z.date startAt ≠ Z.date endAt) : Runs exec env (assertSameCalendarDay startAt endAt Z locale) w
      (.error (.badRequest (.translated "errors.spanMultipleDays" locale))) w := by
  unfold assertSameCalendarDay
  rw [if_pos h]
  exact .throw

theorem runSerializable_ok {α : Type} {fn : BookingProg α} {w' : World} {a : α}
    (h : Runs exec env fn w (.ok a) w') : Runs exec env (runSerializable fn) w (.ok a) w' :=
  .orElse_ok h

theorem runSerializable_error {α : Type} {fn : BookingProg α} {w' : World} {e : Failure}
    (h : Runs exec env fn w (.error e) w') (he : e ≠ .prisma "P2034") :
    Runs exec env (runSerializable fn) w (.error e) w' :=
  .orElse_error h (by rw [if_pos (.inl he)]; exact .throw)

/-- Whether a booking transaction finds its time in the schedule, and no booking in its way. -/
def Bookable (P : Platform) (Z : Zone) (db : Db) (tx : SlotTransaction) : Prop :=
  (∃ r ∈ effectiveRanges P Z db tx.coachId (Z.date tx.startAt),
    r.startMinute * msPerMinute ≤ Z.clock tx.startAt ∧
      tx.endAt - P.luxon.startOfDay Z tx.startAt ≤ r.endMinute * msPerMinute) ∧
  ∀ b ∈ db.bookings, tx.conflicts b = false

/-- An environment without faults and without conflicts: transactions read the present state and draw a
new id and a new token. -/
structure Choice.Calm (ch : Choice) (w : World) : Prop where
  fault : ch.fault = none
  snapshot : ch.snapshot = 0
  newId : w.db.bookings.find ch.newId = none
  newToken : ∀ b ∈ w.db.bookings, b.manageToken ≠ ch.newToken

variable {ch : Choice} {tx : SlotTransaction} {data : NewBooking} {timezone : String}

theorem exec_create_free (hch : ch.Calm w) (hw : tx.write = .create data)
    (hfree : ∀ b ∈ w.db.bookings, tx.conflicts b = false) :
    ∃ bookings, exec w (.transaction tx) ch = (.ok (w.db.withRelations (data.toBooking ch.newId ch.newToken)),
        w.commit { w.db with bookings }) ∧
      bookings.find ch.newId = some (data.toBooking ch.newId ch.newToken) := by
  obtain ⟨bookings, hins⟩ := Table.insert_of_fresh (r := data.toBooking ch.newId ch.newToken) hch.newId
  have hsnap : w.snapshot ch.snapshot = w.db := by rw [hch.snapshot]; rfl
  have hnone : w.db.bookings.findFirst tx.conflicts = none := Table.findFirst_none.mpr hfree
  have htoken : (w.db.bookings.findFirst fun b => b.manageToken = ch.newToken) = none :=
    Table.findFirst_none.mpr fun b hb => by simpa using hch.newToken b hb
  refine ⟨bookings, (unlessFault_none hch.fault _).trans ?_, (Table.find_insert hins).trans (if_pos rfl)⟩
  simp [runTransaction, hsnap, hnone, hw, htoken, hins]

theorem exec_create_taken (hch : ch.Calm w) (htaken : ¬ ∀ b ∈ w.db.bookings, tx.conflicts b = false) :
    exec w (.transaction tx) ch =
      (.error (.conflict (.translated "errors.slotJustBooked" tx.locale)), w) := by
  have hsnap : w.snapshot ch.snapshot = w.db := by rw [hch.snapshot]; rfl
  refine (unlessFault_none hch.fault _).trans ?_
  cases hf : w.db.bookings.findFirst tx.conflicts with
  | none => exact absurd (Table.findFirst_none.mp hf) htaken
  | some b => simp [runTransaction, hsnap, hf]

theorem reserveSlot_runs (hch : ch.Calm w) (hw : tx.write = .create data)
    (h : Bookable P (P.luxon.zone timezone) w.db tx) :
    ∃ bookings, Runs exec (fun _ => ch) (runSerializable (reserveSlot P tx timezone)) w
        (.ok (w.db.withRelations (data.toBooking ch.newId ch.newToken))) (w.commit { w.db with bookings }) ∧
      bookings.find ch.newId = some (data.toBooking ch.newId ch.newToken) := by
  obtain ⟨bookings, hx, hf⟩ := exec_create_free hch hw h.2
  have hwithin := assertWithinSchedule_runs (P := P) (w := w) (fun _ : Trace => hch.fault) tx.coachId
    tx.startAt tx.endAt timezone tx.locale
  rw [if_pos (List.any_eq_true.mpr (by simpa only [candidate_within] using h.1))] at hwithin
  exact ⟨bookings, runSerializable_ok (.bind hwithin (.perform fun _ => hx)), hf⟩

theorem reserveSlot_fails (hch : ch.Calm w) (h : ¬ Bookable P (P.luxon.zone timezone) w.db tx) :
    ∃ e, Runs exec (fun _ => ch) (runSerializable (reserveSlot P tx timezone)) w (.error e) w := by
  have hwithin := assertWithinSchedule_runs (P := P) (w := w) (fun _ : Trace => hch.fault) tx.coachId
    tx.startAt tx.endAt timezone tx.locale
  split at hwithin
  · rename_i hany
    refine ⟨_, runSerializable_error (.bind hwithin (.perform fun _ => exec_create_taken hch fun hfree => ?_))
      (by simp [Failure.conflict])⟩
    exact h ⟨by simpa only [candidate_within] using List.any_eq_true.mp hany, hfree⟩
  · exact ⟨_, runSerializable_error (.bind_error hwithin) (by simp [Failure.conflict])⟩

theorem enqueue_runs (henv : ∀ t, (env t).fault = none) (b : BookingWithRelations) (kind : NotificationKind) :
    Runs exec env (BookingsService.enqueue b kind) w (.ok ())
      { w with jobs := w.jobs ++ [{ data := ⟨b.id, b.coachId, kind⟩ }] } :=
  .perform fun t => unlessFault_none (henv t) _

/-- The transaction that `create` issues. -/
def CreateBookingDto.transaction (dto : CreateBookingDto) (originUrl : Option String) (eventType : EventType)
    (startAt : Int) : SlotTransaction where
  coachId := eventType.coachId
  startAt := startAt
  endAt := startAt + eventType.durationMinutes * msPerMinute
  excludeBookingId := none
  locale := dto.locale
  write := .create {
    eventTypeId := eventType.id, coachId := eventType.coachId, startAt
    endAt := startAt + eventType.durationMinutes * msPerMinute
    location := dto.location, clientName := dto.clientName, clientEmail := dto.clientEmail
    clientPhone := dto.clientPhone, clientNote := dto.clientNote, locale := dto.locale
    originUrl }

theorem Bookable.of_sameTables {w₁ : World} (h : SameTables w w₁) :
    Bookable P Z w₁.db tx ↔ Bookable P Z w.db tx := by
  simp only [Bookable, h.effectiveRanges, h.bookings]

theorem Choice.Calm.of_sameTables {w₁ : World} (hch : ch.Calm w) (h : SameTables w w₁) : ch.Calm w₁ :=
  ⟨hch.fault, hch.snapshot, h.bookings ▸ hch.newId, h.bookings ▸ hch.newToken⟩

section Create

variable {dto : CreateBookingDto} (originUrl : Option String) {eventType : EventType} {settings : Settings}
variable {startAt : Int}

theorem create_begins (hE : w.db.eventTypes.find dto.eventTypeId = some eventType)
    (ha : eventType.isActive = true) (hloc : dto.location ∈ eventType.locations)
    (hS : w.db.settingsOf eventType.coachId = some settings)
    (hT : P.luxon.fromISO P.luxon.systemZone dto.startAt = some startAt) (hnow : w.clock ≤ startAt)
    (hch : ch.fault = none) : ∃ w₁, SameTables w w₁ ∧ ∀ r w',
      Runs exec (fun _ => ch) ((assertSameCalendarDay startAt (startAt + eventType.durationMinutes * msPerMinute)
          (P.luxon.zone settings.businessTimezone) dto.locale).bind fun _ =>
        (runSerializable (reserveSlot P (dto.transaction originUrl eventType startAt)
          settings.businessTimezone)).bind fun booking =>
          (BookingsService.enqueue booking .confirmed).bind fun _ => .pure booking) w₁ r w' →
      Runs exec (fun _ => ch) (BookingsService.create P dto originUrl) w r w' := by
  obtain ⟨w₁, hget, hsame⟩ := SettingsService.get_runs (fun _ : Trace => hch) hS
  refine ⟨w₁, hsame, fun r w' h => ?_⟩
  unfold BookingsService.create
  refine .bind (.perform fun _ => (unlessFault_none hch _).trans (by rw [hE])) ?_
  have hloc' : eventType.locations.contains dto.location = true := by simpa using hloc
  simp only [ha, hloc', Bool.not_true, Bool.false_eq_true, if_false]
  exact .bind hget (.bind (parseStartAt_runs hT (hsame.clock ▸ hnow)) h)

section Calm

variable (hE : w.db.eventTypes.find dto.eventTypeId = some eventType) (ha : eventType.isActive = true)
variable (hloc : dto.location ∈ eventType.locations) (hS : w.db.settingsOf eventType.coachId = some settings)
variable (hT : P.luxon.fromISO P.luxon.systemZone dto.startAt = some startAt) (hnow : w.clock ≤ startAt)
variable (hch : ch.Calm w)
include hE ha hloc hS hT hnow hch

theorem create_succeeds
    (hday : (P.luxon.zone settings.businessTimezone).date startAt =
      (P.luxon.zone settings.businessTimezone).date (startAt + eventType.durationMinutes * msPerMinute))
    (hb : Bookable P (P.luxon.zone settings.businessTimezone) w.db (dto.transaction originUrl eventType startAt)) :
    ∃ b w', Runs exec (fun _ => ch) (BookingsService.create P dto originUrl) w (.ok b) w' ∧
      w'.db.bookings.find b.id = some b.toBooking ∧ b.startAt = startAt ∧
      b.endAt = startAt + eventType.durationMinutes * msPerMinute := by
  obtain ⟨w₁, hsame, hbegins⟩ := create_begins originUrl hE ha hloc hS hT hnow hch.fault
  obtain ⟨bookings, hreserve, hf⟩ := reserveSlot_runs (hch.of_sameTables hsame) rfl
    ((Bookable.of_sameTables hsame).mpr hb)
  exact ⟨_, _, hbegins _ _ ((assertSameCalendarDay_runs hday).bind
    (hreserve.bind ((enqueue_runs (fun _ => hch.fault) _ _).bind .pure))), hf, rfl, rfl⟩

theorem create_fails
    (h : ¬ ((P.luxon.zone settings.businessTimezone).date startAt =
        (P.luxon.zone settings.businessTimezone).date (startAt + eventType.durationMinutes * msPerMinute) ∧
      Bookable P (P.luxon.zone settings.businessTimezone) w.db (dto.transaction originUrl eventType startAt))) :
    ∃ e w', Runs exec (fun _ => ch) (BookingsService.create P dto originUrl) w (.error e) w' := by
  obtain ⟨w₁, hsame, hbegins⟩ := create_begins originUrl hE ha hloc hS hT hnow hch.fault
  by_cases hday : (P.luxon.zone settings.businessTimezone).date startAt =
      (P.luxon.zone settings.businessTimezone).date (startAt + eventType.durationMinutes * msPerMinute)
  · have hb := fun hb => h ⟨hday, (Bookable.of_sameTables hsame).mp hb⟩
    obtain ⟨e, hreserve⟩ := reserveSlot_fails (hch.of_sameTables hsame) hb
    exact ⟨e, _, hbegins _ _ ((assertSameCalendarDay_runs hday).bind (.bind_error hreserve))⟩
  · exact ⟨_, _, hbegins _ _ (.bind_error (assertSameCalendarDay_fails hday))⟩

end Calm

end Create

end CoachingCalendar
