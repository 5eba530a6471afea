import CoachingCalendar.Bookings.System
import CoachingCalendar.Slots.Lemmas

/-! # The schedule check and the slots that are offered -/

namespace CoachingCalendar
open Lib Lib.Prog

variable {P : Platform} {Z : Zone}

/-! ## The schedule check -/

/-- Some range holds the interval by the local clock. -/
def InsideHours (ranges : List MinuteRange) (Z : Zone) (startAt endAt : Int) : Prop :=
  ∃ r ∈ ranges, r.startMinute * msPerMinute ≤ Z.clock startAt ∧ Z.clock endAt ≤ r.endMinute * msPerMinute

instance (ranges : List MinuteRange) (startAt endAt : Int) : Decidable (InsideHours ranges Z startAt endAt) :=
  inferInstanceAs (Decidable (∃ r ∈ ranges, _))

/-- For an interval on one local date, the check agrees with the local clock on every schedule. -/
def ScheduleCheckExact (P : Platform) (timezone : String) (startAt endAt : Int) : Prop :=
  ∀ coachId locale w env, (∀ t, (env t).fault = none) →
    (((assertWithinSchedule P coachId startAt endAt timezone locale).run exec env w []).result = .ok () ↔
      InsideHours (effectiveRanges P (P.luxon.zone timezone) w.db coachId ((P.luxon.zone timezone).date startAt))
        (P.luxon.zone timezone) startAt endAt)

/-- luxon resolves a local time by going back a whole number of minutes. -/
def Luxon.WholeMinutes (L : Luxon) (Z : Zone) : Prop :=
  ∀ offset localTS, ∃ k, L.resolve Z offset localTS = localTS - k * msPerMinute

theorem fixOffset_wholeMinutes (Z : Zone) (offset localTS : Int) :
    ∃ k, fixOffset Z offset localTS = localTS - k * msPerMinute := by
  unfold fixOffset
  dsimp only
  split
  · exact ⟨_, rfl⟩
  split
  · exact ⟨Z.offset (localTS - offset * msPerMinute), by simp only [msPerMinute]; omega⟩
  · exact ⟨_, rfl⟩

/-- The check accepts when a range holds the start by the clock and the end by the time elapsed since the
start of the day. -/
theorem assertWithinSchedule_ok {timezone coachId locale : String} {startAt endAt : Int} {w : World}
    {env : Trace → Choice} (henv : ∀ t, (env t).fault = none) :
    ((assertWithinSchedule P coachId startAt endAt timezone locale).run exec env w []).result = .ok () ↔
      ∃ r ∈ effectiveRanges P (P.luxon.zone timezone) w.db coachId ((P.luxon.zone timezone).date startAt),
        r.startMinute * msPerMinute ≤ (P.luxon.zone timezone).clock startAt ∧
          endAt - P.luxon.startOfDay (P.luxon.zone timezone) startAt ≤ r.endMinute * msPerMinute := by
  rw [(assertWithinSchedule_runs henv coachId startAt endAt timezone locale []).1]
  simp only [← candidate_within, ← List.any_eq_true]
  split <;> simp_all

/-- A coach who has one range on a date, as an override. -/
def World.withRange (coachId : String) (isoDate startMinute endMinute : Int) : World :=
  { World.sample with db := { Db.sample with overrides := ⟨[{
      id := "o1", coachId, date := isoDate, startMinute := some startMinute, endMinute := some endMinute }],
      List.nodup_singleton _⟩ } }

theorem effectiveRanges_withRange (coachId : String) (isoDate startMinute endMinute : Int) :
    effectiveRanges P Z (World.withRange coachId isoDate startMinute endMinute).db coachId isoDate =
      [⟨startMinute, endMinute⟩] := by
  simp [effectiveRanges, World.withRange, Table.findMany, overrideRanges, AvailabilityOverride.range]

/-- The check is exact on every schedule exactly when the local clock shows at the end of the interval the
time elapsed since the start of the day, that is, when the zone's offset at the end is the one that the
start of the day was resolved with. -/
theorem schedule_check_exact_iff {timezone : String} {startAt endAt : Int}
    (hL : P.luxon.WholeMinutes (P.luxon.zone timezone))
    (hday : (P.luxon.zone timezone).date startAt = (P.luxon.zone timezone).date endAt) :
    ScheduleCheckExact P timezone startAt endAt ↔
      (P.luxon.zone timezone).offset endAt * msPerMinute =
        midnight ((P.luxon.zone timezone).date startAt) -
          P.luxon.startOfDay (P.luxon.zone timezone) startAt := by
  generalize hZ : P.luxon.zone timezone = Z at *
  obtain ⟨k, hk⟩ := hL (Z.offset startAt) (midnight (Z.date startAt))
  have hstart : P.luxon.startOfDay Z startAt = midnight (Z.date startAt) - k * msPerMinute := hk
  -- the reading of the clock at the end, from the date of the start
  have hclock : Z.clock endAt = endAt + Z.offset endAt * msPerMinute - midnight (Z.date startAt) := by
    have := Z.wall_eq endAt
    rw [hday]; unfold Zone.wall at this; omega
  constructor
  · intro h
    by_contra hne
    -- a minute between the reading of the clock and the time elapsed
    obtain ⟨m, hm⟩ : ∃ m, ¬ (Z.clock endAt ≤ m * msPerMinute ↔
        endAt - P.luxon.startOfDay Z startAt ≤ m * msPerMinute) := by
      rw [hstart] at hne ⊢
      simp only [msPerMinute] at *
      by_cases hlt : Z.offset endAt < k
      · exact ⟨(Z.clock endAt + 59999) / 60000, by omega⟩
      · exact ⟨(endAt - (midnight (Z.date startAt) - k * 60000) + 59999) / 60000, by omega⟩
    have hx := h "c1" "hu" (.withRange "c1" (Z.date startAt) 0 m) (fun _ => {}) fun _ => rfl
    rw [assertWithinSchedule_ok fun _ => rfl, hZ, effectiveRanges_withRange] at hx
    have := Z.clock_nonneg startAt
    exact hm (by simpa [InsideHours, this] using hx.symm)
  · intro h coachId locale w env henv
    rw [assertWithinSchedule_ok henv, hZ]
    have : endAt - P.luxon.startOfDay Z startAt = Z.clock endAt := by omega
    rw [this]; exact Iff.rfl

/-- An hour on an ordinary Monday. -/
theorem schedule_check_exact_monday : ScheduleCheckExact .sample "Europe/Budapest" 1773046800000 1773050400000 :=
  (schedule_check_exact_iff (P := .sample) (fixOffset_wholeMinutes _) (by decide)).mpr (by decide)

/-- Budapest in the autumn of 2026: the clocks go back on Sunday, 2026-10-25, at 03:00. -/
def Platform.autumn : Platform where
  luxon := .sample ⟨fun t => if t < 1792890000000 then 120 else 60⟩ [] []
  decrypt := some

/-- The coach works from 09:00 to 17:00 on that Sunday, and the hour from 16:00 to 17:00 is refused: at
17:00 the day is eighteen hours old. -/
theorem schedule_check_not_exact : ¬ ∀ (P : Platform) (timezone : String) (startAt endAt : Int),
    startAt < endAt → (P.luxon.zone timezone).date startAt = (P.luxon.zone timezone).date endAt →
    ScheduleCheckExact P timezone startAt endAt := by
  intro hall
  have h := hall .autumn "Europe/Budapest" 1792940400000 1792944000000 (by decide) (by decide)
    "c1" "hu" (.withRange "c1" 20751 540 1020) (fun _ => {}) fun _ => rfl
  rw [assertWithinSchedule_ok fun _ => rfl] at h
  revert h
  decide

/-! ## Booking what is offered -/

/-- The event type, the settings and the first and last day of a query. -/
structure QuerySlotsDto.Resolved (P : Platform) (db : Db) (query : QuerySlotsDto) (eventType : EventType)
    (settings : Settings) (lo hi : Int) : Prop where
  type : db.eventTypes.find query.eventTypeId = some eventType
  config : db.settingsOf eventType.coachId = some settings
  first : (P.luxon.fromISO (P.luxon.zone settings.businessTimezone) query.fromDate).map
    (P.luxon.startOfDay (P.luxon.zone settings.businessTimezone)) = some lo
  last : (P.luxon.fromISO (P.luxon.zone settings.businessTimezone) query.toDate).map
    (P.luxon.startOfDay (P.luxon.zone settings.businessTimezone)) = some hi

/-- A request for the slot, at a location that the event type offers. -/
structure CreateBookingDto.Requests (dto : CreateBookingDto) (query : QuerySlotsDto) (eventType : EventType)
    (slot : Slot) : Prop where
  eventTypeId : dto.eventTypeId = query.eventTypeId
  startAt : dto.startAt = slot.startAt
  location : dto.location ∈ eventType.locations

/-- A time that is printed as `s` is read from `s`. -/
def Luxon.ReadsBack (L : Luxon) (s : String) : Prop := ∀ t, L.toISO t = s → L.fromISO L.systemZone s = some t

/-- The call returns a booking, and its row has exactly the times of the slot. -/
def StoresSlot (P : Platform) (slot : Slot)
    (out : Prog.Outcome World Ans Failure BookingWithRelations) : Prop :=
  ∃ b, out.result = .ok b ∧ out.world.db.bookings.find b.id = some b.toBooking ∧
    P.luxon.toISO b.startAt = slot.startAt ∧ P.luxon.toISO b.endAt = slot.endAt

/-- What the slot list does not look at: whether the interval ends on the local date on which it starts,
whether the time elapsed since the start of that day stays within a range that the start is in, and
whether a booking that is not inside the queried days overlaps it. -/
structure SlotFits (P : Platform) (Z : Zone) (db : Db) (coachId : String) (lo hi startAt endAt : Int) :
    Prop where
  sameDay : Z.date startAt = Z.date endAt
  schedule : ∃ r ∈ effectiveRanges P Z db coachId (Z.date startAt), r.startMinute * msPerMinute ≤ Z.clock startAt ∧
    endAt - P.luxon.startOfDay Z startAt ≤ r.endMinute * msPerMinute
  unseen : ∀ b ∈ db.bookings, b.coachId = coachId → b.status = .confirmed →
    ¬ (lo ≤ b.startAt ∧ b.endAt ≤ P.luxon.plusDay Z hi) → ¬ (b.startAt < endAt ∧ startAt < b.endAt)

section Offered

variable {w : World} {fuel : Nat} {query : QuerySlotsDto} {slots : List Slot} {slot : Slot} {dto : CreateBookingDto}
variable {eventType : EventType} {settings : Settings} {lo hi startAt : Int} {ch : Choice} {originUrl : Option String}

/-- The bookings inside the queried days are not in the way of an offered slot. -/
theorem Offered.bookable_iff (dto : CreateBookingDto) (originUrl : Option String)
    (hx : query.excludeBookingId = none)
    (h : Offered P Z fuel w.db w.clock query eventType settings lo hi startAt) :
    Z.date startAt = Z.date (startAt + eventType.durationMinutes * msPerMinute) ∧
        Bookable P Z w.db (dto.transaction originUrl eventType startAt) ↔
      SlotFits P Z w.db eventType.coachId lo hi startAt (startAt + eventType.durationMinutes * msPerMinute) := by
  constructor
  · rintro ⟨hday, hr, hb⟩
    refine ⟨hday, hr, fun b hmem hco hs _ ho => ?_⟩
    have hc : (dto.transaction originUrl eventType startAt).conflicts b = true :=
      SlotTransaction.conflicts_iff.mpr ⟨hco, hs, (fun _ h => by cases h), ho⟩
    rw [hb b hmem] at hc
    cases hc
  · rintro ⟨hday, hr, hb⟩
    refine ⟨hday, hr, fun b hmem => Bool.eq_false_iff.mpr fun hc => ?_⟩
    obtain ⟨hco, hs, _, ho⟩ := SlotTransaction.conflicts_iff.mp hc
    have hco : b.coachId = eventType.coachId := hco
    by_cases hin : lo ≤ b.startAt ∧ b.endAt ≤ P.luxon.plusDay Z hi
    · exact h.free b hmem (by simp [QuerySlotsDto.sees, hx, hco, hs, hin]) ho
    · exact hb b hmem hco hs hin ho

/-- A request for an offered slot, on the same state at the same time, stores exactly the slot if and only
if the slot fits. -/
theorem offered_slot_bookable_iff (hq : query.Resolved P w.db eventType settings lo hi)
    (hx : query.excludeBookingId = none) (hn : 0 ≤ settings.cancellationNoticeHours)
    (hslots : computeSlots P fuel w.db w.clock query = some (.ok slots)) (hslot : slot ∈ slots)
    (hL : P.luxon.ReadsBack slot.startAt) (hd : dto.Requests query eventType slot) (hch : ch.Calm w)
    (hs : P.luxon.toISO startAt = slot.startAt) :
    StoresSlot P slot ((BookingsService.create P dto originUrl).run exec (fun _ => ch) w []) ↔
      SlotFits P (P.luxon.zone settings.businessTimezone) w.db eventType.coachId lo hi startAt
        (startAt + eventType.durationMinutes * msPerMinute) := by
  obtain ⟨ha, startAt', rfl, ho⟩ := mem_computeSlots hq.type hq.config rfl hq.first hq.last hslots hslot
  -- the string of the slot tells its start
  obtain rfl : startAt' = startAt := Option.some.inj ((hL startAt' rfl).symm.trans (hL startAt hs))
  have hE : w.db.eventTypes.find dto.eventTypeId = some eventType := hd.eventTypeId ▸ hq.type
  have hT : P.luxon.fromISO P.luxon.systemZone dto.startAt = some startAt' := hd.startAt ▸ hL startAt' rfl
  have hnow : w.clock ≤ startAt' := by
    have := ho.cutoff
    simp only [msPerHour] at this; omega
  rw [← ho.bookable_iff dto originUrl hx]
  constructor
  · rintro ⟨b, hb, _⟩
    by_contra hnot
    obtain ⟨e, w', hr⟩ := create_fails originUrl hE ha hd.location hq.config hT hnow hch hnot
    rw [(hr []).1] at hb
    cases hb
  · rintro ⟨hday, hb⟩
    obtain ⟨b, w', hr, hf, hbs, hbe⟩ :=
      create_succeeds originUrl hE ha hd.location hq.config hT hnow hch hday hb
    refine ⟨b, (hr []).1, ?_, by rw [hbs], by rw [hbe]⟩
    rw [(hr []).2]
    exact hf

end Offered

/-! ### One Monday -/

theorem Luxon.sample_readsBack {times dates : List (String × Int)} {s : String} (hs : s ≠ "")
    (h : ∀ p ∈ times, p.1 = s → times.lookup s = some p.2) : (Luxon.sample Z times dates).ReadsBack s := by
  intro t ht
  change ((times.find? (·.2 = t)).map (·.1)).getD "" = s at ht
  cases hf : times.find? (·.2 = t) with
  | none => rw [hf] at ht; exact absurd ht.symm hs
  | some p =>
      rw [hf] at ht
      have hp : p.2 = t := by simpa using List.find?_some hf
      exact (h p (List.mem_of_find?_eq_some hf) ht).trans (congrArg some hp)

/-- The coach is bookable from 09:00 to midnight on Mondays. -/
def World.openTillMidnight : World :=
  { World.sample with db := { Db.sample with weeklyAvailabilities := ⟨[⟨"w1", "c1", 1, 540, 1440⟩], by decide⟩ } }

def QuerySlotsDto.sample : QuerySlotsDto := ⟨"e1", "2026-03-09", "2026-03-09", none⟩

theorem QuerySlotsDto.sample_resolved : QuerySlotsDto.sample.Resolved .sample World.openTillMidnight.db .sample
    { coachId := "c1" } 1773010800000 1773010800000 :=
  ⟨rfl, rfl, by decide, by decide⟩

theorem World.openTillMidnight_calm : Choice.Calm {} .openTillMidnight :=
  ⟨rfl, rfl, by decide, fun _ hb => absurd hb Table.not_mem_empty⟩

def offers (slot : Slot) : Option (Except Failure (List Slot)) → Bool
  | some (.ok slots) => slots.contains slot
  | _ => false

theorem of_offers (slot : Slot) {o : Option (Except Failure (List Slot))} (h : offers slot o = true) :
    ∃ slots, o = some (.ok slots) ∧ slot ∈ slots := by
  unfold offers at h
  split at h
  · exact ⟨_, rfl, by simpa using h⟩
  · cases h

theorem offered_slot_bookable_iff_ten :
    StoresSlot .sample ⟨"c1", "2026-03-09T09:00:00.000Z", "2026-03-09T10:00:00.000Z"⟩
      ((BookingsService.create .sample .sample none).run exec (fun _ => {}) .openTillMidnight []) := by
  obtain ⟨slots, hslots, hslot⟩ := of_offers
    ⟨"c1", "2026-03-09T09:00:00.000Z", "2026-03-09T10:00:00.000Z"⟩
    (o := computeSlots .sample 40 World.openTillMidnight.db World.openTillMidnight.clock .sample)
    (by decide)
  have hL : Platform.sample.luxon.ReadsBack "2026-03-09T09:00:00.000Z" :=
    Luxon.sample_readsBack (by decide) (by decide)
  have hfits : SlotFits .sample (Platform.sample.luxon.zone "Europe/Budapest") World.openTillMidnight.db "c1"
      1773010800000 1773010800000 1773046800000 1773050400000 :=
    ⟨by decide, by decide, fun _ hb => absurd hb Table.not_mem_empty⟩
  exact (offered_slot_bookable_iff (w := .openTillMidnight) QuerySlotsDto.sample_resolved rfl (by decide) hslots
    hslot hL ⟨rfl, rfl, by decide⟩ World.openTillMidnight_calm (by decide)).mpr hfits

def MinuteRange.Admitted (r : MinuteRange) : Prop :=
  0 ≤ r.startMinute ∧ r.startMinute < r.endMinute ∧ r.endMinute ≤ 1440

instance (r : MinuteRange) : Decidable r.Admitted := inferInstanceAs (Decidable (_ ∧ _ ∧ _))

/-- A schedule of usable ranges. -/
structure Db.AdmittedSchedule (d : Db) : Prop where
  weekly : ∀ r ∈ d.weeklyAvailabilities, r.range.Admitted
  overrides : ∀ o ∈ d.overrides, o.isUnavailable = false →
    o.startMinute.isSome ∧ o.endMinute.isSome ∧ o.range.Admitted

theorem World.openTillMidnight_admitted : World.openTillMidnight.db.AdmittedSchedule where
  weekly := by
    intro r hr
    obtain rfl := List.mem_singleton.mp hr
    exact ⟨by decide, by decide, by decide⟩
  overrides _ ho := absurd ho Table.not_mem_empty

/-- The last slot of the day ends at midnight. It is offered, and a request for it is refused. -/
theorem offered_slot_not_bookable : ¬ ∀ (P : Platform) (w : World) (fuel : Nat) (query : QuerySlotsDto)
    (slots : List Slot) (slot : Slot) (dto : CreateBookingDto) (originUrl : Option String) (ch : Choice)
    (eventType : EventType) (settings : Settings) (lo hi : Int),
    query.Resolved P w.db eventType settings lo hi → w.db.AdmittedSchedule → w.db.bookings = .empty →
    query.excludeBookingId = none → 0 ≤ settings.cancellationNoticeHours →
    computeSlots P fuel w.db w.clock query = some (.ok slots) → slot ∈ slots →
    P.luxon.ReadsBack slot.startAt → dto.Requests query eventType slot → ch.Calm w →
    StoresSlot P slot ((BookingsService.create P dto originUrl).run exec (fun _ => ch) w []) := by
  intro hall
  obtain ⟨slots, hslots, hslot⟩ := of_offers
    ⟨"c1", "2026-03-09T22:00:00.000Z", "2026-03-09T23:00:00.000Z"⟩
    (o := computeSlots .sample 40 World.openTillMidnight.db World.openTillMidnight.clock .sample)
    (by decide)
  have hL : Platform.sample.luxon.ReadsBack "2026-03-09T22:00:00.000Z" :=
    Luxon.sample_readsBack (by decide) (by decide)
  obtain ⟨b, hb, _⟩ := hall .sample .openTillMidnight 40 .sample slots _
    { CreateBookingDto.sample with startAt := "2026-03-09T22:00:00.000Z" } none {} _ _ _ _
    QuerySlotsDto.sample_resolved World.openTillMidnight_admitted rfl rfl (by decide) hslots hslot hL
    ⟨rfl, rfl, by decide⟩ World.openTillMidnight_calm
  have hok : Except.isOk _ = true := congrArg Except.isOk hb
  exact absurd hok (by decide)

end CoachingCalendar
