import CoachingCalendar.Bookings.Lemmas.Reschedule
import CoachingCalendar.Bookings.Offer
import CoachingCalendar.Slots.Exact
import CoachingCalendar.Slots.Taken

/-! # Rescheduling to what is offered -/

namespace CoachingCalendar
open Lib Lib.System

variable {P : Platform} {Z : Zone} {w : World} {db : Db} {c : BookingConfig} {query : QuerySlotsDto} {b : Booking}
variable {eventType : EventType} {settings : Settings} {fuel : Nat} {now k fromDate toDate d m : Int}
variable {slots : List Slot} {slot : Slot} {ch : Choice}

/-- The call returns the booking, and its row has exactly the times of the slot. -/
def MovesToSlot (P : Platform) (b : Booking) (slot : Slot)
    (out : Prog.Outcome World Ans Failure BookingWithRelations) : Prop :=
  ∃ u, out.result = .ok u ∧ out.world.db.bookings.find b.id = some u.toBooking ∧
    P.luxon.toISO u.startAt = slot.startAt ∧ P.luxon.toISO u.endAt = slot.endAt

/-! ## Slots of ordinary days -/

/-- The slot starts at the minute `m` of a date of the query, and it lies in a range of that date. -/
structure OfferedOn (P : Platform) (Z : Zone) (db : Db) (now : Int) (query : QuerySlotsDto) (eventType : EventType)
    (settings : Settings) (k fromDate toDate d m : Int) : Prop where
  first : fromDate ≤ d
  last : d ≤ toDate
  duration : 0 < eventType.durationMinutes
  minute : 0 ≤ m
  range : ∃ r ∈ effectiveRanges P Z db eventType.coachId d,
    r.startMinute ≤ m ∧ m + eventType.durationMinutes ≤ r.endMinute
  free : isOffered (settings.cutoff now)
    (query.existing P.luxon Z db eventType.coachId (dayStart k fromDate) (dayStart k toDate))
    (slotOn k eventType.durationMinutes d m) = true

theorem slotOn_end : (slotOn k eventType.durationMinutes d m).2 =
    (slotOn k eventType.durationMinutes d m).1 + eventType.durationMinutes * msPerMinute := by
  simp only [slotOn, Int.add_mul, Int.add_assoc]

section Ordinary

variable (hL : P.luxon.KeepsClocks Z) (hA : P.luxon.AddsDays Z) (hc : Z.ConstantOver k fromDate toDate)
variable (hle : fromDate ≤ toDate)
include hL hA hc hle

/-- Every slot of ordinary days is offered on one of them. -/
theorem offeredOn (hq : query.Asks P db eventType settings fromDate toDate)
    (hZ : P.luxon.zone settings.businessTimezone = Z) (hadm : db.AdmittedSchedule)
    (h : computeSlots P fuel db now query = some (.ok slots)) (hslot : slot ∈ slots) :
    ∃ d m, OfferedOn P Z db now query eventType settings k fromDate toDate d m ∧
      slot = Slot.ofTimes P.luxon eventType.coachId (slotOn k eventType.durationMinutes d m) := by
  obtain ⟨rangesByDate, days, hr, hdays, rfl⟩ := computeSlots_eq_grid (hq.resolved hZ hL hc hle) hZ h
  obtain ⟨_, hs, rfl⟩ := List.mem_map.mp hslot
  obtain ⟨hs, hfree⟩ := List.mem_filter.mp hs
  obtain ⟨⟨day, m⟩, hp, rfl⟩ := List.mem_map.mp hs
  have hpoint := (offeredPoint_iff hdays).mpr ⟨hp, hfree⟩
  obtain ⟨n, rfl, hwalk⟩ := hpoint.day
  -- the walk is on the dates of the query
  have hn : fromDate + n ≤ toDate := by
    by_contra hlt
    have hpast := hwalk ((toDate - fromDate).toNat + 1) (by omega)
    rw [Function.iterate_succ_apply', iterate_dayStart hL hc (by omega)] at hpast
    have hend : fromDate + ((toDate - fromDate).toNat : Int) = toDate := by omega
    rw [hend] at hpast
    exact absurd hpast (Int.not_le.mpr (hA.later _))
  rw [iterate_dayStart hL hc hn] at hpoint
  obtain ⟨range, hrange, hm⟩ := hpoint.minute
  have hdate := hc.date_dayStart (d := fromDate + n) (by omega) hn
  dsimp only at hrange hm
  rw [hdate] at hrange
  obtain ⟨hstart, -, hend⟩ := entry_admitted hadm hr _ range hrange
  have hpos := (mem_stepsTo.mp hm).1
  have hmin := mem_stepsTo_le hm
  have hset : slotAt P.luxon Z eventType.durationMinutes (dayStart k (fromDate + n)) m =
      slotOn k eventType.durationMinutes (fromDate + n) m := by
    rw [slotAt, setMinute_dayStart hL hc (by omega) hn (by omega) (by omega), slotOn, Int.add_mul, Int.add_assoc]
  refine ⟨fromDate + n, m, ⟨by omega, hn, hpos, by omega, ⟨range, ?_, hmin.1, hmin.2⟩, hset ▸ hpoint.free⟩, ?_⟩
  · rw [hc.date_dayStart (Int.le_refl _) hle, hc.date_dayStart hle (Int.le_refl _)] at hr
    rcases getEffectiveRangesForDateRange_effective hr (d := fromDate + n) (by omega) hn with he | he
    · rw [he] at hrange
      cases hrange
    · rwa [he] at hrange
  · rw [iterate_dayStart hL hc hn, ← hset]

theorem seen_of_overlap {s e start finish : Int} (hday : Z.date start = Z.date finish)
    (hlen : finish - start ≤ msPerDay) (hs : dayStart k fromDate ≤ s) (he : e ≤ dayStart k (toDate + 1)) (hlt : start < e)
    (hgt : s < finish) :
    dayStart k fromDate ≤ start ∧ finish ≤ P.luxon.plusDay Z (dayStart k toDate) := by
  have hplus := le_plusDay hL hc hA hle
  have within : ∀ {t}, fromDate ≤ Z.date t → Z.date t ≤ toDate →
      dayStart k fromDate ≤ t ∧ t < dayStart k (toDate + 1) := by
    intro t h₀ h₁
    have hoff := hc.only t h₀ h₁
    simp only [Zone.date, Zone.wall, hoff] at h₀ h₁
    simp only [dayStart, midnight, msPerDay] at *
    omega
  have hwhole : dayStart k fromDate ≤ dayStart k (toDate + 1) - msPerDay := by
    simp only [dayStart, midnight, msPerDay]
    omega
  by_cases hin : finish < dayStart k (toDate + 1)
  · obtain ⟨h₀, h₁⟩ := hc.date_between (t := finish) (by omega) hin
    exact ⟨(within (hday ▸ h₀) (hday ▸ h₁)).1, by omega⟩
  · obtain ⟨h₀, h₁⟩ := hc.date_between (t := start) (by omega) (by omega)
    exact absurd (within (hday ▸ h₀) (hday ▸ h₁)).2 hin

omit hA hle in
theorem OfferedOn.clock (h : OfferedOn P Z db now query eventType settings k fromDate toDate d m) (hm : m < 1440) :
    Z.date (slotOn k eventType.durationMinutes d m).1 = d ∧
      Z.clock (slotOn k eventType.durationMinutes d m).1 = m * msPerMinute ∧
      P.luxon.startOfDay Z (slotOn k eventType.durationMinutes d m).1 = dayStart k d := by
  have hfirst := h.first
  have hlast := h.last
  have hmin := h.minute
  have hdate : Z.date (slotOn k eventType.durationMinutes d m).1 = d := hc.date_slotOn hfirst hlast hmin hm
  have hwall : Z.wall (slotOn k eventType.durationMinutes d m).1 = midnight d + m * msPerMinute := by
    rw [← hc.wall_eq (W := midnight d + m * msPerMinute)
      (by simp only [midnight, msPerDay, msPerMinute]; omega) (by simp only [midnight, msPerDay, msPerMinute]; omega)]
    refine congrArg Z.wall ?_
    simp only [slotOn, dayStart]
    omega
  refine ⟨hdate, ?_, ?_⟩
  · have hclock := Z.wall_eq (slotOn k eventType.durationMinutes d m).1
    rw [hwall, hdate] at hclock
    omega
  · have hday := hL.startOfDay_eq hc (hdate.symm ▸ hfirst) (hdate.symm ▸ hlast)
    rwa [hdate] at hday

theorem OfferedOn.bookable (h : OfferedOn P Z db now query eventType settings k fromDate toDate d m)
    (hend : m + eventType.durationMinutes < 1440) (hx : query.excludeBookingId = some b.id)
    (hco : eventType.coachId = b.coachId) (hlen : b.length = eventType.durationMinutes * msPerMinute)
    (hone : ∀ b' ∈ db.bookings, b'.coachId = eventType.coachId →
      Z.date b'.startAt = Z.date b'.endAt ∧ b'.length ≤ msPerDay) :
    Z.date (slotOn k eventType.durationMinutes d m).1 =
        Z.date ((slotOn k eventType.durationMinutes d m).1 + (b.endAt - b.startAt)) ∧
      Bookable P Z db (b.transaction (slotOn k eventType.durationMinutes d m).1) := by
  have hfirst := h.first
  have hlast := h.last
  have hpos := h.duration
  have hmin := h.minute
  obtain ⟨hdate, hclock, hday⟩ := h.clock hL hc (by omega)
  have hstop : (slotOn k eventType.durationMinutes d m).1 + (b.endAt - b.startAt) =
      (slotOn k eventType.durationMinutes d m).2 := by
    change b.endAt - b.startAt = _ at hlen
    rw [hlen, slotOn_end]
  refine ⟨?_, ?_, fun b' hb' => Bool.eq_false_iff.mpr fun hconf => ?_⟩
  · rw [hstop, hdate]
    exact (hc.date_slotOn hfirst hlast (by omega) hend).symm
  · obtain ⟨r, hr, hstart, hstop'⟩ := h.range
    refine ⟨r, ?_, ?_, ?_⟩
    · change r ∈ effectiveRanges P Z db b.coachId (Z.date (slotOn k eventType.durationMinutes d m).1)
      rwa [hdate, ← hco]
    · change _ ≤ Z.clock (slotOn k eventType.durationMinutes d m).1
      rw [hclock]
      exact Int.mul_le_mul_of_nonneg_right hstart (by decide)
    · change (slotOn k eventType.durationMinutes d m).1 + (b.endAt - b.startAt) -
        P.luxon.startOfDay Z (slotOn k eventType.durationMinutes d m).1 ≤ _
      rw [hstop, hday]
      have := Int.mul_le_mul_of_nonneg_right hstop' (c := msPerMinute) (by decide)
      simp only [slotOn]
      omega
  · -- the query of the slots has looked at what is in the way
    obtain ⟨hco', hs, hid, hlt, hgt⟩ := SlotTransaction.conflicts_iff.mp hconf
    have hco' : b'.coachId = eventType.coachId := (show b'.coachId = b.coachId from hco').trans hco.symm
    change b'.startAt < (slotOn k eventType.durationMinutes d m).1 + (b.endAt - b.startAt) at hlt
    rw [hstop] at hlt
    obtain ⟨hsame, hshort⟩ := hone b' hb' hco'
    have hin := seen_of_overlap (P := P) hL hA hc hle hsame hshort
      (s := (slotOn k eventType.durationMinutes d m).1) (e := (slotOn k eventType.durationMinutes d m).2)
      (by simp only [slotOn, dayStart, midnight, msPerDay, msPerMinute]; omega)
      (by simp only [slotOn, dayStart, midnight, msPerDay, msPerMinute]; omega) hlt hgt
    have hne : b'.id ≠ b.id := hid b.id rfl
    have hsee : query.sees eventType.coachId (dayStart k fromDate) (P.luxon.plusDay Z (dayStart k toDate)) b' =
        true := by
      simp [QuerySlotsDto.sees, hco', hs, hin, hx, hne]
    have hfree := h.free
    simp only [isOffered, Bool.and_eq_true, Bool.not_eq_true', List.any_eq_false] at hfree
    exact hfree.2 b' (Table.mem_findMany.mpr ⟨hb', hsee⟩) (by simp [hlt]; exact hgt)

omit hA hL hc hle in
theorem OfferedOn.within (h : OfferedOn P Z db now query eventType settings k fromDate toDate d m)
    (hends : ∀ r ∈ effectiveRanges P Z db eventType.coachId d, r.endMinute < 1440) :
    m + eventType.durationMinutes < 1440 := by
  obtain ⟨r, hr, -, hm⟩ := h.range
  have := hends r hr
  omega

end Ordinary

/-! ## Moving a booking -/

theorem reschedule_keeps_length {out : Prog.Outcome World Ans Failure BookingWithRelations} {u : BookingWithRelations}
    (hout : out = (BookingsService.rescheduleByClient P b.manageToken slot.startAt).run exec (fun _ => ch) w [])
    (hb : b ∈ w.db.bookings) (happart : TokensApart w.db.bookings) (hu : out.result = .ok u) :
    P.luxon.fromISO P.luxon.systemZone slot.startAt = some u.startAt ∧ u.endAt = u.startAt + (b.endAt - b.startAt) := by
  have hbody : ((Call.body P (.rescheduleByClient b.manageToken slot.startAt)).run exec (fun _ => ch) w []).result =
      .ok (some u) := by
    change ((Prog.bind (BookingsService.rescheduleByClient P b.manageToken slot.startAt) fun b => .pure (some b)).run
      exec (fun _ => ch) w []).result = _
    rw [Prog.run_bind, ← hout]
    obtain ⟨_, w', t⟩ := out
    cases hu
    rfl
  obtain ⟨_, hsome, hdone⟩ := Call.body_done rfl hbody
  cases hsome
  obtain ⟨b₀, hb₀, htoken, -, startAt, hstart, hmoved⟩ := hdone.describes
  cases happart b₀ hb₀ b hb htoken
  have hs : u.startAt = startAt := by
    rcases hmoved with h | h <;> exact (congrArg Booking.startAt h :)
  have he : u.endAt = startAt + (b.endAt - b.startAt) := by
    rcases hmoved with h | h <;> exact (congrArg Booking.endAt h :)
  exact ⟨hs ▸ hstart, by rw [hs, he]⟩

theorem settings_of_row {coachId : String} (hS : db.settingsOf coachId = some settings) {row : Settings}
    (hrow : db.settings.find coachId = some row) : settings = row := by
  obtain ⟨coach, -, hs⟩ := Option.map_eq_some_iff.mp hS
  rw [hrow] at hs
  exact hs.symm

/-- In every state that calls, jobs and edits of the offer lead to, a slot that is offered for a confirmed booking
outside its notice window is where the reschedule moves it, exactly when the booking is as long as its event type is now
and its event can be deleted. -/
theorem offered_slot_reschedule_iff (hw : w.Fresh) (hu : w.db.Usable) (hd : w.db.DurationsValid)
    (h : (calendarSystem P Statement.editsOffer).Run .any (.start w) c) (hids : c.KeepsTypeIds)
    (hb : b ∈ c.world.db.bookings) (hs : b.status = .confirmed) (htype : query.eventTypeId = b.eventTypeId)
    (hx : query.excludeBookingId = some b.id) (hq : query.Asks P c.world.db eventType settings fromDate toDate)
    (hZ : P.luxon.zone settings.businessTimezone = Z) (hL : P.luxon.KeepsClocks Z) (hA : P.luxon.AddsDays Z)
    (hc : Z.ConstantOver k fromDate toDate) (hle : fromDate ≤ toDate)
    (hends : ∀ d, fromDate ≤ d → d ≤ toDate → ∀ r ∈ effectiveRanges P Z c.world.db eventType.coachId d,
      r.endMinute < 1440)
    (hhours : 0 ≤ settings.cancellationNoticeHours)
    (hnotice : c.world.clock + settings.cancellationNoticeHours * msPerHour ≤ b.startAt)
    (hslots : computeSlots P fuel c.world.db c.world.clock query = some (.ok slots)) (hslot : slot ∈ slots)
    (hstart : P.luxon.ReadsBack slot.startAt) (hend : P.luxon.ReadsBack slot.endAt) (hch : ch.Calm c.world) :
    MovesToSlot P b slot
        ((BookingsService.rescheduleByClient P b.manageToken slot.startAt).run exec (fun _ => ch) c.world []) ↔
      b.length = eventType.durationMinutes * msPerMinute ∧ b.CanUnlink P c.world.db := by
  obtain ⟨d, m, ho, rfl⟩ := offeredOn hL hA hc hle hq hZ
    (run_usable (fun _ => Statement.editsOffer.usable) hu h).admitted hslots hslot
  have happart := run_tokensApart hw (run_of_changes h)
  have hco : eventType.coachId = b.coachId := run_owned hw h hids hb (htype ▸ hq.type)
  have hS : c.world.db.settingsOf b.coachId = some settings := hco ▸ hq.config
  have hcut : settings.cutoff c.world.clock ≤ (slotOn k eventType.durationMinutes d m).1 := by
    have hfree := ho.free
    simp only [isOffered, Bool.and_eq_true, Bool.not_eq_true', decide_eq_false_iff_not] at hfree
    exact Int.not_lt.mp hfree.1
  have hminute := ho.within (hends d ho.first ho.last)
  -- the settings of the coach are in the table, and every booking of the coach is on one of their dates
  have hrow : c.world.db.settings.find b.coachId = some settings := by
    obtain ⟨row, hrow, -⟩ := run_onDate hw hd h hb
    rwa [settings_of_row hS hrow]
  have hone : ∀ b' ∈ c.world.db.bookings, b'.coachId = eventType.coachId →
      Z.date b'.startAt = Z.date b'.endAt ∧ b'.length ≤ msPerDay := by
    intro b' hb' hco'
    obtain ⟨row, hrow', hday⟩ := run_onDate hw hd h hb'
    rw [hco', hco, hrow] at hrow'
    cases hrow'
    exact ⟨hZ ▸ hday, (run_length hw hd h hb').2⟩
  have hfind := happart.findFirst hb
  have hT := hstart (slotOn k eventType.durationMinutes d m).1 rfl
  have hE := hend (slotOn k eventType.durationMinutes d m).2 rfl
  have hnow : c.world.clock ≤ (slotOn k eventType.durationMinutes d m).1 := by
    simp only [Settings.cutoff, msPerHour] at hcut
    omega
  constructor
  · rintro ⟨u, hu', -, hs₁, hs₂⟩
    obtain ⟨hread, hstop⟩ := reschedule_keeps_length rfl hb happart hu'
    have hus : u.startAt = (slotOn k eventType.durationMinutes d m).1 := Option.some.inj (hread.symm.trans hT)
    have hue : u.endAt = (slotOn k eventType.durationMinutes d m).2 := Option.some.inj ((hend _ hs₂).symm.trans hE)
    have hlen : b.length = eventType.durationMinutes * msPerMinute := by
      rw [hus, hue, slotOn_end] at hstop
      exact (Int.add_left_cancel hstop).symm
    refine ⟨hlen, ?_⟩
    by_contra hlink
    obtain ⟨hday, hbook⟩ := ho.bookable hL hA hc hle hminute hx hco hlen hone
    obtain ⟨e, w', hr⟩ := reschedule_fails hch hfind hs hS hrow hZ hnotice hT hnow hday hbook hlink
    rw [(hr []).1] at hu'
    cases hu'
  · rintro ⟨hlen, hlink⟩
    obtain ⟨hday, hbook⟩ := ho.bookable hL hA hc hle hminute hx hco hlen hone
    obtain ⟨u, w', hr, hrow', hs₁, hs₂⟩ := reschedule_succeeds hch hfind hs hS hrow hZ hnotice hT hnow hday hbook hlink
    refine ⟨u, (hr []).1, ?_, by rw [hs₁]; rfl, ?_⟩
    · rw [(hr []).2]
      exact hrow'
    · change b.endAt - b.startAt = _ at hlen
      rw [hs₂, hlen, ← slotOn_end]
      rfl

/-! ### An hour later on a Monday -/

/-- The sample event type on a Monday, for the booking `b1`. -/
def QuerySlotsDto.monday : QuerySlotsDto := { QuerySlotsDto.sample with excludeBookingId := some "b1" }

/-- The booking `b1` is confirmed, outside its notice window and an hour long, with no event. -/
def isMondayBooking (c : BookingConfig) (b : Booking) : Bool :=
  b.id = "b1" && b.status = .confirmed && b.eventTypeId = "e1" && b.googleEventId = none &&
    b.length = 60 * msPerMinute && c.world.clock + 48 * msPerHour ≤ b.startAt

/-- No coach has the id of an event type that was read of another. -/
def keepsTypeIds (c : BookingConfig) : Bool :=
  c.log.all fun e => (readType e.toEvent).all fun eventType =>
    (c.world.db.eventTypes.find eventType.id).all fun present => present.coachId = eventType.coachId

theorem keepsTypeIds_of {c : BookingConfig} (h : keepsTypeIds c = true) : c.KeepsTypeIds := by
  intro e he eventType ht present hp
  have h := List.all_eq_true.mp h e he
  rw [ht, Option.all_some, hp, Option.all_some] at h
  exact of_decide_eq_true h

theorem Platform.sample_keepsClocks : Platform.sample.luxon.KeepsClocks ⟨fun _ => 60⟩ :=
  ⟨Platform.calendar_keepsClocks.moves, Platform.calendar_keepsClocks.first⟩

theorem Platform.sample_addsDays : Platform.sample.luxon.AddsDays ⟨fun _ => 60⟩ :=
  ⟨Platform.calendar_addsDays.later, Platform.calendar_addsDays.between⟩

theorem World.untilNoon_durationsValid : World.untilNoon.db.DurationsValid := by
  intro e he
  cases List.mem_singleton.mp he
  decide

/-- The booking from 10:00 to 11:00 is moved to the offered slot from 11:00 to 12:00. -/
theorem offered_slot_reschedule_iff_monday : ∃ c b, (calendarSystem .sample Statement.editsOffer).Run .any
      (.start .untilNoon) c ∧ b ∈ c.world.db.bookings ∧ isMondayBooking c b = true ∧
    MovesToSlot .sample b ⟨"c1", "2026-03-09T10:00:00.000Z", "2026-03-09T11:00:00.000Z"⟩
      ((BookingsService.rescheduleByClient .sample b.manageToken "2026-03-09T10:00:00.000Z").run exec
        (fun _ => { newId := "b2", newToken := "t2" }) c.world []) := by
  obtain ⟨c, h, hp⟩ := run_of_play (S := calendarSystem .sample Statement.editsOffer) (G := .any)
    (c := .start .untilNoon)
    ([.spawn (.create .sample none)] ++ List.replicate 8 (.fire 0 { newId := "b1", newToken := "t1" }))
    (fun c => isSampleOf "Europe/Budapest" c && c.world.db.bookings.rows.any (isMondayBooking c) && keepsTypeIds c &&
      offers ⟨"c1", "2026-03-09T10:00:00.000Z", "2026-03-09T11:00:00.000Z"⟩
        (computeSlots .sample 40 c.world.db c.world.clock .monday) &&
      (c.world.db.bookings.find "b2" = none && c.world.db.bookings.rows.all fun b => b.manageToken ≠ "t2") &&
      (effectiveRanges .sample ⟨fun _ => 60⟩ c.world.db "c1" 20521).all fun r => r.endMinute < 1440) (by decide +kernel)
  simp only [Bool.and_eq_true, List.any_eq_true, List.all_eq_true, decide_eq_true_eq] at hp
  obtain ⟨⟨⟨⟨⟨hsample, b, hb, hmonday⟩, hids⟩, hoffers⟩, hnew, htoken⟩, hranges⟩ := hp
  obtain ⟨slots, hslots, hslot⟩ := of_offers _ hoffers
  refine ⟨c, b, h, hb, hmonday, ?_⟩
  simp only [isMondayBooking, Bool.and_eq_true, decide_eq_true_eq] at hmonday
  obtain ⟨⟨⟨⟨⟨hid, hs⟩, htype⟩, hevent⟩, hlen⟩, hnotice⟩ := hmonday
  simp only [isSampleOf, Bool.and_eq_true, decide_eq_true_eq] at hsample
  have hq : QuerySlotsDto.monday.Asks .sample c.world.db .sample { coachId := "c1" } 20521 20521 :=
    ⟨hsample.1, rfl, hsample.2, by decide, by decide⟩
  have hends : ∀ d, 20521 ≤ d → d ≤ 20521 → ∀ r ∈ effectiveRanges .sample ⟨fun _ => 60⟩ c.world.db "c1" d,
      r.endMinute < 1440 := fun d h₀ h₁ => Int.le_antisymm h₀ h₁ ▸ hranges
  exact (offered_slot_reschedule_iff World.untilNoon_fresh World.untilNoon_usable World.untilNoon_durationsValid h
    (keepsTypeIds_of hids) hb hs htype.symm (congrArg some hid.symm) hq rfl Platform.sample_keepsClocks
    Platform.sample_addsDays (Zone.constantOver _ _ _) (Int.le_refl _) hends (by decide) hnotice hslots hslot
    (Luxon.sample_readsBack (by decide) (by decide)) (Luxon.sample_readsBack (by decide) (by decide))
    ⟨rfl, rfl, hnew, fun b hb => htoken b hb⟩).mpr ⟨hlen, fun _ he => by rw [hevent] at he; cases he⟩

/-- The event type is made two hours long. The offered slot from 10:00 to 12:00 is where the booking of one hour is moved,
and it ends at 11:00. -/
theorem not_offered_slot_reschedule : ¬ ∀ (P : Platform) (Z : Zone) (w : World) (c : BookingConfig)
    (query : QuerySlotsDto) (b : Booking) (eventType : EventType) (settings : Settings) (fuel : Nat)
    (k fromDate toDate : Int) (slots : List Slot) (slot : Slot) (ch : Choice),
    w.Fresh → w.db.Usable → w.db.DurationsValid → (calendarSystem P Statement.editsOffer).Run .any (.start w) c →
    c.KeepsTypeIds → b ∈ c.world.db.bookings → b.status = .confirmed → query.eventTypeId = b.eventTypeId →
    query.excludeBookingId = some b.id → query.Asks P c.world.db eventType settings fromDate toDate →
    P.luxon.zone settings.businessTimezone = Z → P.luxon.KeepsClocks Z → P.luxon.AddsDays Z →
    Z.ConstantOver k fromDate toDate → fromDate ≤ toDate →
    (∀ d, fromDate ≤ d → d ≤ toDate → ∀ r ∈ effectiveRanges P Z c.world.db eventType.coachId d, r.endMinute < 1440) →
    0 ≤ settings.cancellationNoticeHours →
    c.world.clock + settings.cancellationNoticeHours * msPerHour ≤ b.startAt →
    computeSlots P fuel c.world.db c.world.clock query = some (.ok slots) → slot ∈ slots →
    P.luxon.ReadsBack slot.startAt → P.luxon.ReadsBack slot.endAt → ch.Calm c.world →
    MovesToSlot P b slot
      ((BookingsService.rescheduleByClient P b.manageToken slot.startAt).run exec (fun _ => ch) c.world []) := by
  intro hall
  obtain ⟨c, h, hp⟩ := run_of_play (S := calendarSystem .sample Statement.editsOffer) (G := .any)
    (c := .start .untilNoon)
    ([.spawn (.create .sample none)] ++ List.replicate 8 (.fire 0 { newId := "b1", newToken := "t1" }) ++
      [.drift (.edit { statement := .eventTypeUpdate "e1" { durationMinutes := some (some 120) }, admitted := rfl })])
    (fun c => (c.world.db.eventTypes.find "e1" = some { EventType.sample with durationMinutes := 120 } &&
        c.world.db.settingsOf "c1" = some { coachId := "c1" }) &&
      c.world.db.bookings.rows.any (isMondayBooking c) && keepsTypeIds c &&
      offers ⟨"c1", "2026-03-09T09:00:00.000Z", "2026-03-09T11:00:00.000Z"⟩
        (computeSlots .sample 40 c.world.db c.world.clock .monday) &&
      (c.world.db.bookings.find "b2" = none && c.world.db.bookings.rows.all fun b => b.manageToken ≠ "t2") &&
      (effectiveRanges .sample ⟨fun _ => 60⟩ c.world.db "c1" 20521).all fun r => r.endMinute < 1440) (by decide +kernel)
  simp only [Bool.and_eq_true, List.any_eq_true, List.all_eq_true, decide_eq_true_eq] at hp
  obtain ⟨⟨⟨⟨⟨⟨htypes, hsettings⟩, b, hb, hmonday⟩, hids⟩, hoffers⟩, hnew, htoken⟩, hranges⟩ := hp
  obtain ⟨slots, hslots, hslot⟩ := of_offers _ hoffers
  simp only [isMondayBooking, Bool.and_eq_true, decide_eq_true_eq] at hmonday
  obtain ⟨⟨⟨⟨⟨hid, hs⟩, htype⟩, -⟩, hlen⟩, hnotice⟩ := hmonday
  have hq : QuerySlotsDto.monday.Asks .sample c.world.db { EventType.sample with durationMinutes := 120 }
      { coachId := "c1" } 20521 20521 := ⟨htypes, rfl, hsettings, by decide, by decide⟩
  have hends : ∀ d, 20521 ≤ d → d ≤ 20521 → ∀ r ∈ effectiveRanges .sample ⟨fun _ => 60⟩ c.world.db "c1" d,
      r.endMinute < 1440 := fun d h₀ h₁ => Int.le_antisymm h₀ h₁ ▸ hranges
  obtain ⟨u, hu, -, -, hstop⟩ := hall .sample ⟨fun _ => 60⟩ .untilNoon c .monday b _ _ 40 60 20521 20521 slots _
    { newId := "b2", newToken := "t2" } World.untilNoon_fresh World.untilNoon_usable World.untilNoon_durationsValid h
    (keepsTypeIds_of hids) hb hs htype.symm (congrArg some hid.symm) hq rfl Platform.sample_keepsClocks
    Platform.sample_addsDays (Zone.constantOver _ _ _) (Int.le_refl _) hends (by decide) hnotice hslots hslot
    (Luxon.sample_readsBack (by decide) (by decide)) (Luxon.sample_readsBack (by decide) (by decide))
    ⟨rfl, rfl, hnew, fun b hb => htoken b hb⟩
  obtain ⟨hread, hend⟩ := reschedule_keeps_length rfl hb (run_tokensApart World.untilNoon_fresh (run_of_changes h)) hu
  have hstart : u.startAt = 1773046800000 := (Option.some.inj hread).symm
  have hstays : u.endAt = 1773050400000 := by
    change b.endAt - b.startAt = _ at hlen
    rw [hend, hstart, hlen]
    decide
  rw [hstays] at hstop
  revert hstop
  decide

end CoachingCalendar
