import CoachingCalendar.Availability.Theorems
import CoachingCalendar.Bookings.Placement
import CoachingCalendar.Dashboard.Lemmas.Usable
import CoachingCalendar.Slots.Clocks

/-! # Offered slots and the bookings that are there -/

namespace CoachingCalendar
open Lib Lib.System

variable {P : Platform} {L : Luxon} {Z : Zone} {w : World} {c : BookingConfig} {query : QuerySlotsDto}
variable {eventType : EventType} {settings : Settings} {fuel : Nat} {lo hi : Int} {slots : List Slot} {slot : Slot}

/-- The confirmed booking is of the coach of the slot and overlaps it, as a client reads its times. -/
def Slot.TakenBy (L : Luxon) (slot : Slot) (b : Booking) : Prop :=
  b.coachId = slot.coachId ∧ b.status = .confirmed ∧ ∃ startAt endAt, L.fromISO L.systemZone slot.startAt = some startAt ∧
    L.fromISO L.systemZone slot.endAt = some endAt ∧ b.startAt < endAt ∧ startAt < b.endAt

/-- No date has times on both sides of `T`. -/
def Zone.PartsDates (Z : Zone) (T : Int) : Prop := ∀ s e, s < T → T < e → Z.date s ≠ Z.date e

/-- What a query looks at are whole dates, and the slots of its days lie in them. -/
structure Luxon.WholeDates (L : Luxon) (Z : Zone) (durationMinutes lo hi : Int) : Prop where
  first : Zone.PartsDates Z lo
  last : Zone.PartsDates Z (L.plusDay Z hi)
  within : ∀ n : Nat, (∀ i ≤ n, (L.plusDay Z)^[i] lo ≤ hi) → ∀ m, 0 ≤ m → m + durationMinutes ≤ 1440 →
    lo ≤ (slotAt L Z durationMinutes ((L.plusDay Z)^[n] lo) m).1 ∧
      (slotAt L Z durationMinutes ((L.plusDay Z)^[n] lo) m).2 ≤ L.plusDay Z hi

/-- The bookings of the coach that were placed in another timezone are on one date of the present one as well. -/
def BookingConfig.KeepsDates (c : BookingConfig) (Z : Zone) (coachId timezone : String) : Prop :=
  ∀ b ∈ c.world.db.bookings, b.coachId = coachId → b.status = .confirmed → ∀ settings, c.placement b.id = some settings →
    settings.businessTimezone ≠ timezone → Z.date b.startAt = Z.date b.endAt

theorem Db.Usable.admitted {d : Db} (h : d.Usable) : d.AdmittedSchedule where
  weekly r hr := ⟨(h.weekly r hr).range.nonneg, (h.weekly r hr).range.lt, (h.weekly r hr).range.le⟩
  overrides o ho hon := by
    cases h.override o ho with
    | off hoff _ _ => cases hon.symm.trans hoff
    | range _ hs he hr =>
        refine ⟨by simp [hs], by simp [he], ?_⟩
        simp only [MinuteRange.Admitted, AvailabilityOverride.range, hs, he, Option.getD_some]
        exact ⟨hr.nonneg, hr.lt, hr.le⟩

theorem run_usable {admits : Statement → Prop} {G : BookingGuard} (hadm : ∀ s, admits s → s.Usable) (hu : w.db.Usable)
    (h : (calendarSystem P admits).Run G (.start w) c) : c.world.db.Usable := by
  refine h.world_invariant (J := fun w => w.db.Usable) hu (fun w o ch hw => ?_) (fun call w w' hw ha => ?_)
    fun d w hw => ?_
  · have hr : OnlyRead w.db (exec w o ch).2.db := exec_onlyRead rfl
    exact ⟨hr.weeklyAvailabilities ▸ hw.weekly, hr.overrides ▸ hw.override⟩
  · obtain ⟨jobs, rfl⟩ := Call.accept_jobs ha
    exact hw
  · change (d.apply w).db.Usable
    rcases d.apply_cases w with ⟨ms, rfl⟩ | hw' | ⟨s, newId, a, db, hs, ha, hw'⟩
    · exact hw
    · rwa [hw']
    · rw [hw']
      exact ha.usable (hadm _ hs) hw

theorem Luxon.WholeDates.holds {d s e start finish : Int} (h : L.WholeDates Z d lo hi) (hday : Z.date start = Z.date finish)
    (hs : lo ≤ s) (he : e ≤ L.plusDay Z hi) (hlt : start < e) (hgt : s < finish) :
    lo ≤ start ∧ finish ≤ L.plusDay Z hi := by
  constructor
  · by_contra hbefore
    exact h.first start finish (by omega) (by omega) hday
  · by_contra hafter
    exact h.last start finish (by omega) (by omega) hday

/-- In every reachable state an offered slot is free, when the query looks at whole dates and the bookings that were
placed in another timezone are on one date of the present one. -/
theorem offered_slots_free (hw : w.Fresh) (hu : w.db.Usable)
    (h : (calendarSystem P Statement.Usable).Run .any (.start w) c)
    (hq : query.Resolved P c.world.db eventType settings lo hi) (hZ : P.luxon.zone settings.businessTimezone = Z)
    (hdates : P.luxon.WholeDates Z eventType.durationMinutes lo hi)
    (hkept : c.KeepsDates Z eventType.coachId settings.businessTimezone)
    (hslots : computeSlots P fuel c.world.db c.world.clock query = some (.ok slots)) (hslot : slot ∈ slots)
    (hstart : P.luxon.ReadsBack slot.startAt) (hend : P.luxon.ReadsBack slot.endAt) :
    ∀ b ∈ c.world.db.bookings, query.excludeBookingId ≠ some b.id → ¬ slot.TakenBy P.luxon b := by
  obtain ⟨rangesByDate, days, hr, hdays, rfl⟩ := computeSlots_eq_grid hq hZ hslots
  obtain ⟨_, hs, rfl⟩ := List.mem_map.mp hslot
  obtain ⟨hs, hfree⟩ := List.mem_filter.mp hs
  obtain ⟨p, hp, rfl⟩ := List.mem_map.mp hs
  have hpoint := (offeredPoint_iff hdays).mpr ⟨hp, hfree⟩
  obtain ⟨n, hn, hwalk⟩ := hpoint.day
  obtain ⟨range, hrange, hm⟩ := hpoint.minute
  have hadm := entry_admitted (run_usable (fun _ hs => hs) hu h).admitted hr _ range hrange
  have hm := mem_stepsTo_le hm
  unfold MinuteRange.Admitted at hadm
  obtain ⟨hlo, hhi⟩ := hdates.within n hwalk p.2 (by omega) (by omega)
  rw [← hn] at hlo hhi
  rintro b hb hother ⟨hco, hstatus, startAt, endAt, hs₁, hs₂, hlt, hgt⟩
  cases hs₁.symm.trans (hstart _ rfl)
  cases hs₂.symm.trans (hend _ rfl)
  -- the date of the booking is that of the timezone by which it was placed
  have hday : Z.date b.startAt = Z.date b.endAt := by
    obtain ⟨placed, hpl, -, hday⟩ := run_placed hw h b hb
    by_cases hzone : placed.businessTimezone = settings.businessTimezone
    · rwa [hzone, hZ] at hday
    · exact hkept b hb hco hstatus placed hpl hzone
  have hin := hdates.holds hday hlo hhi hlt hgt
  have hsee : query.sees eventType.coachId lo (P.luxon.plusDay Z hi) b = true := by
    have hco : b.coachId = eventType.coachId := hco
    have hid : ∀ id, query.excludeBookingId = some id → b.id ≠ id := fun id hid he => hother (he ▸ hid)
    simpa [QuerySlotsDto.sees, hco, hstatus, hin, Option.all_eq_true] using hid
  simp only [isOffered, Bool.and_eq_true, Bool.not_eq_true', List.any_eq_false] at hfree
  refine hfree.2 b (Table.mem_findMany.mpr ⟨hb, hsee⟩) ?_
  simp [hlt, hgt]

/-! ### A booking in Budapest -/

theorem wholeDates_const (hL : L.resolve = fixOffset) {k d : Int} {durationMinutes : Int} (hd : 0 ≤ durationMinutes) :
    L.WholeDates ⟨fun _ => k⟩ durationMinutes (dayStart k d) (dayStart k d) := by
  have hplus : ∀ t, L.plusDay ⟨fun _ => k⟩ t = t + msPerDay := by
    intro t
    rw [Luxon.plusDay, hL, fixOffset_const]
    simp only [Zone.wall]
    omega
  have hparts : ∀ e, Zone.PartsDates ⟨fun _ => k⟩ (dayStart k e) := by
    intro e s t hs ht
    simp only [Zone.date, Zone.wall, dayStart, midnight, msPerDay] at *
    omega
  refine ⟨hparts d, ?_, fun n hn m hm₀ hm₁ => ?_⟩
  · have hnext : L.plusDay ⟨fun _ => k⟩ (dayStart k d) = dayStart k (d + 1) := by
      rw [hplus]
      simp only [dayStart, midnight, msPerDay]
      omega
    rw [hnext]
    exact hparts _
  · have hzero : n = 0 := by
      by_contra hne
      have hnext := hn 1 (by omega)
      rw [Function.iterate_one, hplus] at hnext
      simp only [msPerDay] at hnext
      omega
    subst hzero
    have hdate : Zone.date ⟨fun _ => k⟩ (dayStart k d) = d := by
      simp only [Zone.date, Zone.wall, dayStart, midnight, msPerDay]
      omega
    simp only [Function.iterate_zero, id_eq, slotAt, hplus, Luxon.setMinute, hL, fixOffset_const, hdate]
    simp only [dayStart, midnight, msPerDay, msPerMinute]
    omega

/-- Budapest, and the Marquesas Islands, nine and a half hours behind UTC. -/
def Platform.twoZones : Platform where
  luxon := { Platform.sample.luxon with
    zone := fun name => if name = "Pacific/Marquesas" then ⟨fun _ => -570⟩ else ⟨fun _ => 60⟩
    fromISO := fun Z s =>
      if s = "2026-03-09" then some (dayStart (Z.offset 0) 20521)
      else [("2026-03-09T09:00:00.000Z", 1773046800000), ("2026-03-09T09:30:00.000Z", 1773048600000),
        ("2026-03-09T10:30:00.000Z", 1773052200000)].lookup s
    toISO := fun t =>
      if t = 1773046800000 then "2026-03-09T09:00:00.000Z" else if t = 1773048600000 then "2026-03-09T09:30:00.000Z"
      else if t = 1773052200000 then "2026-03-09T10:30:00.000Z" else "" }
  decrypt := some

theorem Platform.twoZones_readsBack : Platform.twoZones.luxon.ReadsBack "2026-03-09T09:30:00.000Z" ∧
    Platform.twoZones.luxon.ReadsBack "2026-03-09T10:30:00.000Z" := by
  constructor <;> intro t ht
  all_goals
    change (if _ then _ else if _ then _ else if _ then _ else _) = _ at ht
    split_ifs at ht with h₁ h₂ h₃
  · exact absurd ht (by decide)
  · rw [h₂]; rfl
  · exact absurd ht (by decide)
  · exact absurd ht (by decide)
  · exact absurd ht (by decide)
  · exact absurd ht (by decide)
  · rw [h₃]; rfl
  · exact absurd ht (by decide)

/-- The sample coach, bookable until noon. -/
def World.untilNoon : World :=
  { World.sample with db := .withWeekly ⟨[⟨"w1", "c1", 1, 0, 720⟩], by decide⟩ }

theorem World.untilNoon_usable : World.untilNoon.db.Usable where
  weekly r hr := by
    cases List.mem_singleton.mp hr
    exact ⟨by decide, by decide, by decide, by decide⟩
  override _ ho := absurd ho Table.not_mem_empty

theorem World.untilNoon_fresh : World.untilNoon.Fresh := ⟨rfl, rfl, rfl⟩

/-- Call `0` books the sample. -/
def bookMonday : List (Move Choice Call (Change Statement.Usable)) :=
  [.spawn (.create .sample none)] ++ List.replicate 8 (.fire 0 { newId := "b1", newToken := "t1" })

/-- The sample event type, and the default settings with a timezone. -/
def isSampleOf (timezone : String) (c : BookingConfig) : Bool :=
  c.world.db.eventTypes.find "e1" = some .sample &&
    c.world.db.settingsOf "c1" = some { coachId := "c1", businessTimezone := timezone }

/-- A confirmed booking of the sample coach overlaps the interval. -/
def hasBookingIn (startAt endAt : Int) (c : BookingConfig) : Bool :=
  c.world.db.bookings.rows.any fun b =>
    b.coachId = "c1" && b.status = .confirmed && b.startAt < endAt && startAt < b.endAt

theorem resolved_of_isSample {P : Platform} {c : BookingConfig} {timezone : String} {lo : Int}
    (h : isSampleOf timezone c = true) (hlo : (P.luxon.fromISO (P.luxon.zone timezone) "2026-03-09").map
      (P.luxon.startOfDay (P.luxon.zone timezone)) = some lo) :
    QuerySlotsDto.sample.Resolved P c.world.db .sample { coachId := "c1", businessTimezone := timezone } lo lo := by
  simp only [isSampleOf, Bool.and_eq_true, decide_eq_true_eq] at h
  exact ⟨h.1, h.2, hlo, hlo⟩

/-- The booking from 10:00 to 11:00 is not in the way of the slot from 11:00 to 12:00, and no other one is. -/
theorem offered_slots_free_monday : ∃ c slots, (calendarSystem .sample Statement.Usable).Run .any (.start .untilNoon) c ∧
    computeSlots .sample 40 c.world.db c.world.clock .sample = some (.ok slots) ∧
    ⟨"c1", "2026-03-09T10:00:00.000Z", "2026-03-09T11:00:00.000Z"⟩ ∈ slots ∧
    hasBookingIn 1773046800000 1773050400000 c = true ∧ ∀ b ∈ c.world.db.bookings,
      ¬ (⟨"c1", "2026-03-09T10:00:00.000Z", "2026-03-09T11:00:00.000Z"⟩ : Slot).TakenBy Platform.sample.luxon b := by
  obtain ⟨c, h, hp⟩ := run_of_play (S := calendarSystem .sample Statement.Usable) (G := .any) (c := .start .untilNoon)
    bookMonday (fun c => isSampleOf "Europe/Budapest" c && hasBookingIn 1773046800000 1773050400000 c &&
      (c.world.db.bookings.rows.all fun b => (BookingConfig.placement c b.id).all (·.businessTimezone = "Europe/Budapest")) &&
      offers ⟨"c1", "2026-03-09T10:00:00.000Z", "2026-03-09T11:00:00.000Z"⟩
        (computeSlots .sample 40 c.world.db c.world.clock .sample)) (by decide +kernel)
  simp only [Bool.and_eq_true, List.all_eq_true] at hp
  obtain ⟨⟨⟨hsample, hin⟩, hplaced⟩, hoffers⟩ := hp
  obtain ⟨slots, hslots, hslot⟩ := of_offers _ hoffers
  refine ⟨c, slots, h, hslots, hslot, hin, fun b hb => ?_⟩
  have hq := @resolved_of_isSample .sample c "Europe/Budapest" (dayStart 60 20521) hsample (by decide)
  refine offered_slots_free World.untilNoon_fresh World.untilNoon_usable h hq rfl (wholeDates_const rfl (by decide))
    (fun b hb _ _ settings hs hne => ?_) hslots hslot
    (Luxon.sample_readsBack (by decide) (by decide)) (Luxon.sample_readsBack (by decide) (by decide)) b hb nofun
  have := hplaced b hb
  rw [hs] at this
  exact absurd (of_decide_eq_true this) hne

/-- The coach moves to the Marquesas Islands, where the booking is from 23:30 to 00:30. The slot from 00:00 to 01:00 is
offered. -/
theorem offered_slot_taken : ¬ ∀ (P : Platform) (w : World) (c : BookingConfig) (fuel : Nat) (query : QuerySlotsDto)
    (eventType : EventType) (settings : Settings) (lo hi : Int) (slots : List Slot) (slot : Slot),
    w.Fresh → w.db.Usable → (calendarSystem P Statement.Usable).Run .any (.start w) c →
    query.Resolved P c.world.db eventType settings lo hi →
    P.luxon.WholeDates (P.luxon.zone settings.businessTimezone) eventType.durationMinutes lo hi →
    computeSlots P fuel c.world.db c.world.clock query = some (.ok slots) → slot ∈ slots →
    P.luxon.ReadsBack slot.startAt → P.luxon.ReadsBack slot.endAt →
    ∀ b ∈ c.world.db.bookings, query.excludeBookingId ≠ some b.id → ¬ slot.TakenBy P.luxon b := by
  intro hall
  obtain ⟨c, h, hp⟩ := run_of_play (S := calendarSystem .twoZones Statement.Usable) (G := .any) (c := .start .untilNoon)
    (bookMonday ++ [.drift (.edit {
      statement := .settingsUpdate "c1" { businessTimezone := some (some "Pacific/Marquesas") }, admitted := trivial })])
    (fun c => isSampleOf "Pacific/Marquesas" c && hasBookingIn 1773048600000 1773052200000 c &&
      offers ⟨"c1", "2026-03-09T09:30:00.000Z", "2026-03-09T10:30:00.000Z"⟩
        (computeSlots .twoZones 40 c.world.db c.world.clock .sample)) (by decide +kernel)
  simp only [Bool.and_eq_true, hasBookingIn, List.any_eq_true, decide_eq_true_eq] at hp
  obtain ⟨⟨hsample, b, hb, ⟨⟨hco, hs⟩, hlt⟩, hgt⟩, hoffers⟩ := hp
  obtain ⟨slots, hslots, hslot⟩ := of_offers _ hoffers
  have hzone : Platform.twoZones.luxon.zone "Pacific/Marquesas" = ⟨fun _ => -570⟩ := by simp [Platform.twoZones]
  have hq := @resolved_of_isSample .twoZones c "Pacific/Marquesas" (dayStart (-570) 20521) hsample (by rw [hzone]; rfl)
  have hdates : Platform.twoZones.luxon.WholeDates (Platform.twoZones.luxon.zone "Pacific/Marquesas") 60
      (dayStart (-570) 20521) (dayStart (-570) 20521) := by
    rw [hzone]
    exact wholeDates_const rfl (by decide)
  exact hall _ _ c _ _ _ _ _ _ _ _ World.untilNoon_fresh World.untilNoon_usable h hq hdates hslots hslot
    Platform.twoZones_readsBack.1 Platform.twoZones_readsBack.2 b hb nofun ⟨hco, hs, _, _, rfl, rfl, hlt, hgt⟩

end CoachingCalendar
