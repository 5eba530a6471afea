import CoachingCalendar.Availability.Walk
import CoachingCalendar.Slots.Grid

/-! # The slots of ordinary days -/

namespace CoachingCalendar
open Lib

/-- What luxon documents about a day later, and about the days between two times when the clocks stay as they are. -/
structure Luxon.AddsDays (L : Luxon) (Z : Zone) : Prop where
  later : ∀ t, t < L.plusDay Z t
  between : ∀ (t : Int) (n : Nat), (∀ u, t ≤ u → u ≤ t + n * msPerDay → Z.offset u = Z.offset t) →
    L.diffDays Z t (t + n * msPerDay) = n

/-- A query for the slots of an active event type on the dates from `fromDate` to `toDate`. -/
structure QuerySlotsDto.Asks (P : Platform) (db : Db) (query : QuerySlotsDto) (eventType : EventType)
    (settings : Settings) (fromDate toDate : Int) : Prop where
  type : db.eventTypes.find query.eventTypeId = some eventType
  active : eventType.isActive = true
  config : db.settingsOf eventType.coachId = some settings
  first : (P.luxon.fromISO (P.luxon.zone settings.businessTimezone) query.fromDate).map
    (P.luxon.zone settings.businessTimezone).date = some fromDate
  last : (P.luxon.fromISO (P.luxon.zone settings.businessTimezone) query.toDate).map
    (P.luxon.zone settings.businessTimezone).date = some toDate

/-- The bookings that take up time of the slots. -/
def QuerySlotsDto.blocking (query : QuerySlotsDto) (db : Db) (coachId : String) : List Booking :=
  db.bookings.findMany fun b =>
    b.coachId = coachId && b.status = .confirmed && query.excludeBookingId.all fun id => b.id ≠ id

/-- The slot that starts at the minute `m` of a date. -/
def slotOn (k durationMinutes d m : Int) : Int × Int :=
  (dayStart k d + m * msPerMinute, dayStart k d + (m + durationMinutes) * msPerMinute)

/-- The slots of the steps of the effective ranges of a date. -/
def dateGrid (P : Platform) (Z : Zone) (db : Db) (eventType : EventType) (k d : Int) : List (Int × Int) :=
  (effectiveRanges P Z db eventType.coachId d).flatMap fun range =>
    (stepsTo eventType.durationMinutes range.startMinute range.endMinute).map (slotOn k eventType.durationMinutes d)

/-- The slots to be returned are those that are not before the cutoff and that no booking overlaps. -/
def dueSlots (P : Platform) (Z : Zone) (db : Db) (now : Int) (query : QuerySlotsDto) (eventType : EventType)
    (settings : Settings) (k fromDate toDate : Int) : List (Int × Int) :=
  ((datesFrom fromDate toDate).flatMap (dateGrid P Z db eventType k)).filter
    (isOffered (settings.cutoff now) (query.blocking db eventType.coachId))

/-- The slots that are due are returned, and no others, date by date. -/
def SlotsExact (P : Platform) (Z : Zone) (db : Db) (now : Int) (query : QuerySlotsDto) (eventType : EventType)
    (settings : Settings) (k fromDate toDate : Int) : Prop :=
  ∃ n, ∀ fuel, n < fuel → ∃ times : List (Int × Int),
    computeSlots P fuel db now query = some (.ok (times.map (Slot.ofTimes P.luxon eventType.coachId))) ∧
    times.Perm (dueSlots P Z db now query eventType settings k fromDate toDate) ∧
    times.Pairwise fun s t => Z.date s.1 ≤ Z.date t.1

/-- Each confirmed booking of the coach lies on one date. -/
def Db.OnOneDate (db : Db) (Z : Zone) (coachId : String) : Prop :=
  ∀ b ∈ db.bookings, b.coachId = coachId → b.status = .confirmed →
    ∃ d, ∀ t, b.startAt ≤ t → t < b.endAt → Z.date t = d

variable {P : Platform} {L : Luxon} {Z : Zone} {db : Db} {query : QuerySlotsDto} {eventType : EventType}
variable {settings : Settings} {fuel : Nat} {now k fromDate toDate d m : Int}

/-! ## Times of ordinary days -/

namespace Luxon.KeepsClocks

variable (hL : L.KeepsClocks Z) (hc : Z.ConstantOver k fromDate toDate)
include hL hc

theorem startOfDay_eq {t : Int} (h₀ : fromDate ≤ Z.date t) (h₁ : Z.date t ≤ toDate) :
    L.startOfDay Z t = dayStart k (Z.date t) := by
  have hread := hc.wall_eq (W := midnight (Z.date t)) (by simp only [midnight, msPerDay]; omega)
    (by simp only [midnight, msPerDay]; omega)
  exact hc.eq_of_wall (by simp only [midnight, msPerDay]; omega) (by simp only [midnight, msPerDay]; omega)
    ((hL.wall_startOfDay t).eq_of_shows ⟨_, hread⟩)

end Luxon.KeepsClocks

section Walk

variable (hL : L.KeepsClocks Z) (hc : Z.ConstantOver k fromDate toDate)
include hL hc

theorem setMinute_dayStart (h₀ : fromDate ≤ d) (h₁ : d ≤ toDate) (hm₀ : 0 ≤ m) (hm₁ : m < 1440) :
    L.setMinute Z (dayStart k d) m = dayStart k d + m * msPerMinute := by
  have hmoves := hL.wall_setMinute (dayStart k d) hm₀ hm₁
  rw [hc.date_dayStart h₀ h₁] at hmoves
  have hfrom : midnight fromDate ≤ midnight d + m * msPerMinute := by
    simp only [midnight, msPerDay, msPerMinute]
    omega
  have hto : midnight d + m * msPerMinute < midnight (toDate + 1) := by
    simp only [midnight, msPerDay, msPerMinute]
    omega
  rw [hc.eq_of_wall hfrom hto (hmoves.eq_of_shows ⟨_, hc.wall_eq hfrom hto⟩), dayStart]
  omega

theorem plusDay_dayStart (h₀ : fromDate ≤ d) (h₁ : d < toDate) :
    L.plusDay Z (dayStart k d) = dayStart k (d + 1) := by
  have hmoves := hL.wall_plusDay (dayStart k d)
  have hnext : midnight d + msPerDay = midnight (d + 1) := by
    simp only [midnight, msPerDay]
    omega
  rw [hc.wall_dayStart h₀ (by omega), hnext] at hmoves
  exact hc.eq_of_wall (by simp only [midnight, msPerDay]; omega) (by simp only [midnight, msPerDay]; omega)
    (hmoves.eq_of_shows ⟨_, hc.wall_dayStart (by omega) (by omega)⟩)

theorem iterate_dayStart {j : Nat} (hj : fromDate + j ≤ toDate) :
    (L.plusDay Z)^[j] (dayStart k fromDate) = dayStart k (fromDate + j) := by
  induction j with
  | zero => simp
  | succ j ih =>
      push_cast at hj ⊢
      rw [Function.iterate_succ_apply', ih (by omega), plusDay_dayStart hL hc (by omega) (by omega), Int.add_assoc]

variable (hA : L.AddsDays Z) (hle : fromDate ≤ toDate)
include hA hle

theorem le_plusDay : dayStart k (toDate + 1) ≤ L.plusDay Z (dayStart k toDate) := by
  by_contra hlt
  have hwall := (hL.wall_plusDay (dayStart k toDate)).le
  have hlater := hA.later (dayStart k toDate)
  have hdate := hc.date_between (t := L.plusDay Z (dayStart k toDate))
    (by simp only [dayStart, midnight, msPerDay] at *; omega) (by omega)
  rw [hc.wall_dayStart hle (Int.le_refl _)] at hwall
  simp only [Zone.date, midnight, msPerDay] at hdate hwall
  omega

/-- The loop over the days of the query has its body run at 00:00 of each date. -/
theorem slotDays_eq (hf : (toDate + 1 - fromDate).toNat < fuel) :
    slotDays L Z fuel (dayStart k fromDate) (dayStart k toDate) = some ((datesFrom fromDate toDate).map (dayStart k)) := by
  refine visited_eq_some_iff.mpr ⟨_, hf, ?_, fun j hj => ?_, ?_⟩
  · rw [datesFrom, List.map_map]
    refine List.map_congr_left fun j hj => (iterate_dayStart hL hc ?_).symm
    have := List.mem_range.mp hj
    omega
  · rw [iterate_dayStart hL hc (by omega), decide_eq_true_eq]
    simp only [dayStart, midnight, msPerDay]
    omega
  · obtain ⟨N, hN⟩ : ∃ N : Nat, (toDate + 1 - fromDate).toNat = N + 1 := ⟨(toDate - fromDate).toNat, by omega⟩
    have hend : fromDate + N = toDate := by omega
    rw [hN, Function.iterate_succ_apply', iterate_dayStart hL hc (by omega), hend, decide_eq_false_iff_not]
    exact Int.not_le.mpr (hA.later _)

theorem isOffered_existing {cutoff : Int} {coachId : String} {s : Int × Int} (hone : db.OnOneDate Z coachId)
    (h₀ : dayStart k fromDate ≤ s.1) (h : s.1 < s.2) (h₁ : s.2 ≤ dayStart k (toDate + 1)) :
    isOffered cutoff (query.existing L Z db coachId (dayStart k fromDate) (dayStart k toDate)) s =
      isOffered cutoff (query.blocking db coachId) s := by
  have hplus := le_plusDay hL hc hA hle
  unfold isOffered
  refine congrArg (fun b => !decide (s.1 < cutoff) && !b) (Bool.eq_iff_iff.mpr ?_)
  simp only [List.any_eq_true, QuerySlotsDto.existing, QuerySlotsDto.blocking, QuerySlotsDto.sees, Table.mem_findMany,
    Bool.and_eq_true, decide_eq_true_eq]
  constructor
  · rintro ⟨b, ⟨hb, ⟨⟨hwho, -⟩, -⟩⟩, hs⟩
    exact ⟨b, ⟨hb, hwho⟩, hs⟩
  · rintro ⟨b, ⟨hb, ⟨hcoach, hstatus⟩, hother⟩, hstart, hend⟩
    obtain ⟨D, hD⟩ := hone b hb hcoach hstatus
    refine ⟨b, ⟨hb, ⟨⟨⟨hcoach, hstatus⟩, hother⟩, ?_⟩, ?_⟩, hstart, hend⟩
    · -- the instant before the first date is on another one
      by_contra hlt
      have hsame : Z.date (dayStart k fromDate - 1) = fromDate := by
        rw [hD _ (by omega) (by omega), ← hD (dayStart k fromDate) (by omega) (by omega),
          hc.date_dayStart (Int.le_refl _) hle]
      have hoff := hc.only _ (Int.le_of_eq hsame.symm) (by omega)
      simp only [Zone.date, Zone.wall, hoff] at hsame
      simp only [dayStart, midnight, msPerDay] at hsame
      omega
    · -- so is a day later than the start of the last date
      by_contra hlt
      have hdate := hc.date_between (t := max b.startAt s.1) (by omega) (by omega)
      rw [hD _ (by omega) (by omega), ← hD (L.plusDay Z (dayStart k toDate)) (by omega) (by omega)] at hdate
      have hwall := (hL.wall_plusDay (dayStart k toDate)).le
      rw [hc.wall_dayStart hle (Int.le_refl _)] at hwall
      simp only [Zone.date, midnight, msPerDay] at hdate hwall
      omega

end Walk

/-! ## The grid of ordinary days -/

theorem mem_dateGrid {s : Int × Int} (hr : ∀ r ∈ effectiveRanges P Z db eventType.coachId d, r.Admitted)
    (h : s ∈ dateGrid P Z db eventType k d) : 0 < eventType.durationMinutes ∧
      ∃ m, 0 ≤ m ∧ m + eventType.durationMinutes ≤ 1440 ∧ s = slotOn k eventType.durationMinutes d m := by
  obtain ⟨range, hrange, h⟩ := List.mem_flatMap.mp h
  obtain ⟨m, hm, rfl⟩ := List.mem_map.mp h
  obtain ⟨hstart, -, hend⟩ := hr range hrange
  have hle := mem_stepsTo_le hm
  exact ⟨(mem_stepsTo.mp hm).1, m, by omega, by omega, rfl⟩

section Grid

variable (hc : Z.ConstantOver k fromDate toDate)
variable (hr : ∀ d, fromDate ≤ d → d ≤ toDate → ∀ r ∈ effectiveRanges P Z db eventType.coachId d, r.Admitted)
include hc hr

theorem date_of_mem {s : Int × Int} (hd : d ∈ datesFrom fromDate toDate) (h : s ∈ dateGrid P Z db eventType k d) :
    Z.date s.1 = d := by
  obtain ⟨hfrom, hto⟩ := mem_datesFrom.mp hd
  obtain ⟨hpos, m, hm₀, hm₁, rfl⟩ := mem_dateGrid (hr d hfrom hto) h
  exact hc.date_slotOn hfrom hto hm₀ (by omega)

theorem dueSlots_pairwise : (dueSlots P Z db now query eventType settings k fromDate toDate).Pairwise
    fun s t => Z.date s.1 ≤ Z.date t.1 := by
  refine List.Pairwise.filter _ (List.pairwise_flatMap.mpr ⟨fun d hd => ?_, ?_⟩)
  · refine List.pairwise_of_forall_mem_list fun s hs t ht => ?_
    rw [date_of_mem hc hr hd hs, date_of_mem hc hr hd ht]
  · refine (pairwise_datesFrom fromDate toDate).imp_of_mem fun {d e} hd he hlt s hs t ht => ?_
    rw [date_of_mem hc hr hd hs, date_of_mem hc hr he ht]
    exact Int.le_of_lt hlt

theorem gridSlots_eq_dueSlots {rangesOf : Int → List MinuteRange} (hL : P.luxon.KeepsClocks Z) (hA : P.luxon.AddsDays Z)
    (hle : fromDate ≤ toDate) (hone : db.OnOneDate Z eventType.coachId)
    (hranges : ∀ d, fromDate ≤ d → d ≤ toDate → rangesOf d = effectiveRanges P Z db eventType.coachId d) :
    gridSlots P.luxon Z eventType.durationMinutes (settings.cutoff now)
      (query.existing P.luxon Z db eventType.coachId (dayStart k fromDate) (dayStart k toDate)) rangesOf
        ((datesFrom fromDate toDate).map (dayStart k)) =
      dueSlots P Z db now query eventType settings k fromDate toDate := by
  have hpoints : (gridPoints Z eventType.durationMinutes rangesOf ((datesFrom fromDate toDate).map (dayStart k))).map
      (fun p => slotAt P.luxon Z eventType.durationMinutes p.1 p.2) =
        (datesFrom fromDate toDate).flatMap (dateGrid P Z db eventType k) := by
    rw [gridPoints, List.flatMap_map, List.map_flatMap]
    refine List.flatMap_congr fun d hd => ?_
    obtain ⟨hfrom, hto⟩ := mem_datesFrom.mp hd
    rw [hc.date_dayStart hfrom hto, hranges d hfrom hto, dateGrid, List.map_flatMap]
    refine List.flatMap_congr fun range hrange => ?_
    rw [List.map_map]
    refine List.map_congr_left fun m hm => ?_
    obtain ⟨hstart, -, hend⟩ := hr d hfrom hto range hrange
    have hpos := (mem_stepsTo.mp hm).1
    have hm := mem_stepsTo_le hm
    have hset := setMinute_dayStart hL hc (m := m) hfrom hto (by omega) (by omega)
    simp only [Function.comp_apply, slotAt, slotOn, hset, Int.add_mul, Int.add_assoc]
  rw [gridSlots, hpoints]
  refine List.filter_congr fun s hs => ?_
  obtain ⟨d, hd, hs⟩ := List.mem_flatMap.mp hs
  obtain ⟨hfrom, hto⟩ := mem_datesFrom.mp hd
  obtain ⟨hpos, m, hm₀, hm₁, rfl⟩ := mem_dateGrid (hr d hfrom hto) hs
  refine isOffered_existing hL hc hA hle hone ?_ ?_ ?_
  all_goals simp only [slotOn, dayStart, midnight, msPerDay, msPerMinute]; omega

end Grid

theorem QuerySlotsDto.Asks.resolved (hq : query.Asks P db eventType settings fromDate toDate)
    (hZ : P.luxon.zone settings.businessTimezone = Z) (hL : P.luxon.KeepsClocks Z)
    (hc : Z.ConstantOver k fromDate toDate) (hle : fromDate ≤ toDate) :
    query.Resolved P db eventType settings (dayStart k fromDate) (dayStart k toDate) := by
  subst hZ
  have read : ∀ {s : String} {d : Int}, fromDate ≤ d → d ≤ toDate →
      (P.luxon.fromISO (P.luxon.zone settings.businessTimezone) s).map
        (P.luxon.zone settings.businessTimezone).date = some d →
      (P.luxon.fromISO (P.luxon.zone settings.businessTimezone) s).map
        (P.luxon.startOfDay (P.luxon.zone settings.businessTimezone)) = some (dayStart k d) := by
    intro s d hfrom hto h
    obtain ⟨t, ht, rfl⟩ := Option.map_eq_some_iff.mp h
    rw [ht, Option.map_some, hL.startOfDay_eq hc hfrom hto]
  exact ⟨hq.type, hq.config, read (Int.le_refl _) hle hq.first, read hle (Int.le_refl _) hq.last⟩

theorem diffDays_le (hA : P.luxon.AddsDays Z) (hc : Z.ConstantOver k fromDate toDate) (hle : fromDate ≤ toDate)
    (h90 : toDate - fromDate ≤ 90) : P.luxon.diffDays Z (dayStart k fromDate) (dayStart k toDate) ≤ MAX_RANGE_DAYS := by
  have hend : dayStart k toDate = dayStart k fromDate + (toDate - fromDate).toNat * msPerDay := by
    simp only [dayStart, midnight, msPerDay]
    omega
  have hoff : ∀ u, dayStart k fromDate ≤ u → u ≤ dayStart k toDate → Z.offset u = k := fun u h₀ h₁ =>
    hc.shown u (by simp only [dayStart, midnight, msPerDay] at *; omega)
      (by simp only [dayStart, midnight, msPerDay] at *; omega)
  have hdiff := hA.between (dayStart k fromDate) (toDate - fromDate).toNat fun u h₀ h₁ => by
    rw [hoff u h₀ (hend ▸ h₁), hoff (dayStart k fromDate) (Int.le_refl _) (by omega)]
  rw [hend, hdiff]
  unfold MAX_RANGE_DAYS
  omega

theorem SlotsExact.later_date (h : SlotsExact P Z db now query eventType settings k fromDate toDate)
    (hq : query.Asks P db eventType settings fromDate toDate) (hZ : P.luxon.zone settings.businessTimezone = Z)
    (hL : P.luxon.KeepsClocks Z) (hW : P.luxon.WalksDates Z) (hP : P.luxon.PrintsDates)
    (hc : Z.ConstantOver k fromDate toDate) (hle : fromDate ≤ toDate) (hfirst : CalendarDate.start.days ≤ fromDate)
    (hlast : toDate ≤ CalendarDate.last.days) : ∃ d, toDate < d ∧ d ≤ CalendarDate.last.days ∧ Z.Has d := by
  by_contra hnone
  push Not at hnone
  obtain ⟨n, hn⟩ := h
  obtain ⟨times, htimes, -⟩ := hn (n + 1) n.lt_succ_self
  obtain ⟨rangesByDate, days, hr, -⟩ := computeSlots_eq_grid (hq.resolved hZ hL hc hle) hZ htimes
  rw [hc.date_dayStart (Int.le_refl _) hle, hc.date_dayStart hle (Int.le_refl _)] at hr
  obtain ⟨days, hdays, -⟩ := Option.map_eq_some_iff.mp hr
  obtain ⟨c, rfl⟩ := CalendarDate.exists_days hfirst
  obtain ⟨c', rfl⟩ := CalendarDate.exists_days (Int.le_trans hfirst hle)
  cases hdays.symm.trans (lookupDays_endless hW hP (CalendarDate.year_le_iff.mpr hlast) hnone (n + 1))

/-- On ordinary days the returned slots are exactly those that are due, when there is a later date before the year
10000, and only then. -/
theorem slots_exact_iff (hq : query.Asks P db eventType settings fromDate toDate)
    (hZ : P.luxon.zone settings.businessTimezone = Z) (hL : P.luxon.KeepsClocks Z) (hA : P.luxon.AddsDays Z)
    (hW : P.luxon.WalksDates Z) (hP : P.luxon.PrintsDates) (hc : Z.ConstantOver k fromDate toDate)
    (hle : fromDate ≤ toDate) (h90 : toDate - fromDate ≤ 90) (hfirst : CalendarDate.start.days ≤ fromDate)
    (hlast : toDate ≤ CalendarDate.last.days) (hd : 0 < eventType.durationMinutes) (hadm : db.AdmittedSchedule)
    (hone : db.OnOneDate Z eventType.coachId) :
    SlotsExact P Z db now query eventType settings k fromDate toDate ↔
      ∃ d, toDate < d ∧ d ≤ CalendarDate.last.days ∧ Z.Has d := by
  refine ⟨fun h => h.later_date hq hZ hL hW hP hc hle hfirst hlast, fun hafter => ?_⟩
  refine ⟨max (toDate + 1 - fromDate).toNat 1440, fun fuel hf => ?_⟩
  have hhas : ∀ d, fromDate ≤ d → d ≤ toDate → Z.Has d := fun d h₀ h₁ => ⟨_, hc.date_dayStart h₀ h₁⟩
  have hentries : ∃ rangesByDate,
      getEffectiveRangesForDateRange P fuel db eventType.coachId fromDate toDate Z = some rangesByDate ∧
        ∀ d, fromDate ≤ d → d ≤ toDate → rangesByDate d = some (effectiveRanges P Z db eventType.coachId d) := by
    obtain ⟨c, rfl⟩ := CalendarDate.exists_days hfirst
    obtain ⟨c', rfl⟩ := CalendarDate.exists_days (Int.le_trans hfirst hle)
    exact lookup_entries hW hP hle (CalendarDate.year_le_iff.mpr hlast) hhas hafter (by omega)
  obtain ⟨rangesByDate, hr, hranges⟩ := hentries
  have hadmitted : ∀ d, fromDate ≤ d → d ≤ toDate → ∀ r ∈ effectiveRanges P Z db eventType.coachId d, r.Admitted := by
    intro d h₀ h₁ r hmem
    refine entry_admitted hadm hr d r ?_
    rwa [hranges d h₀ h₁]
  refine ⟨_, ?_, .refl _, dueSlots_pairwise hc hadmitted⟩
  rw [← @gridSlots_eq_dueSlots P Z db query eventType settings now k fromDate toDate hc hadmitted
      (fun d => (rangesByDate d).getD []) hL hA hle hone
    fun d h₀ h₁ => by rw [hranges d h₀ h₁, Option.getD_some]]
  refine computeSlots_of_grid (hq.resolved hZ hL hc hle) hZ hq.active ?_ (diffDays_le hA hc hle h90) ?_
    (slotDays_eq hL hc hA hle (by omega)) ?_
  · simp only [dayStart, midnight, msPerDay]
    omega
  · rwa [hc.date_dayStart (Int.le_refl _) hle, hc.date_dayStart hle (Int.le_refl _)]
  · intro day hday range hrange
    have hadm := entry_admitted hadm hr _ range hrange
    exact visited_steps_ends hd (by unfold MinuteRange.Admitted at hadm; omega)

/-! ### A Monday, and the end of the year 9999 -/

theorem Platform.calendar_keepsClocks : Platform.calendar.luxon.KeepsClocks ⟨fun _ => 60⟩ where
  moves t W _ _ := by
    have hread : Zone.wall ⟨fun _ => 60⟩ (Platform.calendar.luxon.resolve ⟨fun _ => 60⟩ 60 W) = W := by
      have hresolve : Platform.calendar.luxon.resolve ⟨fun _ => 60⟩ 60 W = fixOffset ⟨fun _ => 60⟩ 60 W := rfl
      rw [hresolve, fixOffset_const]
      exact Int.sub_add_cancel _ _
    rw [hread]
    exact .shown ⟨_, hread⟩
  first t t' h := by
    simp only [Zone.wall] at h
    omega

theorem Platform.calendar_addsDays : Platform.calendar.luxon.AddsDays ⟨fun _ => 60⟩ where
  later t := by
    have hplus : Platform.calendar.luxon.plusDay ⟨fun _ => 60⟩ t =
        fixOffset ⟨fun _ => 60⟩ 60 (Zone.wall ⟨fun _ => 60⟩ t + msPerDay) := rfl
    rw [hplus, fixOffset_const]
    simp only [Zone.wall, msPerDay, msPerMinute]
    omega
  between t n _ := by
    change Zone.date _ _ - Zone.date _ _ = _
    simp only [Zone.date, Zone.wall, msPerDay, msPerMinute]
    omega

theorem Zone.constantOver (k fromDate toDate : Int) : Zone.ConstantOver ⟨fun _ => k⟩ k fromDate toDate :=
  ⟨fun _ _ _ => rfl, fun _ _ _ => rfl⟩

theorem Db.sample_admitted : Db.sample.AdmittedSchedule := by
  have hweekly : ∀ r ∈ Db.sample.weeklyAvailabilities.rows, r.range.Admitted := by decide
  exact ⟨hweekly, fun _ ho => absurd ho Table.not_mem_empty⟩

theorem Db.sample_onOneDate : Db.sample.OnOneDate Z "c1" := fun _ hb => absurd hb Table.not_mem_empty

/-- The eight hours of a Monday. -/
theorem slots_exact_iff_monday :
    SlotsExact .calendar ⟨fun _ => 60⟩ .sample 0 .sample .sample { coachId := "c1" } 60 20521 20521 ∧
      (dueSlots .calendar ⟨fun _ => 60⟩ .sample 0 .sample .sample { coachId := "c1" } 60 20521 20521).length = 8 :=
  ⟨(slots_exact_iff ⟨rfl, rfl, rfl, by decide, by decide⟩ rfl Platform.calendar_keepsClocks Platform.calendar_addsDays
    Platform.calendar_walksDates Platform.calendar_printsDates (Zone.constantOver _ _ _) (Int.le_refl _) (by decide)
    (by decide) (by decide) (by decide) Db.sample_admitted Db.sample_onOneDate).mpr
      ⟨20522, by decide, by decide, Platform.calendar_has _⟩, by decide⟩

/-- No slots are returned for 9999-12-31. -/
theorem not_slots_exact : ¬ ∀ (P : Platform) (Z : Zone) (db : Db) (now : Int) (query : QuerySlotsDto)
    (eventType : EventType) (settings : Settings) (k fromDate toDate : Int),
    query.Asks P db eventType settings fromDate toDate → P.luxon.zone settings.businessTimezone = Z →
    P.luxon.KeepsClocks Z → P.luxon.AddsDays Z → P.luxon.WalksDates Z → P.luxon.PrintsDates →
    Z.ConstantOver k fromDate toDate → fromDate ≤ toDate → toDate - fromDate ≤ 90 →
    CalendarDate.start.days ≤ fromDate → toDate ≤ CalendarDate.last.days → 5 ≤ eventType.durationMinutes →
    db.AdmittedSchedule → db.OnOneDate Z eventType.coachId →
    SlotsExact P Z db now query eventType settings k fromDate toDate := by
  intro hall
  have hasks : QuerySlotsDto.Asks .calendar .sample ⟨"e1", "9999-12-31", "9999-12-31", none⟩ .sample
      { coachId := "c1" } CalendarDate.last.days CalendarDate.last.days := ⟨rfl, rfl, rfl, by decide, by decide⟩
  have h := hall .calendar ⟨fun _ => 60⟩ .sample 0 _ .sample _ 60 _ _ hasks rfl Platform.calendar_keepsClocks
    Platform.calendar_addsDays Platform.calendar_walksDates Platform.calendar_printsDates (Zone.constantOver _ _ _)
    (Int.le_refl _) (by decide) (by decide) (Int.le_refl _) (by decide) Db.sample_admitted Db.sample_onOneDate
  obtain ⟨d, hlt, hle, -⟩ := h.later_date hasks rfl Platform.calendar_keepsClocks Platform.calendar_walksDates
    Platform.calendar_printsDates (Zone.constantOver _ _ _) (Int.le_refl _) (by decide) (Int.le_refl _)
  omega

end CoachingCalendar
