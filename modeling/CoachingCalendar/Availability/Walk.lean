import CoachingCalendar.Availability.Lemmas
import CoachingCalendar.Lib.IsoDate

/-! # The walk over the dates of a lookup -/

namespace CoachingCalendar
open Lib

/-- The times of a walk over days: a date as luxon reads it, and then a day later each time. -/
inductive Luxon.DayTime (L : Luxon) (Z : Zone) : Int → Prop
  | iso (d : Int) : DayTime L Z (L.fromISODate Z d)
  | next {t : Int} : DayTime L Z t → DayTime L Z (L.plusDay Z t)

/-- What luxon documents about dates: a date is read as a time on it, and a day later is on the next date. Where the
clocks skip the date, it is the first one after that. -/
structure Luxon.WalksDates (L : Luxon) (Z : Zone) : Prop where
  iso : ∀ d, Z.FirstDate d (Z.date (L.fromISODate Z d))
  next : ∀ t, L.DayTime Z t → Z.FirstDate (Z.date t + 1) (Z.date (L.plusDay Z t))

/-- `toISODate()` of the years from 0 on. -/
def Luxon.PrintsDates (L : Luxon) : Prop := ∀ c : CalendarDate, L.toISODate c.days = c.iso

def datesFrom (fromDate toDate : Int) : List Int :=
  (List.range (toDate + 1 - fromDate).toNat).map fun j : Nat => fromDate + j

/-- The days for which the loop of `getEffectiveRangesForDateRange` runs its body. -/
def lookupDays (L : Luxon) (Z : Zone) (fuel : Nat) (fromIsoDate toIsoDate : Int) : Option (List Int) :=
  visited (fun day => L.toISODate (Z.date day) ≤ L.toISODate toIsoDate) (L.plusDay Z) fuel (L.fromISODate Z fromIsoDate)

variable {P : Platform} {L : Luxon} {Z : Zone} {fromDate toDate : CalendarDate}

/-- The time of the walk after `j` steps. -/
def walkTime (L : Luxon) (Z : Zone) (fromIsoDate : Int) (j : Nat) : Int := (L.plusDay Z)^[j] (L.fromISODate Z fromIsoDate)

theorem lookupDays_eq_some_iff {fuel : Nat} {a b : Int} {days : List Int} : lookupDays L Z fuel a b = some days ↔
    ∃ n < fuel, days = (List.range n).map (walkTime L Z a) ∧
      (∀ j < n, L.toISODate (Z.date (walkTime L Z a j)) ≤ L.toISODate b) ∧
      ¬ L.toISODate (Z.date (walkTime L Z a n)) ≤ L.toISODate b := by
  unfold lookupDays
  rw [visited_eq_some_iff]
  simp only [decide_eq_true_eq, decide_eq_false_iff_not]
  exact Iff.rfl

theorem mem_datesFrom {d a b : Int} : d ∈ datesFrom a b ↔ a ≤ d ∧ d ≤ b := by
  simp only [datesFrom, List.mem_map, List.mem_range]
  constructor
  · rintro ⟨j, hj, rfl⟩
    omega
  · intro h
    exact ⟨(d - a).toNat, by omega, by omega⟩

theorem pairwise_datesFrom (a b : Int) : (datesFrom a b).Pairwise (· < ·) := by
  rw [datesFrom, List.pairwise_map]
  exact List.pairwise_lt_range.imp fun {i j} hij => by omega

namespace Luxon.WalksDates

theorem dayTime (a : Int) (j : Nat) : L.DayTime Z (walkTime L Z a j) := by
  induction j with
  | zero => exact .iso a
  | succ j ih =>
      unfold walkTime
      rw [Function.iterate_succ_apply']
      exact ih.next

theorem date_succ (hL : L.WalksDates Z) (a : Int) (j : Nat) :
    Z.FirstDate (Z.date (walkTime L Z a j) + 1) (Z.date (walkTime L Z a (j + 1))) := by
  have h := hL.next _ (dayTime a j)
  unfold walkTime at *
  rwa [Function.iterate_succ_apply']

theorem le_date (hL : L.WalksDates Z) (a : Int) (j : Nat) : a ≤ Z.date (walkTime L Z a j) := by
  induction j with
  | zero => exact (hL.iso a).1
  | succ j ih =>
      have := (hL.date_succ a j).1
      omega

theorem date_add (hL : L.WalksDates Z) (a : Int) (i k : Nat) :
    Z.date (walkTime L Z a i) + k ≤ Z.date (walkTime L Z a (i + k)) := by
  induction k with
  | zero => simp
  | succ k ih =>
      have h := (hL.date_succ a (i + k)).1
      rw [← Nat.add_assoc]
      omega

theorem date_visited (hL : L.WalksDates Z) {a d : Int} (h : a ≤ d) (hd : Z.Has d) :
    ∃ j, Z.date (walkTime L Z a j) = d := by
  have hex : ∃ j, d ≤ Z.date (walkTime L Z a j) := by
    refine ⟨(d - a).toNat, ?_⟩
    have h₀ := hL.le_date a 0
    have hadd := hL.date_add a 0 (d - a).toNat
    rw [Nat.zero_add] at hadd
    omega
  refine ⟨Nat.find hex, Int.le_antisymm ?_ (Nat.find_spec hex)⟩
  -- no date of the zone lies between the walk's last date before `d` and its next
  cases hj : Nat.find hex with
  | zero => exact Int.not_lt.mp fun hlt => (hL.iso a).2.2 d h hlt hd
  | succ j =>
      have hbefore := Nat.find_min hex (m := j) (by omega)
      exact Int.not_lt.mp fun hlt => (hL.date_succ a j).2.2 d (by omega) hlt hd

theorem date_eq (hL : L.WalksDates Z) {a b : Int} (hdates : ∀ d, a ≤ d → d ≤ b → Z.Has d) {j : Nat} (hj : a + j ≤ b) :
    Z.date (walkTime L Z a j) = a + j := by
  have first : ∀ {d d' : Int}, Z.FirstDate d d' → Z.Has d → d' = d := fun h hd =>
    Int.le_antisymm (Int.not_lt.mp fun hlt => h.2.2 _ (Int.le_refl _) hlt hd) h.1
  induction j with
  | zero => exact (first (hL.iso a) (hdates a (Int.le_refl _) (by omega))).trans (Int.add_zero a).symm
  | succ j ih =>
      have h := hL.date_succ a j
      rw [ih (by omega)] at h
      rw [first h (hdates _ (by omega) (by omega))]
      push_cast
      omega

end Luxon.WalksDates

/-- The test of the loop on a date from the first on. Later years look like earlier dates. -/
theorem test_iff (hP : L.PrintsDates) (hto : toDate.year ≤ 9999) {d : Int} (hd : fromDate.days ≤ d) :
    L.toISODate d ≤ L.toISODate toDate.days ↔ d ≤ toDate.days ∨ CalendarDate.last.days < d := by
  obtain ⟨c, rfl⟩ := CalendarDate.exists_days (Int.le_trans fromDate.start_days_le hd)
  rw [hP, hP]
  by_cases hc : c.year ≤ 9999
  · rw [CalendarDate.iso_le_iff hc hto]
    have := CalendarDate.year_le_iff.mp hc
    omega
  · refine iff_of_true (CalendarDate.iso_le_of_late (Nat.lt_of_not_le hc) hto) (.inr ?_)
    have := mt CalendarDate.year_le_iff.mpr hc
    omega

section Walk

variable (hL : L.WalksDates Z) (hP : L.PrintsDates) (hle : fromDate.days ≤ toDate.days) (hto : toDate.year ≤ 9999)
include hL hP hto

/-- Without a date between the last and the end of the year 9999 the loop does not end. -/
theorem lookupDays_endless (h : ∀ d, toDate.days < d → d ≤ CalendarDate.last.days → ¬ Z.Has d) (fuel : Nat) :
    lookupDays L Z fuel fromDate.days toDate.days = none := by
  refine Option.eq_none_iff_forall_ne_some.mpr fun days hdays => ?_
  obtain ⟨n, -, -, -, hend⟩ := lookupDays_eq_some_iff.mp hdays
  rw [test_iff hP hto (hL.le_date _ n)] at hend
  exact h (Z.date (walkTime L Z fromDate.days n)) (by omega) (by omega) ⟨_, rfl⟩

include hle

/-- With all dates of the range and a later one, the loop runs for each date of the range and ends. -/
theorem lookupDays_visits (hdates : ∀ d, fromDate.days ≤ d → d ≤ toDate.days → Z.Has d)
    (hafter : ∃ d, toDate.days < d ∧ d ≤ CalendarDate.last.days ∧ Z.Has d) {fuel : Nat}
    (hf : (toDate.days + 1 - fromDate.days).toNat < fuel) :
    lookupDays L Z fuel fromDate.days toDate.days =
      some ((List.range (toDate.days + 1 - fromDate.days).toNat).map (walkTime L Z fromDate.days)) := by
  refine lookupDays_eq_some_iff.mpr ⟨_, hf, rfl, fun j hj => ?_, ?_⟩
  · rw [test_iff hP hto (hL.le_date _ j), hL.date_eq hdates (by omega)]
    omega
  · rw [test_iff hP hto (hL.le_date _ _)]
    obtain ⟨d, hd, hlast, hhas⟩ := hafter
    obtain ⟨N, hN⟩ : ∃ N : Nat, (toDate.days + 1 - fromDate.days).toNat = N + 1 :=
      ⟨(toDate.days - fromDate.days).toNat, by omega⟩
    have hnext := hL.date_succ fromDate.days N
    rw [hL.date_eq hdates (by omega)] at hnext
    rw [hN]
    -- the next date of the zone is not after `d`
    have := Int.not_lt.mp fun hlt => hnext.2.2 d (by omega) hlt hhas
    have := hnext.1
    omega

end Walk

theorem lookupDays_of_lookup {db : Db} {coachId : String} {fuel : Nat} {a b : Int}
    {rangesByDate : Int → Option (List MinuteRange)}
    (h : getEffectiveRangesForDateRange P fuel db coachId a b Z = some rangesByDate) :
    ∃ days, lookupDays P.luxon Z fuel a b = some days := by
  obtain ⟨days, hdays, -⟩ := Option.map_eq_some_iff.mp h
  exact ⟨days, hdays⟩

theorem mem_lookupDays_iff (hL : L.WalksDates Z) (hP : L.PrintsDates) (hto : toDate.year ≤ 9999) {fuel : Nat}
    {days : List Int} (h : lookupDays L Z fuel fromDate.days toDate.days = some days) {d : Int} :
    d ∈ days.map Z.date ↔ fromDate.days ≤ d ∧ d ≤ toDate.days ∧ Z.Has d := by
  obtain ⟨n, -, rfl, hall, hend⟩ := lookupDays_eq_some_iff.mp h
  rw [test_iff hP hto (hL.le_date _ _)] at hend
  simp only [List.map_map, List.mem_map, List.mem_range, Function.comp_apply]
  constructor
  · rintro ⟨j, hj, rfl⟩
    have htest := hall j hj
    rw [test_iff hP hto (hL.le_date _ _)] at htest
    -- the loop has ended before the year 10000
    have hadd := hL.date_add fromDate.days j (n - j)
    rw [Nat.add_sub_cancel' (Nat.le_of_lt hj)] at hadd
    exact ⟨hL.le_date _ j, by omega, _, rfl⟩
  · rintro ⟨hfrom, hd, hhas⟩
    obtain ⟨j, rfl⟩ := hL.date_visited hfrom hhas
    refine ⟨j, Nat.lt_of_not_le fun hn => ?_, rfl⟩
    have hadd := hL.date_add fromDate.days n (j - n)
    rw [Nat.add_sub_cancel' hn] at hadd
    omega

theorem lookupDays_ends (hL : L.WalksDates Z) (hP : L.PrintsDates) (hle : fromDate.days ≤ toDate.days)
    (hto : toDate.year ≤ 9999) (hafter : ∃ d, toDate.days < d ∧ d ≤ CalendarDate.last.days ∧ Z.Has d) :
    ∃ n days, ∀ fuel, n < fuel → lookupDays L Z fuel fromDate.days toDate.days = some days := by
  obtain ⟨e, hlt, hlast, he⟩ := hafter
  obtain ⟨n, hn⟩ := hL.date_visited (a := fromDate.days) (by omega) he
  have hend : ¬ L.toISODate (Z.date (walkTime L Z fromDate.days n)) ≤ L.toISODate toDate.days := by
    rw [hn, @test_iff L fromDate toDate hP hto e (by omega)]
    omega
  obtain ⟨days, hdays⟩ := @visited_ends _ (fun day => L.toISODate (Z.date day) ≤ L.toISODate toDate.days) _ n
    (L.fromISODate Z fromDate.days) (decide_eq_false hend)
  exact ⟨n, days, hdays⟩

theorem lookup_ends_iff {db : Db} {coachId : String} {fuel : Nat} {a b : Int} :
    (∃ rangesByDate, getEffectiveRangesForDateRange P fuel db coachId a b Z = some rangesByDate) ↔
      ∃ days, lookupDays P.luxon Z fuel a b = some days := by
  constructor
  · rintro ⟨_, h⟩
    obtain ⟨days, hdays, -⟩ := Option.map_eq_some_iff.mp h
    exact ⟨days, hdays⟩
  · rintro ⟨days, hdays⟩
    exact ⟨_, congrArg (Option.map _) hdays⟩

section Entries

variable {db : Db} {coachId : String} {fuel : Nat} {rangesByDate : Int → Option (List MinuteRange)}
variable (hL : P.luxon.WalksDates Z) (hP : P.luxon.PrintsDates) (hto : toDate.year ≤ 9999)
variable (h : getEffectiveRangesForDateRange P fuel db coachId fromDate.days toDate.days Z = some rangesByDate)
include hL hP hto h

theorem lookup_effective {d : Int} (hfrom : fromDate.days ≤ d) (hd : d ≤ toDate.days) (hhas : Z.Has d) :
    rangesByDate d = some (effectiveRanges P Z db coachId d) := by
  obtain ⟨days, hdays, rfl⟩ := Option.map_eq_some_iff.mp h
  obtain ⟨day, hday, rfl⟩ := List.mem_map.mp ((mem_lookupDays_iff hL hP hto hdays).mpr ⟨hfrom, hd, hhas⟩)
  rw [← dayRanges_eq hfrom hd]
  exact foldl_update Z.date _ hday fun _ => none

theorem lookup_none {d : Int} (hd : ¬ (fromDate.days ≤ d ∧ d ≤ toDate.days)) : rangesByDate d = none := by
  obtain ⟨days, hdays, rfl⟩ := Option.map_eq_some_iff.mp h
  rw [← Option.not_isSome_iff_eq_none, foldl_update_isSome, mem_lookupDays_iff hL hP hto hdays]
  tauto

end Entries

theorem lookup_entries {db : Db} {coachId : String} {fuel : Nat} (hL : P.luxon.WalksDates Z) (hP : P.luxon.PrintsDates)
    (hle : fromDate.days ≤ toDate.days) (hto : toDate.year ≤ 9999)
    (hdates : ∀ d, fromDate.days ≤ d → d ≤ toDate.days → Z.Has d)
    (hafter : ∃ d, toDate.days < d ∧ d ≤ CalendarDate.last.days ∧ Z.Has d)
    (hf : (toDate.days + 1 - fromDate.days).toNat < fuel) :
    ∃ rangesByDate, getEffectiveRangesForDateRange P fuel db coachId fromDate.days toDate.days Z = some rangesByDate ∧
      ∀ d, fromDate.days ≤ d → d ≤ toDate.days → rangesByDate d = some (effectiveRanges P Z db coachId d) := by
  obtain ⟨rangesByDate, hr⟩ := lookup_ends_iff.mpr ⟨_, lookupDays_visits hL hP hle hto hdates hafter hf⟩
  exact ⟨rangesByDate, hr, fun d hfrom hd => lookup_effective hL hP hto hr hfrom hd (hdates d hfrom hd)⟩

/-- The loop runs once for each date of the range and stops, and the map has exactly these dates. -/
def LookupExact (P : Platform) (Z : Zone) (db : Db) (coachId : String) (fromDate toDate : Int) : Prop :=
  ∃ n, ∀ fuel, n < fuel → ∃ days rangesByDate,
    lookupDays P.luxon Z fuel fromDate toDate = some days ∧ days.map Z.date = datesFrom fromDate toDate ∧
    getEffectiveRangesForDateRange P fuel db coachId fromDate toDate Z = some rangesByDate ∧
    ∀ d, (rangesByDate d).isSome ↔ fromDate ≤ d ∧ d ≤ toDate

/-- The lookup of a range of dates is exact when the zone has all of them and then another one before the year 10000,
and only then. -/
theorem lookup_exact_iff {db : Db} {coachId : String} (hL : P.luxon.WalksDates Z) (hP : P.luxon.PrintsDates)
    (hle : fromDate.days ≤ toDate.days) (hto : toDate.year ≤ 9999) :
    LookupExact P Z db coachId fromDate.days toDate.days ↔
      (∀ d, fromDate.days ≤ d → d ≤ toDate.days → Z.Has d) ∧
        ∃ d, toDate.days < d ∧ d ≤ CalendarDate.last.days ∧ Z.Has d := by
  constructor
  · rintro ⟨n, hn⟩
    obtain ⟨days, _, hdays, hmap, -, -⟩ := hn (n + 1) n.lt_succ_self
    refine ⟨fun d hfrom hd => ?_, ?_⟩
    · obtain ⟨t, -, rfl⟩ := List.mem_map.mp (hmap ▸ mem_datesFrom.mpr ⟨hfrom, hd⟩ : d ∈ days.map Z.date)
      exact ⟨t, rfl⟩
    · by_contra hnone
      push Not at hnone
      rw [lookupDays_endless hL hP hto hnone] at hdays
      cases hdays
  · rintro ⟨hdates, hafter⟩
    refine ⟨(toDate.days + 1 - fromDate.days).toNat, fun fuel hf => ?_⟩
    have hdays := lookupDays_visits hL hP hle hto hdates hafter hf
    have hmap : ((List.range (toDate.days + 1 - fromDate.days).toNat).map (walkTime P.luxon Z fromDate.days)).map Z.date =
        datesFrom fromDate.days toDate.days := by
      rw [List.map_map, datesFrom]
      refine List.map_congr_left fun j hj => hL.date_eq hdates ?_
      have := List.mem_range.mp hj
      omega
    refine ⟨_, _, hdays, hmap, congrArg (Option.map _) hdays, fun d => ?_⟩
    rw [foldl_update_isSome, hmap, mem_datesFrom]
    simp

/-! ### The end of the year 9999 -/

theorem fixOffset_const (k offset localTS : Int) :
    fixOffset ⟨fun _ => k⟩ offset localTS = localTS - k * msPerMinute := by
  unfold fixOffset
  dsimp only
  split
  · rename_i h
    rw [h]
  · rw [if_pos rfl]
    simp only [msPerMinute]
    omega

theorem date_const (k localTS : Int) : Zone.date ⟨fun _ => k⟩ (localTS - k * msPerMinute) = localTS / msPerDay := by
  simp [Zone.date, Zone.wall]

/-- One hour ahead of UTC, with all ISO dates. -/
def Platform.calendar : Platform where
  luxon := { Luxon.sample ⟨fun _ => 60⟩ [("2026-03-09", 1773010800000), ("9999-12-31", 253402210800000)] [] with
    toISODate := fun d => (CalendarDate.ofIndex (d + 719528).toNat).iso }
  decrypt := some

theorem Platform.calendar_has (d : Int) : Zone.Has ⟨fun _ => 60⟩ d :=
  ⟨midnight d - 60 * msPerMinute, by rw [date_const]; exact Int.mul_ediv_cancel _ (by decide)⟩

theorem Platform.calendar_walksDates : Platform.calendar.luxon.WalksDates ⟨fun _ => 60⟩ := by
  have all : ∀ d, Zone.FirstDate ⟨fun _ => 60⟩ d d := fun d =>
    ⟨Int.le_refl _, Platform.calendar_has d, fun e _ _ => by omega⟩
  refine ⟨fun d => ?_, fun t _ => ?_⟩
  · have hiso : Platform.calendar.luxon.fromISODate ⟨fun _ => 60⟩ d = fixOffset ⟨fun _ => 60⟩ 60 (midnight d) := rfl
    have hdate : midnight d / msPerDay = d := Int.mul_ediv_cancel _ (by decide)
    rw [hiso, fixOffset_const, date_const, hdate]
    exact all d
  · have hplus : Platform.calendar.luxon.plusDay ⟨fun _ => 60⟩ t =
        fixOffset ⟨fun _ => 60⟩ 60 (Zone.wall ⟨fun _ => 60⟩ t + msPerDay) := rfl
    have hdate : (Zone.wall ⟨fun _ => 60⟩ t + msPerDay) / msPerDay = Zone.date ⟨fun _ => 60⟩ t + 1 :=
      Int.add_ediv_of_dvd_right (Int.dvd_refl _)
    rw [hplus, fixOffset_const, date_const, hdate]
    exact all _

theorem Platform.calendar_printsDates : Platform.calendar.luxon.PrintsDates := by
  intro c
  refine congrArg CalendarDate.iso (CalendarDate.eq_of_days ?_)
  rw [CalendarDate.days, CalendarDate.index_ofIndex, CalendarDate.days]
  omega

/-- The sample coach on the first two dates of the calendar. -/
theorem lookup_exact_iff_start :
    LookupExact .calendar ⟨fun _ => 60⟩ .sample "c1" CalendarDate.start.days CalendarDate.start.next.days :=
  (lookup_exact_iff Platform.calendar_walksDates Platform.calendar_printsDates (by decide) (by decide)).mpr
    ⟨fun d _ _ => Platform.calendar_has d, CalendarDate.last.days, by decide, Int.le_refl _, Platform.calendar_has _⟩

/-- A lookup of 9999-12-31 does not stop. -/
theorem not_lookup_exact : ¬ ∀ (P : Platform) (Z : Zone) (db : Db) (coachId : String) (fromDate toDate : CalendarDate),
    P.luxon.WalksDates Z → P.luxon.PrintsDates → fromDate.days ≤ toDate.days → toDate.days - fromDate.days ≤ 90 →
    toDate.year ≤ 9999 → (∀ d, Z.Has d) → LookupExact P Z db coachId fromDate.days toDate.days := by
  intro hall
  obtain ⟨n, hn⟩ := hall .calendar ⟨fun _ => 60⟩ .sample "c1" .last .last Platform.calendar_walksDates
    Platform.calendar_printsDates (Int.le_refl _) (by decide) (Nat.le_refl _) Platform.calendar_has
  obtain ⟨days, _, hdays, -⟩ := hn (n + 1) n.lt_succ_self
  have hnone := @lookupDays_endless _ _ .last .last Platform.calendar_walksDates Platform.calendar_printsDates
    (Nat.le_refl _) (fun d hlt hle => by omega) (n + 1)
  cases hdays.symm.trans hnone

end CoachingCalendar
