import CoachingCalendar.Availability.Walk

/-! # The two lookups of effective ranges -/

namespace CoachingCalendar
open Lib Lib.Prog

variable {P : Platform} {timezone : String} {fromDate toDate : CalendarDate} {w : World} {coachId : String}

/-- The lookup of a range of dates ends, and has for each date of the range the ranges that the lookup of the date
finds. -/
def LookupsAgree (P : Platform) (w : World) (coachId timezone : String) (fromIsoDate toIsoDate : Int) : Prop :=
  ∃ n, ∀ fuel, n < fuel → ∃ rangesByDate,
    getEffectiveRangesForDateRange P fuel w.db coachId fromIsoDate toIsoDate (P.luxon.zone timezone) =
      some rangesByDate ∧
    ∀ d, fromIsoDate ≤ d → d ≤ toIsoDate → ∃ ranges ranges', rangesByDate d = some ranges ∧
      (∀ env, (∀ t, (env t).fault = none) →
        Runs exec env (getEffectiveRangesForDate P coachId d timezone) w (.ok ranges') w) ∧
      ranges.Perm ranges'

/-- Of the dates of a range that the zone has all, the two lookups find the same ranges, when the zone has another date
before the year 10000, and only then: otherwise the one of the range does not end. -/
theorem date_range_agrees_iff (hL : P.luxon.WalksDates (P.luxon.zone timezone)) (hP : P.luxon.PrintsDates)
    (hle : fromDate.days ≤ toDate.days) (hto : toDate.year ≤ 9999)
    (hdates : ∀ d, fromDate.days ≤ d → d ≤ toDate.days → (P.luxon.zone timezone).Has d) :
    LookupsAgree P w coachId timezone fromDate.days toDate.days ↔
      ∃ d, toDate.days < d ∧ d ≤ CalendarDate.last.days ∧ (P.luxon.zone timezone).Has d := by
  constructor
  · rintro ⟨n, hn⟩
    by_contra hnone
    push Not at hnone
    obtain ⟨rangesByDate, hr, -⟩ := hn (n + 1) n.lt_succ_self
    obtain ⟨days, hdays⟩ := lookup_ends_iff.mp ⟨_, hr⟩
    cases hdays.symm.trans (lookupDays_endless hL hP hto hnone (n + 1))
  · intro hafter
    refine ⟨(toDate.days + 1 - fromDate.days).toNat, fun fuel hf => ?_⟩
    obtain ⟨rangesByDate, hr, hentries⟩ := @lookup_entries _ _ _ _ w.db coachId fuel hL hP hle hto hdates hafter hf
    refine ⟨rangesByDate, hr, fun d hfrom hd => ⟨_, _, hentries d hfrom hd, fun env henv => ?_, .rfl⟩⟩
    exact getEffectiveRangesForDate_runs henv coachId d timezone

/-- The sample coach on the first two dates of the calendar. -/
theorem date_range_agrees_iff_start : LookupsAgree .calendar { db := .sample, clock := 0 } "c1" "Europe/Budapest"
    CalendarDate.start.days CalendarDate.start.next.days := by
  have hL : Platform.calendar.luxon.WalksDates (Platform.calendar.luxon.zone "Europe/Budapest") :=
    Platform.calendar_walksDates
  exact (date_range_agrees_iff hL Platform.calendar_printsDates (by decide) (by decide)
    fun d _ _ => Platform.calendar_has d).mpr ⟨CalendarDate.last.days, by decide, Int.le_refl _, Platform.calendar_has _⟩

/-- The lookup of the one date 9999-12-31 as a range finds nothing: it does not end. -/
theorem not_date_range_agrees : ¬ ∀ (P : Platform) (w : World) (coachId timezone : String)
    (fromDate toDate : CalendarDate), P.luxon.WalksDates (P.luxon.zone timezone) → P.luxon.PrintsDates →
    fromDate.days ≤ toDate.days → toDate.year ≤ 9999 →
    (∀ d, fromDate.days ≤ d → d ≤ toDate.days → (P.luxon.zone timezone).Has d) →
    LookupsAgree P w coachId timezone fromDate.days toDate.days := by
  intro hall
  have hL : Platform.calendar.luxon.WalksDates (Platform.calendar.luxon.zone "Europe/Budapest") :=
    Platform.calendar_walksDates
  obtain ⟨n, hn⟩ := hall .calendar { db := .sample, clock := 0 } "c1" "Europe/Budapest" .last .last hL
    Platform.calendar_printsDates (Int.le_refl _) (Nat.le_refl _) fun d _ _ => Platform.calendar_has d
  obtain ⟨rangesByDate, hr, -⟩ := hn (n + 1) n.lt_succ_self
  obtain ⟨days, hdays⟩ := lookup_ends_iff.mp ⟨_, hr⟩
  have hnone := @lookupDays_endless _ _ .last .last hL Platform.calendar_printsDates (by decide)
    (fun d hlt hle => by omega) (n + 1)
  cases hdays.symm.trans hnone

end CoachingCalendar
