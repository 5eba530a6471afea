import CoachingCalendar.Availability.Walk
import CoachingCalendar.Slots.Grid

/-! # The dates of a query -/

namespace CoachingCalendar
open Lib

/-- One time on each date of the range that the zone has, in order. -/
structure EachDate (Z : Zone) (fromDate toDate : Int) (days : List Int) : Prop where
  increasing : (days.map Z.date).Pairwise (· < ·)
  dates : ∀ d, d ∈ days.map Z.date ↔ fromDate ≤ d ∧ d ≤ toDate ∧ Z.Has d

/-- Whatever is in the tables and whenever it is asked, the query is answered with the slots of the effective ranges of
each date from that of `lo` to that of `hi`, date by date. -/
def EachDateContributes (P : Platform) (Z : Zone) (query : QuerySlotsDto) (lo hi : Int) : Prop :=
  ∀ (db : Db) (now : Int) (eventType : EventType) (settings : Settings), P.luxon.zone settings.businessTimezone = Z →
    query.Resolved P db eventType settings lo hi → eventType.isActive = true → 0 < eventType.durationMinutes →
    db.AdmittedSchedule → ∃ n, ∀ fuel, n < fuel → ∃ days, EachDate Z (Z.date lo) (Z.date hi) days ∧
      computeSlots P fuel db now query = some (.ok
        ((gridSlots P.luxon Z eventType.durationMinutes (settings.cutoff now)
          (query.existing P.luxon Z db eventType.coachId lo hi) (effectiveRanges P Z db eventType.coachId) days).map
            (Slot.ofTimes P.luxon eventType.coachId)))

variable {P : Platform} {Z : Zone} {query : QuerySlotsDto} {timezone : String} {fuel : Nat} {lo hi d : Int}

/-! ## A schedule of one minute -/

def EventType.ofMinute (query : QuerySlotsDto) : EventType :=
  { EventType.sample with id := query.eventTypeId, durationMinutes := 1 }

/-- A coach in the timezone who is bookable in the first minute of one date. -/
def Db.ofMinute (query : QuerySlotsDto) (timezone : String) (d : Int) : Db :=
  { Db.sample with
    settings := ⟨[{ coachId := "c1", businessTimezone := timezone }], List.nodup_singleton _⟩
    eventTypes := ⟨[.ofMinute query], List.nodup_singleton _⟩
    overrides := ⟨[{ id := "o1", coachId := "c1", date := d, startMinute := some 0, endMinute := some 1 }],
      List.nodup_singleton _⟩
    weeklyAvailabilities := .empty }

theorem Db.ofMinute_resolved (hZ : P.luxon.zone timezone = Z)
    (hfrom : (P.luxon.fromISO Z query.fromDate).map (P.luxon.startOfDay Z) = some lo)
    (hto : (P.luxon.fromISO Z query.toDate).map (P.luxon.startOfDay Z) = some hi) :
    query.Resolved P (.ofMinute query timezone d) (.ofMinute query)
      { coachId := "c1", businessTimezone := timezone } lo hi := by
  subst hZ
  exact ⟨by simp [Db.ofMinute, Table.find, EventType.ofMinute], rfl, hfrom, hto⟩

theorem Db.ofMinute_admitted : (Db.ofMinute query timezone d).AdmittedSchedule where
  weekly _ hr := absurd hr Table.not_mem_empty
  overrides o ho _ := by
    cases List.mem_singleton.mp ho
    exact ⟨rfl, rfl, show MinuteRange.Admitted ⟨0, 1⟩ by decide⟩

theorem Db.ofMinute_ranges (e : Int) :
    effectiveRanges P Z (.ofMinute query timezone d) "c1" e = if e = d then [⟨0, 1⟩] else [] := by
  by_cases he : e = d
  · simp [effectiveRanges, Db.ofMinute, Table.findMany, overrideRanges, AvailabilityOverride.range, he]
  · simp [effectiveRanges, Db.ofMinute, Table.findMany, Table.empty, he, Ne.symm he]

theorem Db.ofMinute_offered {days : List Int} {day b : Int} (hL : P.luxon.KeepsClocks Z) (hb : ∀ t, Z.offset t ≤ b)
    (hday : day ∈ days) : slotAt P.luxon Z 1 day 0 ∈ gridSlots P.luxon Z 1 (midnight (Z.date day) - b * msPerMinute) []
      (effectiveRanges P Z (.ofMinute query timezone (Z.date day)) "c1") days := by
  refine List.mem_filter.mpr ⟨List.mem_map.mpr ⟨(day, 0), List.mem_flatMap.mpr ⟨day, hday, ?_⟩, rfl⟩, ?_⟩
  · rw [Db.ofMinute_ranges, if_pos rfl]
    exact List.mem_singleton.mpr rfl
  · have hset := (hL.wall_setMinute day (Int.le_refl 0) (by decide)).le
    have hoff := hb (P.luxon.setMinute Z day 0)
    simp only [Zone.wall, msPerMinute] at hset
    have hlate : ¬ P.luxon.setMinute Z day 0 < midnight (Z.date day) - b * msPerMinute := by
      simp only [msPerMinute]
      omega
    simp [isOffered, slotAt, hlate]

theorem exists_range_of_mem {days : List Int} {durationMinutes cutoff : Int} {rangesOf : Int → List MinuteRange}
    {s : Int × Int} (h : s ∈ gridSlots P.luxon Z durationMinutes cutoff [] rangesOf days) :
    ∃ day ∈ days, ∃ range, range ∈ rangesOf (Z.date day) := by
  obtain ⟨p, hp, -⟩ := List.mem_map.mp (List.mem_filter.mp h).1
  obtain ⟨day, hday, hp⟩ := List.mem_flatMap.mp hp
  obtain ⟨range, hrange, -⟩ := List.mem_flatMap.mp hp
  exact ⟨day, hday, range, hrange⟩

/-! ## Days past the last date -/

theorem gridPoints_filter {durationMinutes last : Int} {rangesOf rangesOf' : Int → List MinuteRange} {days : List Int}
    (hin : ∀ day ∈ days, Z.date day ≤ last → rangesOf (Z.date day) = rangesOf' (Z.date day))
    (hout : ∀ day ∈ days, last < Z.date day → rangesOf (Z.date day) = []) :
    gridPoints Z durationMinutes rangesOf days =
      gridPoints Z durationMinutes rangesOf' (days.filter fun day => Z.date day ≤ last) := by
  induction days with
  | nil => rfl
  | cons day days ih =>
      have ih := ih (fun e he => hin e (List.mem_cons_of_mem _ he)) fun e he => hout e (List.mem_cons_of_mem _ he)
      unfold gridPoints at ih ⊢
      rw [List.flatMap_cons, ih]
      by_cases hd : Z.date day ≤ last
      · rw [hin day List.mem_cons_self hd, List.filter_cons_of_pos (by simpa using hd), List.flatMap_cons]
      · rw [hout day List.mem_cons_self (by omega), List.filter_cons_of_neg (by simpa using hd)]
        rfl

/-! ## The dates of the query -/

/-- A walk that comes to all the dates of the range is on each of them once. -/
theorem EachDate.of_walk {days : List Int} (hL : P.luxon.KeepsClocks Z) (hlo : Z.Starts (Z.date lo) lo)
    (hhi : Z.Starts (Z.date hi) hi) (hdays : slotDays P.luxon Z fuel lo hi = some days)
    (hcomes : ∀ d, Z.date lo ≤ d → d ≤ Z.date hi → Z.Has d → Z.ComesInTime (Z.date lo) (Z.date hi) d) :
    EachDate Z (Z.date lo) (Z.date hi) (days.filter fun day => Z.date day ≤ Z.date hi) where
  increasing := (slotDays_increasing hL hdays).sublist (List.filter_sublist.map _)
  dates d := by
    constructor
    · intro hd
      obtain ⟨day, hday, rfl⟩ := List.mem_map.mp hd
      obtain ⟨hday, hle⟩ := List.mem_filter.mp hday
      have hfrom := (mem_slotDays_iff hL hlo hhi hdays).mp (List.mem_map_of_mem hday)
      exact ⟨hfrom.le, of_decide_eq_true hle, day, rfl⟩
    · rintro ⟨hfrom, hto, hhas⟩
      obtain ⟨day, hday, rfl⟩ := List.mem_map.mp ((mem_slotDays_iff hL hlo hhi hdays).mpr (hcomes d hfrom hto hhas))
      exact List.mem_map_of_mem (List.mem_filter.mpr ⟨hday, decide_eq_true hto⟩)

section Dates

variable (hL : P.luxon.KeepsClocks Z) (hW : P.luxon.WalksDates Z) (hP : P.luxon.PrintsDates)
variable (hlo : Z.Starts (Z.date lo) lo) (hhi : Z.Starts (Z.date hi) hi)
variable (hfirst : CalendarDate.start.days ≤ Z.date lo) (hto : CalendarDate.start.days ≤ Z.date hi)
variable (hlast : Z.date hi ≤ CalendarDate.last.days)
include hW hP hfirst hto hlast

theorem later_date_of_lookup {db : Db} {coachId : String} {rangesByDate : Int → Option (List MinuteRange)}
    (hr : getEffectiveRangesForDateRange P fuel db coachId (Z.date lo) (Z.date hi) Z = some rangesByDate) :
    ∃ d, Z.date hi < d ∧ d ≤ CalendarDate.last.days ∧ Z.Has d := by
  by_contra hnone
  push Not at hnone
  obtain ⟨days, hdays⟩ := lookupDays_of_lookup hr
  obtain ⟨c, hc⟩ := CalendarDate.exists_days hfirst
  obtain ⟨c', hc'⟩ := CalendarDate.exists_days hto
  rw [← hc, ← hc'] at hdays
  rw [← hc'] at hnone hlast
  cases hdays.symm.trans (lookupDays_endless hW hP (CalendarDate.year_le_iff.mpr hlast) hnone fuel)

/-- The map of the query has the effective ranges of its dates, and no others. -/
theorem lookup_of_query {db : Db} {coachId : String} {rangesByDate : Int → Option (List MinuteRange)}
    (hr : getEffectiveRangesForDateRange P fuel db coachId (Z.date lo) (Z.date hi) Z = some rangesByDate) (t : Int) :
    (rangesByDate (Z.date t)).getD [] =
      if Z.date lo ≤ Z.date t ∧ Z.date t ≤ Z.date hi then effectiveRanges P Z db coachId (Z.date t) else [] := by
  obtain ⟨c, hc⟩ := CalendarDate.exists_days hfirst
  obtain ⟨c', hc'⟩ := CalendarDate.exists_days hto
  rw [← hc, ← hc'] at hr ⊢
  rw [← hc'] at hlast
  have hyear := CalendarDate.year_le_iff.mpr hlast
  split
  · rename_i h
    rw [lookup_effective hW hP hyear hr h.1 h.2 ⟨t, rfl⟩, Option.getD_some]
  · rename_i h
    rw [lookup_none hW hP hyear hr h, Option.getD_none]

include hL hlo hhi

theorem gridSlots_of_query {db : Db} {coachId : String} {rangesByDate : Int → Option (List MinuteRange)}
    {days : List Int} {durationMinutes cutoff : Int} {existing : List Booking}
    (hr : getEffectiveRangesForDateRange P fuel db coachId (Z.date lo) (Z.date hi) Z = some rangesByDate)
    (hdays : slotDays P.luxon Z fuel lo hi = some days) :
    gridSlots P.luxon Z durationMinutes cutoff existing (fun d => (rangesByDate d).getD []) days =
      gridSlots P.luxon Z durationMinutes cutoff existing (effectiveRanges P Z db coachId)
        (days.filter fun day => Z.date day ≤ Z.date hi) := by
  rw [gridSlots, gridSlots, @gridPoints_filter Z _ (Z.date hi) _ (effectiveRanges P Z db coachId)]
  · intro day hday hd
    have hfrom := ((mem_slotDays_iff hL hlo hhi hdays).mp (List.mem_map_of_mem hday)).le
    rw [lookup_of_query hW hP hfirst hto hlast hr, if_pos ⟨hfrom, hd⟩]
  · intro day _ hd
    rw [lookup_of_query hW hP hfirst hto hlast hr, if_neg fun h => by omega]

end Dates

section Query

variable (hL : P.luxon.KeepsClocks Z) (hW : P.luxon.WalksDates Z) (hP : P.luxon.PrintsDates)
variable (hb : ∃ b, ∀ t, Z.offset t ≤ b)
variable (hlo : Z.Starts (Z.date lo) lo) (hhi : Z.Starts (Z.date hi) hi) (hdates : Z.date lo ≤ Z.date hi)
variable (hfirst : CalendarDate.start.days ≤ Z.date lo) (hlast : Z.date hi ≤ CalendarDate.last.days)
variable (hZ : P.luxon.zone timezone = Z)
variable (hfrom : (P.luxon.fromISO Z query.fromDate).map (P.luxon.startOfDay Z) = some lo)
variable (hto : (P.luxon.fromISO Z query.toDate).map (P.luxon.startOfDay Z) = some hi)
include hL hW hP hb hlo hhi hdates hfirst hlast hZ hfrom hto

/-- A date whose slot of one minute is returned is one that 00:00 of the first date comes to. -/
theorem EachDateContributes.comesInTime (h : EachDateContributes P Z query lo hi) (h₀ : Z.date lo ≤ d)
    (h₁ : d ≤ Z.date hi) (hd : Z.Has d) : Z.ComesInTime (Z.date lo) (Z.date hi) d := by
  obtain ⟨b, hb⟩ := hb
  have hq := Db.ofMinute_resolved (d := d) hZ hfrom hto
  -- asked so early that the whole date is after the cutoff
  obtain ⟨n, hn⟩ := h _ (midnight d - b * msPerMinute - 48 * msPerHour) _ _ hZ hq rfl Int.one_pos Db.ofMinute_admitted
  obtain ⟨days, heach, hslots⟩ := hn (n + 1) n.lt_succ_self
  obtain ⟨rangesByDate, walked, hr, hwalked, heq⟩ := computeSlots_eq_grid hq hZ hslots
  obtain ⟨day, hday, rfl⟩ := List.mem_map.mp ((heach.dates d).mpr ⟨h₀, h₁, hd⟩)
  have hexisting : query.existing P.luxon Z (.ofMinute query timezone (Z.date day)) "c1" lo hi = [] := rfl
  have hcutoff : ({ coachId := "c1", businessTimezone := timezone } : Settings).cutoff
      (midnight (Z.date day) - b * msPerMinute - 48 * msPerHour) = midnight (Z.date day) - b * msPerMinute :=
    Int.sub_add_cancel _ _
  change List.map _ (gridSlots _ _ 1 _ (query.existing P.luxon Z _ "c1" lo hi) _ days) =
    List.map _ (gridSlots _ _ 1 _ (query.existing P.luxon Z _ "c1" lo hi) _ walked) at heq
  rw [hexisting, hcutoff] at heq
  -- so some slot of the walk is returned, and the only range is that of the date
  obtain ⟨s, hs, -⟩ := List.mem_map.mp (heq ▸ List.mem_map_of_mem (Db.ofMinute_offered hL hb hday))
  obtain ⟨t, ht, range, hrange⟩ := exists_range_of_mem hs
  rw [lookup_of_query hW hP hfirst (Int.le_trans hfirst hdates) hlast hr] at hrange
  change range ∈ if _ then effectiveRanges P Z (.ofMinute query timezone (Z.date day)) "c1" (Z.date t) else [] at hrange
  rw [Db.ofMinute_ranges] at hrange
  have hdate : Z.date t = Z.date day := by
    by_contra hne
    simp [hne] at hrange
  exact (mem_slotDays_iff hL hlo hhi hwalked).mp (List.mem_map.mpr ⟨t, ht, hdate⟩)

/-- Each date of a query contributes its slots exactly when the clocks let 00:00 of the first date come to it in time,
and there is a later date before the year 10000. -/
theorem every_date_contributes_iff (hle : lo ≤ hi) (h90 : P.luxon.diffDays Z lo hi ≤ MAX_RANGE_DAYS) :
    EachDateContributes P Z query lo hi ↔
      (∀ d, Z.date lo ≤ d → d ≤ Z.date hi → Z.Has d → Z.ComesInTime (Z.date lo) (Z.date hi) d) ∧
        ∃ d, Z.date hi < d ∧ d ≤ CalendarDate.last.days ∧ Z.Has d := by
  constructor
  · intro h
    refine ⟨fun d => h.comesInTime hL hW hP hb hlo hhi hdates hfirst hlast hZ hfrom hto, ?_⟩
    obtain ⟨n, hn⟩ := h _ 0 _ _ hZ (Db.ofMinute_resolved (d := 0) hZ hfrom hto) rfl Int.one_pos Db.ofMinute_admitted
    obtain ⟨_, -, hslots⟩ := hn (n + 1) n.lt_succ_self
    obtain ⟨rangesByDate, _, hr, -⟩ := computeSlots_eq_grid (Db.ofMinute_resolved hZ hfrom hto) hZ hslots
    exact later_date_of_lookup hW hP hfirst (Int.le_trans hfirst hdates) hlast hr
  · rintro ⟨hcomes, hafter⟩ db now eventType settings hZ hq hactive hpos hadm
    obtain ⟨b, hb⟩ := hb
    obtain ⟨n₁, days, hdays⟩ := slotDays_ends hL hb lo hi
    obtain ⟨n₂, looked, hlooked⟩ : ∃ n looked, ∀ fuel, n < fuel →
        lookupDays P.luxon Z fuel (Z.date lo) (Z.date hi) = some looked := by
      obtain ⟨c, hc⟩ := CalendarDate.exists_days hfirst
      obtain ⟨c', hc'⟩ := CalendarDate.exists_days (Int.le_trans hfirst hdates)
      rw [← hc, ← hc'] at hdates ⊢
      rw [← hc'] at hafter hlast
      exact lookupDays_ends hW hP hdates (CalendarDate.year_le_iff.mpr hlast) hafter
    refine ⟨max (max n₁ n₂) 1440, fun fuel hf => ⟨_, .of_walk hL hlo hhi (hdays fuel (by omega)) hcomes, ?_⟩⟩
    obtain ⟨rangesByDate, hr⟩ := lookup_ends_iff.mpr ⟨looked, hlooked fuel (by omega)⟩
    rw [computeSlots_of_grid hq hZ hactive hle h90 hr (hdays fuel (by omega))]
    · rw [gridSlots_of_query hL hW hP hlo hhi hfirst (Int.le_trans hfirst hdates) hlast hr (hdays fuel (by omega))]
    · intro day _ range hrange
      have hadm := entry_admitted hadm hr _ range hrange
      exact visited_steps_ends hpos (by unfold MinuteRange.Admitted at hadm; omega)

end Query

/-! ### A date that starts at 01:00 -/

/-- The date library of a zone that skips an hour, with all ISO dates. -/
def Luxon.spring (T : Int) (times : List (String × Int)) : Luxon :=
  { Luxon.sample (Zone.springForward T) times [] with
    toISODate := fun d =>
      if d = 0 then "1970-01-01" else if d = 1 then "1970-01-02" else (CalendarDate.ofIndex (d + 719528).toNat).iso }

theorem Luxon.spring_printsDates (T : Int) (times : List (String × Int)) : (Luxon.spring T times).PrintsDates := by
  intro c
  change (if c.days = 0 then _ else if c.days = 1 then _ else _) = c.iso
  split
  · rename_i hc
    rw [@CalendarDate.eq_of_days c ⟨1970, 1, 1, by decide, by decide, by decide, by decide⟩ (hc.trans (by decide))]
    decide
  split
  · rename_i hc
    rw [@CalendarDate.eq_of_days c ⟨1970, 1, 2, by decide, by decide, by decide, by decide⟩ (hc.trans (by decide))]
    decide
  · refine congrArg CalendarDate.iso (CalendarDate.eq_of_days ?_)
    rw [CalendarDate.days, CalendarDate.index_ofIndex, CalendarDate.days]
    omega

theorem Luxon.spring_keepsClocks (T : Int) (times : List (String × Int)) :
    (Luxon.spring T times).KeepsClocks (Zone.springForward T) :=
  ⟨(Luxon.sample_keepsClocks T times []).moves, (Luxon.sample_keepsClocks T times []).first⟩

section Spring

variable {T : Int} (hT : T % msPerDay + 7200000 ≤ msPerDay)
include hT

theorem date_fixOffset_springForward (t W : Int) :
    (Zone.springForward T).date (fixOffset (Zone.springForward T) ((Zone.springForward T).offset t) W) =
      W / msPerDay := by
  rw [Zone.date, fixOffset_springForward, wall_springForward]
  simp only [msPerDay] at *
  repeat' split
  all_goals omega

theorem springForward_firstDate (t W d : Int) (hd : W / msPerDay = d) : (Zone.springForward T).FirstDate d
    ((Zone.springForward T).date (fixOffset (Zone.springForward T) ((Zone.springForward T).offset t) W)) := by
  rw [date_fixOffset_springForward hT, hd]
  exact ⟨Int.le_refl _, ⟨_, (date_fixOffset_springForward hT t W).trans hd⟩, fun e _ _ => by omega⟩

theorem Luxon.spring_walksDates (times : List (String × Int)) :
    (Luxon.spring T times).WalksDates (Zone.springForward T) where
  iso d := springForward_firstDate hT _ _ _ (Int.mul_ediv_cancel _ (by decide))
  next t _ := springForward_firstDate hT _ _ _ (Int.add_ediv_of_dvd_right (Int.dvd_refl _))

theorem springForward_has (d : Int) : (Zone.springForward T).Has d :=
  ⟨_, (date_fixOffset_springForward hT 0 (midnight d)).trans (Int.mul_ediv_cancel _ (by decide))⟩

end Spring

theorem Luxon.spring_starts (T : Int) (times : List (String × Int)) {t : Int}
    (h : (Luxon.spring T times).startOfDay (Zone.springForward T) t = t) :
    (Zone.springForward T).Starts ((Zone.springForward T).date t) t where
  date := rfl
  moves := by
    have := (Luxon.spring_keepsClocks T times).wall_startOfDay t
    rwa [h] at this
  first _ hu := le_of_wall_springForward hu

/-- 00:00 is skipped on Thursday, 1970-01-01. -/
def Platform.midnightless : Platform where
  luxon := .spring 0 [("1970-01-01", 0), ("1970-01-02", 82800000)]
  decrypt := some

/-- The date is answered for when it is asked for alone. -/
theorem every_date_contributes_iff_alone :
    EachDateContributes .midnightless (Zone.springForward 0) ⟨"e1", "1970-01-01", "1970-01-01", none⟩ 0 0 := by
  have hstart := Luxon.spring_starts 0 [] (t := 0) rfl
  have hZ : Platform.midnightless.luxon.zone "Europe/Budapest" = Zone.springForward 0 := rfl
  refine (every_date_contributes_iff (Luxon.spring_keepsClocks 0 _) (Luxon.spring_walksDates (by decide) _)
    (Luxon.spring_printsDates 0 _) (springForward_bounded 0) hstart hstart (Int.le_refl _) (by decide) (by decide) hZ
    rfl rfl (Int.le_refl _) (by decide)).mpr ⟨fun d h₀ h₁ _ => ?_, CalendarDate.last.days, by decide, Int.le_refl _,
      springForward_has (by decide) _⟩
  obtain rfl := Int.le_antisymm h₁ h₀
  have hdays : slotDays (Luxon.spring 0 []) (Zone.springForward 0) 2 0 0 = some [0] := rfl
  exact (mem_slotDays_iff (Luxon.spring_keepsClocks 0 []) hstart hstart hdays).mp (List.mem_singleton.mpr rfl)

/-- It is walked at 01:00, and so would be the next date, which starts at 00:00 and is not walked. -/
theorem not_every_date_contributes : ¬ ∀ (P : Platform) (Z : Zone) (query : QuerySlotsDto) (timezone : String)
    (lo hi : Int), P.luxon.KeepsClocks Z → P.luxon.WalksDates Z → P.luxon.PrintsDates →
    (∃ b, ∀ t, Z.offset t ≤ b) → Z.Starts (Z.date lo) lo → Z.Starts (Z.date hi) hi → Z.date lo ≤ Z.date hi →
    CalendarDate.start.days ≤ Z.date lo → Z.date hi ≤ CalendarDate.last.days → P.luxon.zone timezone = Z →
    (P.luxon.fromISO Z query.fromDate).map (P.luxon.startOfDay Z) = some lo →
    (P.luxon.fromISO Z query.toDate).map (P.luxon.startOfDay Z) = some hi → lo ≤ hi →
    P.luxon.diffDays Z lo hi ≤ MAX_RANGE_DAYS → EachDateContributes P Z query lo hi := by
  intro hall
  have hL := Luxon.spring_keepsClocks 0 [("1970-01-01", 0), ("1970-01-02", 82800000)]
  have hW := Luxon.spring_walksDates (T := 0) (by decide) [("1970-01-01", 0), ("1970-01-02", 82800000)]
  have hP := Luxon.spring_printsDates 0 [("1970-01-01", 0), ("1970-01-02", 82800000)]
  have hlo := Luxon.spring_starts 0 [] (t := 0) rfl
  have hhi := Luxon.spring_starts 0 [] (t := 82800000) rfl
  have hZ : Platform.midnightless.luxon.zone "Europe/Budapest" = Zone.springForward 0 := rfl
  have h := hall .midnightless (Zone.springForward 0) ⟨"e1", "1970-01-01", "1970-01-02", none⟩ "Europe/Budapest" 0
    82800000 hL hW hP (springForward_bounded 0) hlo hhi (by decide) (by decide) (by decide) hZ rfl rfl (by decide)
    (by decide)
  have hcomes := h.comesInTime (d := 1) hL hW hP (springForward_bounded 0) hlo hhi (by decide) (by decide) (by decide)
    hZ rfl rfl (by decide) (by decide) (springForward_has (by decide) 1)
  have hdays : slotDays Platform.midnightless.luxon (Zone.springForward 0) 2 0 82800000 = some [0] := rfl
  have := (mem_slotDays_iff hL hlo hhi hdays).mpr hcomes
  revert this
  decide

end CoachingCalendar
