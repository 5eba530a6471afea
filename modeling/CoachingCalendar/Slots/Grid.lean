import CoachingCalendar.Slots.Theorems
import CoachingCalendar.Slots.Walk

/-! # The slot list as a grid -/

namespace CoachingCalendar
open Lib

variable {P : Platform} {L : Luxon} {Z : Zone} {db : Db} {query : QuerySlotsDto} {eventType : EventType}
variable {settings : Settings} {fuel : Nat} {now lo hi : Int}

/-- The points of the grid: a day of the walk, and a minute on a step of one of its ranges. -/
def gridPoints (Z : Zone) (durationMinutes : Int) (rangesOf : Int → List MinuteRange) (days : List Int) :
    List (Int × Int) :=
  days.flatMap fun day => (rangesOf (Z.date day)).flatMap fun range =>
    (stepsTo durationMinutes range.startMinute range.endMinute).map fun m => (day, m)

/-- The slot is not before the cutoff, and no booking is in the way. -/
def isOffered (cutoff : Int) (existing : List Booking) (s : Int × Int) : Bool :=
  !(s.1 < cutoff) && !existing.any fun b => b.startAt < s.2 && s.1 < b.endAt

/-- The times of the slots that are offered. -/
def gridSlots (L : Luxon) (Z : Zone) (durationMinutes cutoff : Int) (existing : List Booking)
    (rangesOf : Int → List MinuteRange) (days : List Int) : List (Int × Int) :=
  ((gridPoints Z durationMinutes rangesOf days).map fun p => slotAt L Z durationMinutes p.1 p.2).filter
    (isOffered cutoff existing)

def Slot.ofTimes (L : Luxon) (coachId : String) (s : Int × Int) : Slot := ⟨coachId, L.toISO s.1, L.toISO s.2⟩

/-- The cutoff of a query at `now`. -/
def Settings.cutoff (settings : Settings) (now : Int) : Int := now + settings.cancellationNoticeHours * msPerHour

/-- The bookings that a query sees. -/
def QuerySlotsDto.existing (query : QuerySlotsDto) (L : Luxon) (Z : Zone) (db : Db) (coachId : String) (lo hi : Int) :
    List Booking := db.bookings.findMany (query.sees coachId lo (L.plusDay Z hi))

theorem gridSlots_eq (durationMinutes cutoff : Int) (existing : List Booking) (rangesOf : Int → List MinuteRange)
    (days : List Int) :
    (days.map fun day => (rangesOf (Z.date day)).map fun range =>
      ((stepsTo durationMinutes range.startMinute range.endMinute).map (slotAt L Z durationMinutes day)).filter
        (isOffered cutoff existing)).flatten.flatten =
      gridSlots L Z durationMinutes cutoff existing rangesOf days := by
  simp [gridSlots, gridPoints, List.flatMap_def, List.map_flatten, List.filter_flatten, List.flatten_flatten,
    Function.comp_def]

/-- The slot list is the grid, when there is one. -/
theorem computeSlots_eq_grid {slots : List Slot} (hq : query.Resolved P db eventType settings lo hi)
    (hZ : P.luxon.zone settings.businessTimezone = Z) (h : computeSlots P fuel db now query = some (.ok slots)) :
    ∃ rangesByDate days,
      getEffectiveRangesForDateRange P fuel db eventType.coachId (Z.date lo) (Z.date hi) Z = some rangesByDate ∧
      slotDays P.luxon Z fuel lo hi = some days ∧
      slots = (gridSlots P.luxon Z eventType.durationMinutes (settings.cutoff now)
        (query.existing P.luxon Z db eventType.coachId lo hi) (fun d => (rangesByDate d).getD []) days).map
          (Slot.ofTimes P.luxon eventType.coachId) := by
  subst hZ
  simp only [computeSlots, hq.type, hq.config, hq.first, hq.last] at h
  split at h
  · cases h
  split at h
  · cases h
  split at h
  · cases h
  simp only [Option.bind_eq_bind, Option.bind_eq_some_iff, Option.pure_def, Option.some.injEq,
    Except.ok.injEq] at h
  obtain ⟨rangesByDate, hr, days, hd, parts, hp, rfl⟩ := h
  refine ⟨rangesByDate, days, hr, hd, congrArg _ ?_⟩
  rw [← gridSlots_eq]
  refine congrArg (fun parts => parts.flatten.flatten) (eq_map_of_mapM hp fun day _ ofDay hday => ?_)
  refine eq_map_of_mapM hday fun range _ ofRange hrange => ?_
  obtain ⟨starts, hv, rfl⟩ := Option.map_eq_some_iff.mp hrange
  rw [visited_steps hv]
  rfl

theorem computeSlots_of_grid {rangesByDate : Int → Option (List MinuteRange)} {days : List Int}
    (hq : query.Resolved P db eventType settings lo hi) (hZ : P.luxon.zone settings.businessTimezone = Z)
    (ha : eventType.isActive = true) (hle : lo ≤ hi) (hdiff : P.luxon.diffDays Z lo hi ≤ MAX_RANGE_DAYS)
    (hr : getEffectiveRangesForDateRange P fuel db eventType.coachId (Z.date lo) (Z.date hi) Z = some rangesByDate)
    (hd : slotDays P.luxon Z fuel lo hi = some days)
    (hsteps : ∀ day ∈ days, ∀ range ∈ (rangesByDate (Z.date day)).getD [],
      visited (fun m => m + eventType.durationMinutes ≤ range.endMinute) (· + eventType.durationMinutes) fuel
        range.startMinute = some (stepsTo eventType.durationMinutes range.startMinute range.endMinute)) :
    computeSlots P fuel db now query =
      some (.ok ((gridSlots P.luxon Z eventType.durationMinutes (settings.cutoff now)
        (query.existing P.luxon Z db eventType.coachId lo hi) (fun d => (rangesByDate d).getD []) days).map
          (Slot.ofTimes P.luxon eventType.coachId))) := by
  subst hZ
  generalize hZ : P.luxon.zone settings.businessTimezone = Z at *
  have hparts : (days.mapM fun day => ((rangesByDate (Z.date day)).getD []).mapM fun range =>
      rangeSlots P.luxon Z fuel eventType.durationMinutes (settings.cutoff now)
        (query.existing P.luxon Z db eventType.coachId lo hi) day range) =
      some (days.map fun day => ((rangesByDate (Z.date day)).getD []).map fun range =>
        ((stepsTo eventType.durationMinutes range.startMinute range.endMinute).map
          (slotAt P.luxon Z eventType.durationMinutes day)).filter (isOffered (settings.cutoff now)
            (query.existing P.luxon Z db eventType.coachId lo hi))) :=
    mapM_eq_map fun day hday => mapM_eq_map fun range hrange => by
      rw [rangeSlots, hsteps day hday range hrange]
      rfl
  have hfirst := hq.first
  have hlast := hq.last
  rw [hZ] at hfirst hlast
  unfold slotDays at hd
  simp only [computeSlots, hq.type, hq.config, ha, hZ, hfirst, hlast, Bool.not_true, Bool.false_eq_true, if_false]
  rw [if_neg (Int.not_lt.mpr hle), if_neg (Int.not_lt.mpr hdiff), hr, hd]
  refine (congrArg (Option.bind · _) hparts).trans ?_
  rw [← gridSlots_eq]
  rfl

/-- A point of the grid that is offered: its day is walked by the end of the query, its minute is on a step of a range
of that date, and nothing is in the way. -/
structure OfferedPoint (L : Luxon) (Z : Zone) (durationMinutes cutoff : Int) (existing : List Booking)
    (rangesByDate : Int → Option (List MinuteRange)) (lo hi : Int) (p : Int × Int) : Prop where
  day : ∃ n, p.1 = (L.plusDay Z)^[n] lo ∧ ∀ i ≤ n, (L.plusDay Z)^[i] lo ≤ hi
  minute : ∃ range ∈ (rangesByDate (Z.date p.1)).getD [],
    p.2 ∈ stepsTo durationMinutes range.startMinute range.endMinute
  free : isOffered cutoff existing (slotAt L Z durationMinutes p.1 p.2) = true

theorem offeredPoint_iff {d cutoff : Int} {existing : List Booking} {rangesByDate : Int → Option (List MinuteRange)}
    {days : List Int} (hdays : slotDays L Z fuel lo hi = some days) {p : Int × Int} :
    OfferedPoint L Z d cutoff existing rangesByDate lo hi p ↔
      p ∈ gridPoints Z d (fun D => (rangesByDate D).getD []) days ∧
        isOffered cutoff existing (slotAt L Z d p.1 p.2) = true := by
  obtain ⟨day, m⟩ := p
  obtain ⟨N, -, rfl, hall, hend⟩ := visited_eq_some_iff.mp hdays
  simp only [decide_eq_true_eq, decide_eq_false_iff_not] at hall hend
  simp only [gridPoints, List.mem_flatMap, List.mem_map, List.mem_range, Prod.mk.injEq]
  constructor
  · rintro ⟨⟨n, rfl, hn⟩, ⟨range, hr, hm⟩, hfree⟩
    exact ⟨⟨_, ⟨n, Nat.lt_of_not_le fun h => hend (hn N h), rfl⟩, range, hr, m, hm, rfl, rfl⟩, hfree⟩
  · rintro ⟨⟨_, ⟨n, hn, rfl⟩, range, hr, m, hm, rfl, rfl⟩, hfree⟩
    exact ⟨⟨n, rfl, fun i hi => hall i (by omega)⟩, ⟨range, hr, hm⟩, hfree⟩

/-! ## Local times of the grid -/

/-- The local time of a point of the grid. -/
def wallOf (Z : Zone) (p : Int × Int) : Int := midnight (Z.date p.1) + p.2 * msPerMinute

theorem rangesOverlap_false {r s : MinuteRange} (h : rangesOverlap r s = false) :
    r.endMinute ≤ s.startMinute ∨ s.endMinute ≤ r.startMinute := by
  simp only [rangesOverlap, Bool.and_eq_false_iff, decide_eq_false_iff_not] at h
  omega

theorem overrideRanges_admitted {coachId : String} (hadm : db.AdmittedSchedule) (d : Int) :
    ∀ r ∈ overrideRanges (db.overrides.findMany fun o => o.coachId = coachId && o.date = d), r.Admitted := by
  intro r hr
  rw [overrideRanges] at hr
  split at hr
  · cases hr
  · rename_i hoff
    obtain ⟨o, ho, rfl⟩ := List.mem_map.mp hr
    have hon : o.isUnavailable = false := by
      simp only [List.any_eq_true, not_exists, not_and, Bool.not_eq_true] at hoff
      exact hoff o ho
    exact (hadm.overrides o (Table.mem_findMany.mp ho).1 hon).2.2

theorem weeklyRanges_admitted {coachId : String} (hadm : db.AdmittedSchedule) (weekday : Int) :
    ∀ r ∈ (db.weeklyAvailabilities.findMany fun w => w.coachId = coachId && w.weekday = weekday).map (·.range),
      r.Admitted := by
  intro r hr
  obtain ⟨w, hw, rfl⟩ := List.mem_map.mp hr
  exact hadm.weekly w (Table.mem_findMany.mp hw).1

theorem effectiveRanges_admitted {coachId : String} (hadm : db.AdmittedSchedule) (d : Int) :
    ∀ r ∈ effectiveRanges P Z db coachId d, r.Admitted := by
  unfold effectiveRanges
  split
  · exact weeklyRanges_admitted hadm _
  · rename_i hsome
    rw [← hsome]
    exact overrideRanges_admitted hadm d

theorem entry_admitted {rangesByDate : Int → Option (List MinuteRange)} {coachId : String} {fromIsoDate toIsoDate : Int}
    (hadm : db.AdmittedSchedule)
    (h : getEffectiveRangesForDateRange P fuel db coachId fromIsoDate toIsoDate Z = some rangesByDate) (d : Int) :
    ∀ r ∈ (rangesByDate d).getD [], r.Admitted := by
  rcases getEffectiveRangesForDateRange_entry h d with he | he | ⟨weekday, he⟩
  · rw [he]
    exact fun r hr => absurd hr List.not_mem_nil
  · rw [he]
    exact overrideRanges_admitted hadm d
  · rw [he]
    exact weeklyRanges_admitted hadm weekday

/-- By the local clock the points of the grid are at least a slot apart. -/
theorem gridPoints_apart {d : Int} {rangesOf : Int → List MinuteRange} {days : List Int}
    (hdays : days.Pairwise fun a b => Z.date a < Z.date b)
    (hdisj : ∀ D, (rangesOf D).Pairwise fun r s => rangesOverlap r s = false)
    (hadm : ∀ D, ∀ r ∈ rangesOf D, r.Admitted) :
    (gridPoints Z d rangesOf days).Pairwise fun p q =>
      wallOf Z p + d * msPerMinute ≤ wallOf Z q ∨ wallOf Z q + d * msPerMinute ≤ wallOf Z p := by
  unfold gridPoints
  refine List.pairwise_flatMap.mpr ⟨fun day _ => List.pairwise_flatMap.mpr ⟨fun r _ => ?_, ?_⟩, ?_⟩
  · -- on one range
    rw [List.pairwise_map]
    refine (pairwise_stepsTo d _ _).imp fun {m n} h => .inl ?_
    simp only [wallOf, msPerMinute]
    omega
  · -- on two ranges of one day
    refine (hdisj _).imp fun {r s} hrs p hp q hq => ?_
    obtain ⟨m, hm, rfl⟩ := List.mem_map.mp hp
    obtain ⟨n, hn, rfl⟩ := List.mem_map.mp hq
    have hm := mem_stepsTo_le hm
    have hn := mem_stepsTo_le hn
    have := rangesOverlap_false hrs
    simp only [wallOf, msPerMinute]
    omega
  · -- on two days
    refine hdays.imp fun {a b} hab p hp q hq => .inl ?_
    obtain ⟨r, hr, hp⟩ := List.mem_flatMap.mp hp
    obtain ⟨s, hs, hq⟩ := List.mem_flatMap.mp hq
    obtain ⟨m, hm, rfl⟩ := List.mem_map.mp hp
    obtain ⟨n, hn, rfl⟩ := List.mem_map.mp hq
    have hm := mem_stepsTo_le hm
    have hn := mem_stepsTo_le hn
    have hr := hadm _ r hr
    have hs := hadm _ s hs
    simp only [MinuteRange.Admitted] at hr hs
    simp only [wallOf, midnight, msPerDay, msPerMinute]
    omega

end CoachingCalendar
