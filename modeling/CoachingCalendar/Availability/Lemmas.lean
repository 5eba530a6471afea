import CoachingCalendar.Availability.Service
import CoachingCalendar.Store.Lemmas

/-! # The effective ranges of a date -/

namespace CoachingCalendar
open Lib Lib.Prog

variable (P : Platform) (Z : Zone)

/-- The overrides of the date when there are any, and the weekly ranges of its weekday otherwise. -/
def effectiveRanges (db : Db) (coachId : String) (isoDate : Int) : List MinuteRange :=
  match db.overrides.findMany fun o => o.coachId = coachId && o.date = isoDate with
  | [] => (db.weeklyAvailabilities.findMany fun w =>
      w.coachId = coachId && w.weekday = isoWeekdayOf P.luxon isoDate Z).map (·.range)
  | o :: os => overrideRanges (o :: os)

variable {P Z} {env : Trace → Choice} {w : World}

theorem getEffectiveRangesForDate_runs (henv : ∀ t, (env t).fault = none) (coachId : String)
    (isoDate : Int) (timezone : String) :
    Runs exec env (getEffectiveRangesForDate P coachId isoDate timezone) w
      (.ok (effectiveRanges P (P.luxon.zone timezone) w.db coachId isoDate)) w := by
  unfold getEffectiveRangesForDate effectiveRanges
  refine .bind (.perform fun t => unlessFault_none (henv t) _) ?_
  dsimp only
  generalize w.db.overrides.findMany _ = overrides
  cases overrides with
  | nil => exact .bind (.perform fun t => unlessFault_none (henv t) _) .pure
  | cons o os => exact .pure

theorem isWithinEffectiveRange_runs (henv : ∀ t, (env t).fault = none) (coachId : String)
    (isoDate : Int) (timezone : String) (c : Candidate) :
    Runs exec env (isWithinEffectiveRange P coachId isoDate timezone c) w
      (.ok ((effectiveRanges P (P.luxon.zone timezone) w.db coachId isoDate).any (·.contains c))) w :=
  .bind (getEffectiveRangesForDate_runs henv _ _ _) .pure

theorem MinuteRange.contains_iff {r : MinuteRange} {c : Candidate} :
    r.contains c = true ↔ r.startMinute ≤ c.startMinute ∧ c.endMillis ≤ r.endMinute * msPerMinute := by
  simp [contains]

/-! ## A range of dates -/

/-- A map built by pushing has the rows of a key, in order. -/
theorem foldl_pushTo {κ ρ α : Type} [DecidableEq κ] (key : ρ → κ) (f : ρ → α) (rows : List ρ)
    (m : κ → Option (List α)) (k : κ) :
    ((rows.foldl (fun m r => pushTo m (key r) (f r)) m) k).getD [] =
      (m k).getD [] ++ (rows.filter fun r => key r = k).map f := by
  induction rows generalizing m with
  | nil => simp
  | cons r rows ih =>
      rw [List.foldl_cons, ih, List.filter_cons]
      by_cases hk : key r = k
      · simp [pushTo, hk]
      · simp [pushTo, hk, Function.update_of_ne (Ne.symm hk)]

/-- A map that gives every key the value of a function has this value for the keys it was given. -/
theorem foldl_update {ρ κ α : Type} [DecidableEq κ] (key : ρ → κ) (f : κ → α) {rows : List ρ} {r : ρ}
    (hr : r ∈ rows) (m : κ → Option α) :
    rows.foldl (fun m r => Function.update m (key r) (some (f (key r)))) m (key r) = some (f (key r)) := by
  have kept : ∀ (rows : List ρ) (m : κ → Option α), m (key r) = some (f (key r)) →
      rows.foldl (fun m r => Function.update m (key r) (some (f (key r)))) m (key r) = some (f (key r)) := by
    intro rows
    induction rows with
    | nil => simp
    | cons s rows ih =>
        intro m hm
        refine ih _ ?_
        by_cases hk : key r = key s
        · simp [hk]
        · simp [hm, Function.update_of_ne hk]
  induction rows generalizing m with
  | nil => cases hr
  | cons s rows ih =>
      rcases List.mem_cons.mp hr with rfl | hr
      · exact kept rows _ (by simp)
      · exact ih hr _

theorem foldl_update_isSome {ρ κ α : Type} [DecidableEq κ] (key : ρ → κ) (f : κ → α) (rows : List ρ)
    (m : κ → Option α) (k : κ) :
    (rows.foldl (fun m r => Function.update m (key r) (some (f (key r)))) m k).isSome ↔
      (m k).isSome ∨ k ∈ rows.map key := by
  induction rows generalizing m with
  | nil => simp
  | cons r rows ih =>
      rw [List.foldl_cons, ih]
      by_cases hk : k = key r
      · simp [hk]
      · simp [hk]

theorem foldl_update_cases {ρ κ α : Type} [DecidableEq κ] (key : ρ → κ) (f : κ → α) (rows : List ρ)
    {m : κ → Option α} {k : κ} (hm : m k = none ∨ m k = some (f k)) :
    rows.foldl (fun m r => Function.update m (key r) (some (f (key r)))) m k = none ∨
      rows.foldl (fun m r => Function.update m (key r) (some (f (key r)))) m k = some (f k) := by
  induction rows generalizing m with
  | nil => exact hm
  | cons r rows ih =>
      refine ih ?_
      by_cases hk : k = key r
      · subst hk
        exact .inr (by simp)
      · simpa [Function.update_of_ne hk] using hm

theorem overridesByDate_getD (rows : List AvailabilityOverride) (d : Int) :
    (overridesByDate rows d).getD [] = rows.filter fun o => o.date = d := by
  simpa [overridesByDate] using foldl_pushTo (fun o : AvailabilityOverride => o.date) id rows (fun _ => none) d

theorem weeklyByWeekday_getD (rows : List WeeklyAvailability) (weekday : Int) :
    (weeklyByWeekday rows weekday).getD [] = (rows.filter fun w => w.weekday = weekday).map (·.range) := by
  simpa [weeklyByWeekday] using foldl_pushTo (fun w : WeeklyAvailability => w.weekday) (·.range) rows (fun _ => none) weekday

theorem overridesByDate_ofCoach {db : Db} {coachId : String} {fromIsoDate toIsoDate d : Int} (hfrom : fromIsoDate ≤ d)
    (hto : d ≤ toIsoDate) :
    (overridesByDate (db.overrides.findMany fun o =>
      o.coachId = coachId && fromIsoDate ≤ o.date && o.date ≤ toIsoDate) d).getD [] =
        db.overrides.findMany fun o => o.coachId = coachId && o.date = d := by
  rw [overridesByDate_getD]
  simp only [Table.findMany, List.filter_filter]
  refine List.filter_congr fun o _ => ?_
  by_cases hd : o.date = d
  · simp [hd, hfrom, hto]
  · simp [hd]

theorem weeklyByWeekday_ofCoach (db : Db) (coachId : String) (weekday : Int) :
    (weeklyByWeekday (db.weeklyAvailabilities.findMany fun w => w.coachId = coachId) weekday).getD [] =
      (db.weeklyAvailabilities.findMany fun w => w.coachId = coachId && w.weekday = weekday).map (·.range) := by
  rw [weeklyByWeekday_getD]
  simp only [Table.findMany, List.filter_filter]
  refine congrArg _ (List.filter_congr fun w _ => ?_)
  simp [Bool.and_comm]

/-- The entry of a date of the range is made of the rows that the query of the date finds. -/
theorem dayRanges_eq {db : Db} {coachId : String} {fromIsoDate toIsoDate d : Int} (hfrom : fromIsoDate ≤ d)
    (hto : d ≤ toIsoDate) :
    dayRanges P (overridesByDate <| db.overrides.findMany fun o =>
        o.coachId = coachId && fromIsoDate ≤ o.date && o.date ≤ toIsoDate)
      (weeklyByWeekday <| db.weeklyAvailabilities.findMany fun w => w.coachId = coachId) Z d =
      effectiveRanges P Z db coachId d := by
  rw [dayRanges, effectiveRanges, ← overridesByDate_ofCoach hfrom hto, ← weeklyByWeekday_ofCoach]
  generalize overridesByDate _ d = found
  rcases found with _ | _ | _ <;> rfl

theorem getEffectiveRangesForDateRange_effective {fuel : Nat} {db : Db} {coachId : String} {fromIsoDate toIsoDate d : Int}
    {rangesByDate : Int → Option (List MinuteRange)}
    (h : getEffectiveRangesForDateRange P fuel db coachId fromIsoDate toIsoDate Z = some rangesByDate)
    (hfrom : fromIsoDate ≤ d) (hto : d ≤ toIsoDate) :
    rangesByDate d = none ∨ rangesByDate d = some (effectiveRanges P Z db coachId d) := by
  obtain ⟨days, -, rfl⟩ := Option.map_eq_some_iff.mp h
  rw [← dayRanges_eq hfrom hto]
  exact foldl_update_cases Z.date _ days (.inl rfl)

theorem getEffectiveRangesForDateRange_entry {fuel : Nat} {db : Db} {coachId : String} {fromIsoDate toIsoDate : Int}
    {rangesByDate : Int → Option (List MinuteRange)}
    (h : getEffectiveRangesForDateRange P fuel db coachId fromIsoDate toIsoDate Z = some rangesByDate) (d : Int) :
    (rangesByDate d).getD [] = [] ∨
      (rangesByDate d).getD [] = overrideRanges (db.overrides.findMany fun o => o.coachId = coachId && o.date = d) ∨
      ∃ weekday, (rangesByDate d).getD [] =
        (db.weeklyAvailabilities.findMany fun w => w.coachId = coachId && w.weekday = weekday).map (·.range) := by
  obtain ⟨days, -, rfl⟩ := Option.map_eq_some_iff.mp h
  rcases foldl_update_cases Z.date (dayRanges P (overridesByDate <| db.overrides.findMany fun o =>
    o.coachId = coachId && fromIsoDate ≤ o.date && o.date ≤ toIsoDate) (weeklyByWeekday <|
    db.weeklyAvailabilities.findMany fun w => w.coachId = coachId) Z) days (m := fun _ => none) (k := d) (.inl rfl)
    with hnone | hsome
  · left
    rw [hnone]
    rfl
  · right
    rw [hsome, Option.getD_some, dayRanges]
    split
    · rename_i o os hfound
      left
      have hrows := overridesByDate_getD (db.overrides.findMany fun o =>
        o.coachId = coachId && fromIsoDate ≤ o.date && o.date ≤ toIsoDate) d
      rw [hfound, Option.getD_some] at hrows
      -- an override of the date was found, so the date is in the range
      obtain ⟨hmem, hdate⟩ := List.mem_filter.mp (hrows ▸ List.mem_cons_self : o ∈ _)
      have hrange := (Table.mem_findMany.mp hmem).2
      simp only [Bool.and_eq_true, decide_eq_true_eq] at hrange hdate
      have hfrom : fromIsoDate ≤ d := by omega
      have hto : d ≤ toIsoDate := by omega
      rw [← overridesByDate_ofCoach hfrom hto, hfound, Option.getD_some]
    · exact .inr ⟨_, weeklyByWeekday_ofCoach db coachId _⟩

end CoachingCalendar
