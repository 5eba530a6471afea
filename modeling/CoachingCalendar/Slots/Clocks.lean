import CoachingCalendar.Slots.Dates
import Mathlib.Data.List.Pairwise

/-! # Slots and changes of the clocks -/

namespace CoachingCalendar
open Lib

variable {P : Platform} {L : Luxon} {Z : Zone} {db : Db} {query : QuerySlotsDto} {eventType : EventType}
variable {settings : Settings} {fuel : Nat} {now lo hi : Int}

/-- From a local time to a later one the clocks go forward by more than the time that is free between the slots that
start there, and by too little to bring the whole later slot before the earlier. -/
def ClocksCross (durationMinutes W a W' b : Int) : Prop :=
  let free := W' - (W + durationMinutes * msPerMinute)
  free < b - a ∧ b - a < free + 2 * (durationMinutes * msPerMinute)

/-- A slot that starts at the minute `m` of a date is due: the clocks let the query come to the date, the minute is on a
step of a range of the date, and nothing is in the way of the slot when the clocks are `a` ahead. -/
structure OfferedStart (P : Platform) (Z : Zone) (db : Db) (eventType : EventType) (cutoff : Int)
    (existing : List Booking) (fromDate toDate d m a : Int) : Prop where
  last : d ≤ toDate
  comes : Z.ComesInTime fromDate toDate d
  minute : ∃ range ∈ effectiveRanges P Z db eventType.coachId d,
    m ∈ stepsTo eventType.durationMinutes range.startMinute range.endMinute
  ahead : Z.Ahead (midnight d + m * msPerMinute) a
  free : isOffered cutoff existing (midnight d + m * msPerMinute - a,
    midnight d + m * msPerMinute - a + eventType.durationMinutes * msPerMinute) = true

/-- On the days of the walk luxon sets a local time that the clocks show twice to the earlier instant. -/
def Luxon.TakesEarlier (L : Luxon) (Z : Zone) (lo : Int) : Prop :=
  ∀ n m t, Z.wall t = Z.wall (L.setMinute Z ((L.plusDay Z)^[n] lo) m) → L.setMinute Z ((L.plusDay Z)^[n] lo) m ≤ t

/-- The intervals of two slots have no instant in common, as a client reads them. -/
def Slot.Apart (L : Luxon) (a b : Slot) : Prop :=
  ∀ a₁ a₂ b₁ b₂, L.fromISO L.systemZone a.startAt = some a₁ → L.fromISO L.systemZone a.endAt = some a₂ →
    L.fromISO L.systemZone b.startAt = some b₁ → L.fromISO L.systemZone b.endAt = some b₂ → a₂ ≤ b₁ ∨ b₂ ≤ a₁

/-- How far the clocks are taken to be ahead of UTC at a point of the grid. -/
def Luxon.ahead (L : Luxon) (Z : Zone) (p : Int × Int) : Int := wallOf Z p - L.setMinute Z p.1 p.2

/-- Two slots of the grid are apart unless the clocks cross from the earlier point to the later. -/
theorem slotAt_apart_iff {d : Int} {p q : Int × Int} :
    (slotAt L Z d p.1 p.2).2 ≤ (slotAt L Z d q.1 q.2).1 ∨ (slotAt L Z d q.1 q.2).2 ≤ (slotAt L Z d p.1 p.2).1 ↔
      ¬ ClocksCross d (wallOf Z p) (L.ahead Z p) (wallOf Z q) (L.ahead Z q) := by
  simp only [slotAt, ClocksCross, Luxon.ahead]
  omega

theorem not_clocksCross_symm {d W a W' b : Int} (h : ¬ ClocksCross d W a W' b) : ¬ ClocksCross d W' b W a := by
  simp only [ClocksCross] at *
  omega

theorem Luxon.KeepsClocks.ahead (hL : L.KeepsClocks Z) (hE : L.TakesEarlier Z lo) (n : Nat) {m : Int} (hm₀ : 0 ≤ m)
    (hm₁ : m < 1440) : Z.Ahead (wallOf Z ((L.plusDay Z)^[n] lo, m)) (L.ahead Z ((L.plusDay Z)^[n] lo, m)) :=
  Zone.ahead_of_first (hL.wall_setMinute _ hm₀ hm₁) (hE n m)

theorem slots_apart_iff {times : List (Int × Int)} {coachId : String}
    (hread : ∀ slot ∈ times.map (Slot.ofTimes L coachId), L.ReadsBack slot.startAt ∧ L.ReadsBack slot.endAt) :
    (times.map (Slot.ofTimes L coachId)).Pairwise (Slot.Apart L) ↔
      times.Pairwise fun s t => s.2 ≤ t.1 ∨ t.2 ≤ s.1 := by
  rw [List.pairwise_map]
  refine List.Pairwise.iff_of_mem fun {s t} hs ht => ?_
  obtain ⟨hs₁, hs₂⟩ := hread _ (List.mem_map_of_mem hs)
  obtain ⟨ht₁, ht₂⟩ := hread _ (List.mem_map_of_mem ht)
  constructor
  · exact fun h => h _ _ _ _ (hs₁ _ rfl) (hs₂ _ rfl) (ht₁ _ rfl) (ht₂ _ rfl)
  · intro h a₁ a₂ b₁ b₂ ha₁ ha₂ hb₁ hb₂
    cases ha₁.symm.trans (hs₁ _ rfl)
    cases ha₂.symm.trans (hs₂ _ rfl)
    cases hb₁.symm.trans (ht₁ _ rfl)
    cases hb₂.symm.trans (ht₂ _ rfl)
    exact h

section Walk

variable (hL : P.luxon.KeepsClocks Z) (hE : P.luxon.TakesEarlier Z lo) (hlo : Z.Starts (Z.date lo) lo)
variable (hhi : Z.Starts (Z.date hi) hi) (hadm : db.AdmittedSchedule)
variable {days : List Int} (hdays : slotDays P.luxon Z fuel lo hi = some days)
include hL hE hadm hdays

theorem ahead_of_mem {d : Int} {p : Int × Int}
    (hp : p ∈ gridPoints Z d (effectiveRanges P Z db eventType.coachId)
      (days.filter fun day => Z.date day ≤ Z.date hi)) : Z.Ahead (wallOf Z p) (P.luxon.ahead Z p) := by
  obtain ⟨N, -, rfl, -, -⟩ := visited_eq_some_iff.mp hdays
  obtain ⟨day, hday, hp⟩ := List.mem_flatMap.mp hp
  obtain ⟨range, hrange, hp⟩ := List.mem_flatMap.mp hp
  obtain ⟨m, hm, rfl⟩ := List.mem_map.mp hp
  obtain ⟨n, -, rfl⟩ := List.mem_map.mp (List.mem_filter.mp hday).1
  obtain ⟨hstart, -, hend⟩ := effectiveRanges_admitted hadm _ range hrange
  have hpos := (mem_stepsTo.mp hm).1
  have hm := mem_stepsTo_le hm
  exact hL.ahead hE n (by omega) (by omega)

include hlo hhi

theorem offeredStart_iff {cutoff d m a : Int} {existing : List Booking} :
    OfferedStart P Z db eventType cutoff existing (Z.date lo) (Z.date hi) d m a ↔
      ∃ p ∈ gridPoints Z eventType.durationMinutes (effectiveRanges P Z db eventType.coachId)
          (days.filter fun day => Z.date day ≤ Z.date hi),
        isOffered cutoff existing (slotAt P.luxon Z eventType.durationMinutes p.1 p.2) = true ∧
          Z.date p.1 = d ∧ p.2 = m ∧ P.luxon.ahead Z p = a := by
  have hslot : ∀ p, slotAt P.luxon Z eventType.durationMinutes p.1 p.2 =
      (wallOf Z p - P.luxon.ahead Z p, wallOf Z p - P.luxon.ahead Z p + eventType.durationMinutes * msPerMinute) := by
    intro p
    rw [Luxon.ahead, Int.sub_sub_self]
    rfl
  constructor
  · intro h
    obtain ⟨day, hday, rfl⟩ := List.mem_map.mp ((mem_slotDays_iff hL hlo hhi hdays).mpr h.comes)
    obtain ⟨range, hrange, hm⟩ := h.minute
    have hp : (day, m) ∈ gridPoints Z eventType.durationMinutes (effectiveRanges P Z db eventType.coachId)
        (days.filter fun day => Z.date day ≤ Z.date hi) :=
      List.mem_flatMap.mpr ⟨day, List.mem_filter.mpr ⟨hday, decide_eq_true h.last⟩,
        List.mem_flatMap.mpr ⟨range, hrange, List.mem_map_of_mem hm⟩⟩
    have ha := (ahead_of_mem hL hE hadm hdays hp).unique h.ahead
    refine ⟨_, hp, ?_, rfl, rfl, ha⟩
    rw [hslot, ha]
    exact h.free
  · rintro ⟨p, hp, hfree, rfl, rfl, rfl⟩
    have ha := ahead_of_mem hL hE hadm hdays hp
    obtain ⟨day, hday, hmem⟩ := List.mem_flatMap.mp hp
    obtain ⟨range, hrange, hmem⟩ := List.mem_flatMap.mp hmem
    obtain ⟨m, hm, rfl⟩ := List.mem_map.mp hmem
    obtain ⟨hday, hle⟩ := List.mem_filter.mp hday
    rw [hslot] at hfree
    exact ⟨of_decide_eq_true hle, (mem_slotDays_iff hL hlo hhi hdays).mp (List.mem_map_of_mem hday),
      ⟨range, hrange, hm⟩, ha, hfree⟩

end Walk

/-- At 02:00 on Thursday, 1970-01-01, the clocks go forward by an hour. -/
def Platform.spring : Platform where
  luxon := .spring 7200000
    [("1970-01-01", 0), ("1970-01-01T01:00:00.000Z", 3600000), ("1970-01-01T02:00:00.000Z", 7200000),
      ("1970-01-01T03:00:00.000Z", 10800000)]
  decrypt := some

/-- The sample with other weekly rows. -/
def Db.withWeekly (rows : Table WeeklyAvailability.id) : Db := { Db.sample with weeklyAvailabilities := rows }

/-- Bookable from 01:00 to 02:00 and from 03:00 to 04:00. -/
def Db.twoHours : Db := .withWeekly ⟨[⟨"w1", "c1", 4, 60, 120⟩, ⟨"w2", "c1", 4, 180, 240⟩], by decide⟩

/-- Bookable from 01:00 to 04:00. -/
def Db.threeHours : Db := .withWeekly ⟨[⟨"w1", "c1", 4, 60, 240⟩], by decide⟩

def QuerySlotsDto.thursday : QuerySlotsDto := ⟨"e1", "1970-01-01", "1970-01-01", none⟩

theorem Db.withWeekly_resolved (rows : Table WeeklyAvailability.id) :
    QuerySlotsDto.thursday.Resolved .spring (.withWeekly rows) .sample { coachId := "c1" } 0 0 :=
  ⟨rfl, rfl, by decide, by decide⟩

theorem Db.withWeekly_admitted {rows : Table WeeklyAvailability.id} (h : ∀ r ∈ rows.rows, r.range.Admitted) :
    (Db.withWeekly rows).AdmittedSchedule := ⟨h, fun _ ho => absurd ho Table.not_mem_empty⟩

theorem Db.withWeekly_disjoint {rows : Table WeeklyAvailability.id}
    (h : (rows.rows.map (·.range)).Pairwise fun r s => rangesOverlap r s = false) (d : Int) :
    (effectiveRanges P Z (.withWeekly rows) "c1" d).Pairwise fun r s => rangesOverlap r s = false :=
  h.sublist (List.filter_sublist.map _)

theorem Platform.spring_takesEarlier : Platform.spring.luxon.TakesEarlier (Zone.springForward 7200000) 0 :=
  fun _ _ _ h => le_of_wall_springForward h

theorem ahead_springForward (T t : Int) :
    (Zone.springForward T).Ahead ((Zone.springForward T).wall t) ((Zone.springForward T).wall t - t) :=
  Zone.ahead_of_first (.shown ⟨t, rfl⟩) fun _ h => le_of_wall_springForward h

theorem Platform.spring_readsBack {s : String} (h : s ∈ ["1970-01-01T01:00:00.000Z", "1970-01-01T02:00:00.000Z",
    "1970-01-01T03:00:00.000Z"]) : Platform.spring.luxon.ReadsBack s := by
  simp only [List.mem_cons, List.not_mem_nil, or_false] at h
  rcases h with rfl | rfl | rfl <;>
    exact @Luxon.sample_readsBack (Zone.springForward 7200000) _ [] _ (by decide) (by decide)

end CoachingCalendar
