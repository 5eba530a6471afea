import CoachingCalendar.Slots.Service
import Mathlib.Order.Monotone.Basic

/-! # The walk over the days of a query -/

namespace CoachingCalendar
open Lib

/-- The days that the outer loop of `computeSlots` has its body run for. -/
def slotDays (L : Luxon) (Z : Zone) (fuel : Nat) (lo hi : Int) : Option (List Int) :=
  visited (fun day => day ≤ hi) (L.plusDay Z) fuel lo

/-- What luxon documents about local times of the date of a time and the next. One that the clocks skip is moved forward
by the gap, and a day later is the first instant with the local time that this leads to. -/
structure Luxon.KeepsClocks (L : Luxon) (Z : Zone) : Prop where
  moves : ∀ t W, Z.date t ≤ W / msPerDay → W / msPerDay ≤ Z.date t + 1 →
    Z.Moves W (Z.wall (L.resolve Z (Z.offset t) W))
  first : ∀ t t', Z.wall t' = Z.wall (L.plusDay Z t) → L.plusDay Z t ≤ t'

variable {L : Luxon} {Z : Zone} {lo hi : Int}

namespace Luxon.KeepsClocks

theorem wall_startOfDay (hL : L.KeepsClocks Z) (t : Int) :
    Z.Moves (midnight (Z.date t)) (Z.wall (L.startOfDay Z t)) := by
  have hdate : midnight (Z.date t) / msPerDay = Z.date t := Int.mul_ediv_cancel _ (by decide)
  exact hL.moves t _ hdate.ge (by omega)

theorem wall_plusDay (hL : L.KeepsClocks Z) (t : Int) : Z.Moves (Z.wall t + msPerDay) (Z.wall (L.plusDay Z t)) := by
  have hdate : (Z.wall t + msPerDay) / msPerDay = Z.date t + 1 := Int.add_ediv_of_dvd_right (Int.dvd_refl _)
  exact hL.moves t _ (by omega) hdate.le

/-- A minute of the day is set where the local time is moved to. -/
theorem wall_setMinute (hL : L.KeepsClocks Z) (t : Int) {m : Int} (hm₀ : 0 ≤ m) (hm₁ : m < 1440) :
    Z.Moves (midnight (Z.date t) + m * msPerMinute) (Z.wall (L.setMinute Z t m)) := by
  have hwall : midnight (Z.date t) + (m / 60 * 60 + m % 60) * msPerMinute = midnight (Z.date t) + m * msPerMinute := by
    simp only [msPerMinute]
    omega
  have hdate : (midnight (Z.date t) + m * msPerMinute) / msPerDay = Z.date t := by
    simp only [midnight, msPerDay, msPerMinute]
    omega
  rw [Luxon.setMinute, hwall]
  exact hL.moves t _ hdate.ge (by omega)

theorem wall_iterate (hL : L.KeepsClocks Z) (t : Int) (n : Nat) :
    Z.wall t + n * msPerDay ≤ Z.wall ((L.plusDay Z)^[n] t) := by
  induction n with
  | zero => simp
  | succ n ih =>
      have := (hL.wall_plusDay ((L.plusDay Z)^[n] t)).le
      rw [Function.iterate_succ_apply']
      push_cast
      rw [Int.add_mul]
      omega

theorem date_plusDay (hL : L.KeepsClocks Z) (t : Int) : Z.date t < Z.date (L.plusDay Z t) := by
  have h := (hL.wall_plusDay t).le
  unfold Zone.date
  simp only [msPerDay] at *
  omega

theorem date_lt (hL : L.KeepsClocks Z) (t : Int) {i j : Nat} (h : i < j) :
    Z.date ((L.plusDay Z)^[i] t) < Z.date ((L.plusDay Z)^[j] t) := by
  induction h with
  | refl =>
      rw [Function.iterate_succ_apply']
      exact hL.date_plusDay _
  | step _ ih =>
      rw [Function.iterate_succ_apply']
      exact Int.lt_trans ih (hL.date_plusDay _)

theorem carries (hL : L.KeepsClocks Z) {d : Int} (hlo : Z.Starts d lo) (n : Nat) :
    Z.Carries (midnight d) n (Z.wall ((L.plusDay Z)^[n] lo)) := by
  induction n with
  | zero => exact .start hlo.moves
  | succ n ih =>
      rw [Function.iterate_succ_apply']
      exact ih.next (hL.wall_plusDay _)

/-- The walk comes to the end when the offsets are bounded. -/
theorem passes (hL : L.KeepsClocks Z) {b : Int} (hb : ∀ t, Z.offset t ≤ b) (t hi : Int) :
    ∃ n, hi < (L.plusDay Z)^[n] t := by
  refine ⟨(hi + b * msPerMinute - Z.wall t).toNat + 1, ?_⟩
  have hwall := hL.wall_iterate t ((hi + b * msPerMinute - Z.wall t).toNat + 1)
  generalize (L.plusDay Z)^[(hi + b * msPerMinute - Z.wall t).toNat + 1] t = u at hwall ⊢
  have hoff := hb u
  unfold Zone.wall at *
  simp only [msPerDay, msPerMinute] at *
  push_cast at hwall
  omega

theorem iterate_le (hL : L.KeepsClocks Z) {d : Int} (hlo : Z.Starts d lo) {n : Nat} {t : Int}
    (ht : Z.wall t = Z.wall ((L.plusDay Z)^[n] lo)) : (L.plusDay Z)^[n] lo ≤ t := by
  cases n with
  | zero => exact hlo.first t ht
  | succ n =>
      rw [Function.iterate_succ_apply'] at ht ⊢
      exact hL.first _ t ht

end Luxon.KeepsClocks

/-- The walk over the days of a query comes to the dates to which 00:00 of the first date comes in time, and to no
others. -/
theorem mem_slotDays_iff (hL : L.KeepsClocks Z) {fuel : Nat} {fromDate toDate d : Int} {days : List Int}
    (hlo : Z.Starts fromDate lo) (hhi : Z.Starts toDate hi) (hdays : slotDays L Z fuel lo hi = some days) :
    d ∈ days.map Z.date ↔ Z.ComesInTime fromDate toDate d := by
  obtain ⟨N, -, rfl, hall, hend⟩ := visited_eq_some_iff.mp hdays
  simp only [decide_eq_true_eq, decide_eq_false_iff_not] at hall hend
  simp only [List.map_map, List.mem_map, List.mem_range, Function.comp_apply]
  constructor
  · rintro ⟨j, hj, rfl⟩
    refine ⟨j, _, hL.carries hlo j, rfl, fun i hi V hV => ?_⟩
    exact ⟨_, (hL.carries hlo i).unique hV, fun s hs => hs.unique hhi ▸ hall i (by omega)⟩
  · rintro ⟨n, W, hc, rfl, hshown⟩
    cases hc.unique (hL.carries hlo n)
    refine ⟨n, Nat.lt_of_not_le fun hN => hend ?_, rfl⟩
    -- where the walk has ended, the carried time would be shown in time
    obtain ⟨t, ht, hle⟩ := hshown N hN _ (hL.carries hlo N)
    exact Int.le_trans (hL.iterate_le hlo ht) (hle hi hhi)

theorem slotDays_ends (hL : L.KeepsClocks Z) {b : Int} (hb : ∀ t, Z.offset t ≤ b) (lo hi : Int) :
    ∃ n days, ∀ fuel, n < fuel → slotDays L Z fuel lo hi = some days := by
  obtain ⟨n, hn⟩ := hL.passes hb lo hi
  obtain ⟨days, hdays⟩ := @visited_ends _ (fun day => day ≤ hi) (L.plusDay Z) _ _ (decide_eq_false (Int.not_le.mpr hn))
  exact ⟨n, days, hdays⟩

theorem slotDays_increasing (hL : L.KeepsClocks Z) {fuel : Nat} {days : List Int}
    (hdays : slotDays L Z fuel lo hi = some days) : (days.map Z.date).Pairwise (· < ·) := by
  obtain ⟨N, -, rfl, -, -⟩ := visited_eq_some_iff.mp hdays
  rw [List.map_map, List.pairwise_map]
  exact List.pairwise_lt_range.imp fun {i j} hij => hL.date_lt lo hij

/-! ### A zone that skips an hour -/

/-- The clocks show UTC until `T`, and are an hour ahead from then on. -/
def Zone.springForward (T : Int) : Zone := ⟨fun t => if t < T then 0 else 60⟩

theorem fixOffset_springForward (T t W : Int) : fixOffset (Zone.springForward T) ((Zone.springForward T).offset t) W =
    if W < T + 3600000 then W else W - 3600000 := by
  simp only [fixOffset, Zone.springForward, msPerMinute]
  repeat' split
  all_goals omega

theorem wall_springForward (T t : Int) :
    (Zone.springForward T).wall t = if t < T then t else t + 3600000 := by
  simp only [Zone.wall, Zone.springForward, msPerMinute]
  split <;> omega

theorem le_of_wall_springForward {T t u : Int} (h : (Zone.springForward T).wall u = (Zone.springForward T).wall t) :
    t ≤ u := by
  rw [wall_springForward, wall_springForward] at h
  split at h <;> split at h <;> omega

theorem shows_springForward {T W : Int} (h : W < T ∨ T + 3600000 ≤ W) : (Zone.springForward T).Shows W := by
  rcases h with h | h
  · exact ⟨W, by rw [wall_springForward, if_pos h]⟩
  · exact ⟨W - 3600000, by rw [wall_springForward, if_neg (by omega)]; omega⟩

theorem not_shows_springForward {T W : Int} (h₀ : T ≤ W) (h₁ : W < T + 3600000) : ¬ (Zone.springForward T).Shows W := by
  rintro ⟨t, ht⟩
  rw [wall_springForward] at ht
  split at ht <;> omega

theorem Luxon.sample_keepsClocks (T : Int) (times dates : List (String × Int)) :
    (Luxon.sample (Zone.springForward T) times dates).KeepsClocks (Zone.springForward T) where
  moves t W _ _ := by
    change Zone.Moves _ W (Zone.wall _ (fixOffset _ _ W))
    rw [fixOffset_springForward, wall_springForward]
    by_cases hafter : T + 3600000 ≤ W
    · rw [if_neg (by omega), if_neg (by omega), Int.sub_add_cancel]
      exact .shown (shows_springForward (.inr hafter))
    · have hlt : W < T + 3600000 := by omega
      rw [if_pos hlt]
      by_cases hbefore : W < T
      · rw [if_pos hbefore]
        exact .shown (shows_springForward (.inl hbefore))
      · have hgap : Zone.Moves (Zone.springForward T) W (W + (T + 3600000 - T)) :=
          .skipped (by omega) hlt (shows_springForward (.inl (by omega)))
            (fun w h₀ h₁ => not_shows_springForward h₀ h₁) (shows_springForward (.inr (Int.le_refl _)))
        rwa [if_neg hbefore, ← Int.add_sub_cancel (3600000 : Int) T, Int.add_comm 3600000 T]
  first _ _ h := le_of_wall_springForward h

theorem springForward_bounded (T : Int) : ∃ b, ∀ t, (Zone.springForward T).offset t ≤ b :=
  ⟨60, fun t => by simp only [Zone.springForward]; split <;> omega⟩

end CoachingCalendar
