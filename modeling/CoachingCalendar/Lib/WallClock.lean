/-!
# Wall clocks

Instants are milliseconds since 1970-01-01T00:00:00Z. A zone says how many minutes its clocks are
ahead of UTC at each instant, and may change that number in any way. A date is a number of days
since 1970-01-01.
-/

namespace Lib

def msPerMinute : Int := 60000
def msPerDay : Int := 86400000

structure Zone where
  /-- Minutes ahead of UTC. -/
  offset : Int → Int

/-- Local midnight of a date, as milliseconds of local time. -/
def midnight (d : Int) : Int := d * msPerDay

namespace Zone

variable (Z : Zone) (t : Int)

/-- The local time at an instant, in milliseconds, with the days counted in. -/
def wall : Int := t + Z.offset t * msPerMinute

/-- The local calendar date at an instant. -/
def date : Int := Z.wall t / msPerDay

/-- The reading of the local clock at an instant: milliseconds after 00:00. -/
def clock : Int := Z.wall t % msPerDay

/-- Some instant has the date. A zone that moves across the date line skips one. -/
def Has (d : Int) : Prop := ∃ t, Z.date t = d

/-- The first date from `d` on that the zone has. -/
def FirstDate (d d' : Int) : Prop := d ≤ d' ∧ Z.Has d' ∧ ∀ e, d ≤ e → e < d' → ¬ Z.Has e

theorem wall_eq : Z.wall t = midnight (Z.date t) + Z.clock t := by
  unfold midnight date clock
  have := Int.mul_ediv_add_emod (Z.wall t) msPerDay
  rw [Int.mul_comm] at this
  exact this.symm

theorem clock_nonneg : 0 ≤ Z.clock t := Int.emod_nonneg _ (by decide)

/-! ## Local times -/

/-- The clocks show a local time at some instant. -/
def Shows (W : Int) : Prop := ∃ t, Z.wall t = W

/-- Where a local time is moved to: nowhere when the clocks show it, and forward by the gap that it lies in when they
do not. -/
inductive Moves (Z : Zone) : Int → Int → Prop
  | shown {W : Int} : Z.Shows W → Moves Z W W
  | skipped {W g₀ g₁ : Int} : g₀ ≤ W → W < g₁ → Z.Shows (g₀ - 1) → (∀ w, g₀ ≤ w → w < g₁ → ¬ Z.Shows w) →
      Z.Shows g₁ → Moves Z W (W + (g₁ - g₀))

/-- The local times that a day later leads to, again and again. -/
inductive Carries (Z : Zone) (W₀ : Int) : Nat → Int → Prop
  | start {W : Int} : Z.Moves W₀ W → Carries Z W₀ 0 W
  | next {n : Nat} {W W' : Int} : Carries Z W₀ n W → Z.Moves (W + msPerDay) W' → Carries Z W₀ (n + 1) W'

/-- The instant at which the clocks first show the start of a date: 00:00, or where it is moved to. -/
structure Starts (d s : Int) : Prop where
  date : Z.date s = d
  moves : Z.Moves (midnight d) (Z.wall s)
  first : ∀ t, Z.wall t = Z.wall s → s ≤ t

/-- 00:00 of the first date, carried from date to date, comes to the date `d`, and all the way the clocks show it by the
start of the last date. -/
def ComesInTime (fromDate toDate d : Int) : Prop :=
  ∃ n W, Z.Carries (midnight fromDate) n W ∧ W / msPerDay = d ∧ ∀ i ≤ n, ∀ V, Z.Carries (midnight fromDate) i V →
    ∃ t, Z.wall t = V ∧ ∀ s, Z.Starts toDate s → t ≤ s

/-- How far the clocks are ahead of UTC for a local time: the offset when they first show it. For one that they skip it
is that of the time that it is moved to, less the gap. -/
def Ahead (W a : Int) : Prop :=
  ∃ t, Z.Moves W (Z.wall t) ∧ (∀ t', Z.wall t' = Z.wall t → t ≤ t') ∧ a = Z.offset t * msPerMinute - (Z.wall t - W)

variable {Z} {W W' : Int}

theorem Moves.le (h : Z.Moves W W') : W ≤ W' := by
  cases h with
  | shown => exact Int.le_refl _
  | skipped => omega

theorem Moves.eq_of_shows (h : Z.Moves W W') (hs : Z.Shows W) : W' = W := by
  cases h with
  | shown => rfl
  | skipped h₀ h₁ _ hgap _ => exact absurd hs (hgap W h₀ h₁)

theorem Moves.unique {W'' : Int} (h : Z.Moves W W') (h' : Z.Moves W W'') : W' = W'' := by
  cases h with
  | shown hs => exact (h'.eq_of_shows hs).symm
  | @skipped g₀ g₁ h₀ h₁ hbefore hgap hafter =>
      cases h' with
      | shown hs => exact absurd hs (hgap W h₀ h₁)
      | @skipped k₀ k₁ i₀ i₁ ibefore igap iafter =>
          -- the ends of each gap are shown, so they are not inside the other
          have hstart : g₀ = k₀ := by
            rcases Int.lt_trichotomy g₀ k₀ with hlt | he | hgt
            · exact absurd ibefore (hgap (k₀ - 1) (by omega) (by omega))
            · exact he
            · exact absurd hbefore (igap (g₀ - 1) (by omega) (by omega))
          have hend : g₁ = k₁ := by
            rcases Int.lt_trichotomy g₁ k₁ with hlt | he | hgt
            · exact absurd hafter (igap g₁ (by omega) hlt)
            · exact he
            · exact absurd iafter (hgap k₁ (by omega) hgt)
          rw [hstart, hend]

theorem Starts.unique {d s s' : Int} (h : Z.Starts d s) (h' : Z.Starts d s') : s = s' := by
  have hwall := h.moves.unique h'.moves
  exact Int.le_antisymm (h.first s' hwall.symm) (h'.first s hwall)

theorem ahead_of_first {t : Int} (h : Z.Moves W (Z.wall t)) (hfirst : ∀ t', Z.wall t' = Z.wall t → t ≤ t') :
    Z.Ahead W (W - t) := by
  refine ⟨t, h, hfirst, ?_⟩
  simp only [wall]
  omega

theorem Ahead.unique {a a' : Int} (h : Z.Ahead W a) (h' : Z.Ahead W a') : a = a' := by
  obtain ⟨t, hm, hfirst, rfl⟩ := h
  obtain ⟨t', hm', hfirst', rfl⟩ := h'
  have hwall := hm.unique hm'
  obtain rfl : t = t' := Int.le_antisymm (hfirst t' hwall.symm) (hfirst' t hwall)
  rfl

theorem Carries.unique {W₀ : Int} {n : Nat} (h : Z.Carries W₀ n W) (h' : Z.Carries W₀ n W') : W = W' := by
  induction h generalizing W' with
  | start hm =>
      cases h' with
      | start hm' => exact hm.unique hm'
  | next _ hm ih =>
      cases h' with
      | next h' hm' =>
          cases ih h'
          exact hm.unique hm'

theorem Carries.le {W₀ : Int} {n : Nat} (h : Z.Carries W₀ n W) : W₀ ≤ W := by
  induction h with
  | start hm => exact hm.le
  | next _ hm ih =>
      have := hm.le
      simp only [msPerDay] at this
      omega

theorem ComesInTime.le {fromDate toDate d : Int} (h : Z.ComesInTime fromDate toDate d) : fromDate ≤ d := by
  obtain ⟨n, W, hc, rfl, -⟩ := h
  exact Int.le_ediv_of_mul_le (by decide) hc.le

end Zone

/-! ## Ordinary days -/

/-- On the dates from `fromDate` to `toDate` the clocks are `k` minutes ahead of UTC, and show every local time. -/
structure Zone.ConstantOver (Z : Zone) (k fromDate toDate : Int) : Prop where
  shown : ∀ t, midnight fromDate ≤ t + k * msPerMinute → t + k * msPerMinute < midnight (toDate + 1) → Z.offset t = k
  only : ∀ t, fromDate ≤ Z.date t → Z.date t ≤ toDate → Z.offset t = k

/-- 00:00 of a date when the clocks are `k` minutes ahead of UTC. -/
def dayStart (k d : Int) : Int := midnight d - k * msPerMinute

namespace Zone.ConstantOver

variable {Z : Zone} {k fromDate toDate W t d : Int} (hc : Z.ConstantOver k fromDate toDate)
include hc

theorem wall_eq (h₀ : midnight fromDate ≤ W) (h₁ : W < midnight (toDate + 1)) : Z.wall (W - k * msPerMinute) = W := by
  rw [Zone.wall, hc.shown _ (by omega) (by omega)]
  omega

theorem eq_of_wall (h₀ : midnight fromDate ≤ W) (h₁ : W < midnight (toDate + 1)) (ht : Z.wall t = W) :
    t = W - k * msPerMinute := by
  have hfrom : fromDate ≤ Z.date t := Int.le_ediv_of_mul_le (by decide) (ht ▸ h₀)
  have hto : Z.date t < toDate + 1 := Int.ediv_lt_of_lt_mul (by decide) (ht ▸ h₁)
  have hoff := hc.only t hfrom (by omega)
  rw [Zone.wall, hoff] at ht
  omega

theorem date_between (h₀ : dayStart k fromDate ≤ t) (h₁ : t < dayStart k (toDate + 1)) :
    fromDate ≤ Z.date t ∧ Z.date t ≤ toDate := by
  have hoff := hc.shown t (by unfold dayStart at h₀; omega) (by unfold dayStart at h₁; omega)
  simp only [Zone.date, Zone.wall, hoff]
  simp only [dayStart, midnight, msPerDay, msPerMinute] at *
  omega

theorem date_slotOn (h₀ : fromDate ≤ d) (h₁ : d ≤ toDate) {m : Int} (hm₀ : 0 ≤ m) (hm₁ : m < 1440) :
    Z.date (dayStart k d + m * msPerMinute) = d := by
  have hoff := hc.shown (dayStart k d + m * msPerMinute)
    (by simp only [dayStart, midnight, msPerDay, msPerMinute]; omega)
    (by simp only [dayStart, midnight, msPerDay, msPerMinute]; omega)
  simp only [Zone.date, Zone.wall, hoff]
  simp only [dayStart, midnight, msPerDay, msPerMinute]
  omega

theorem date_dayStart (h₀ : fromDate ≤ d) (h₁ : d ≤ toDate) : Z.date (dayStart k d) = d := by
  have h := hc.date_slotOn h₀ h₁ (Int.le_refl 0) (by decide)
  rwa [Int.zero_mul, Int.add_zero] at h

theorem wall_dayStart (h₀ : fromDate ≤ d) (h₁ : d ≤ toDate) : Z.wall (dayStart k d) = midnight d :=
  hc.wall_eq (by simp only [midnight, msPerDay]; omega) (by simp only [midnight, msPerDay]; omega)

end Zone.ConstantOver

/-- The ISO weekday of a date, 1 for Monday. 1970-01-01 was a Thursday. -/
def isoWeekday (d : Int) : Int := (d + 3) % 7 + 1

end Lib
