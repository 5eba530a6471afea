import Mathlib.Algebra.Group.Nat.Defs
import Mathlib.Data.List.Basic
import Mathlib.Logic.Function.Iterate

/-!
# ISO dates

The Gregorian calendar from the year 0, and its dates as strings. Years of more than four digits have a sign
and six digits.
-/

namespace Lib

/-! ## The calendar -/

def isLeapYear (y : Nat) : Bool := y % 4 = 0 && (y % 100 ≠ 0 || y % 400 = 0)

def daysInMonth (y m : Nat) : Nat :=
  if m = 2 then if isLeapYear y then 29 else 28
  else if m = 4 ∨ m = 6 ∨ m = 9 ∨ m = 11 then 30 else 31

structure CalendarDate where
  year : Nat
  month : Nat
  day : Nat
  month_pos : 1 ≤ month
  month_le : month ≤ 12
  day_pos : 1 ≤ day
  day_le : day ≤ daysInMonth year month
  deriving DecidableEq

/-- The days of the years before `y`. -/
def daysBeforeYear (y : Nat) : Nat := 365 * y + (y + 3) / 4 + (y + 399) / 400 - (y + 99) / 100

/-- The days of the year before the month. -/
def daysBeforeMonth (y : Nat) : Nat → Nat
  | 0 => 0
  | m + 1 => daysBeforeMonth y m + if m = 0 then 0 else daysInMonth y m

theorem daysBeforeYear_succ (y : Nat) :
    daysBeforeYear (y + 1) = daysBeforeYear y + if isLeapYear y then 366 else 365 := by
  have h₄ : (y + 1 + 3) / 4 = (y + 3) / 4 + if y % 4 = 0 then 1 else 0 := by split <;> omega
  have h₁₀₀ : (y + 1 + 99) / 100 = (y + 99) / 100 + if y % 100 = 0 then 1 else 0 := by split <;> omega
  have h₄₀₀ : (y + 1 + 399) / 400 = (y + 399) / 400 + if y % 400 = 0 then 1 else 0 := by split <;> omega
  have hle : (y + 99) / 100 ≤ (y + 3) / 4 := by omega
  unfold daysBeforeYear
  rw [h₄, h₁₀₀, h₄₀₀]
  by_cases h400 : y % 400 = 0
  · have h100 : y % 100 = 0 := by omega
    have h4 : y % 4 = 0 := by omega
    have hleap : isLeapYear y = true := by simp [isLeapYear, h4, h400]
    rw [if_pos h4, if_pos h100, if_pos h400, if_pos hleap]
    omega
  by_cases h100 : y % 100 = 0
  · have h4 : y % 4 = 0 := by omega
    have hleap : ¬ isLeapYear y = true := by simp [isLeapYear, h100, h400]
    rw [if_pos h4, if_pos h100, if_neg h400, if_neg hleap]
    omega
  by_cases h4 : y % 4 = 0
  · have hleap : isLeapYear y = true := by simp [isLeapYear, h4, h100]
    rw [if_pos h4, if_neg h100, if_neg h400, if_pos hleap]
    omega
  · have hleap : ¬ isLeapYear y = true := by simp [isLeapYear, h4]
    rw [if_neg h4, if_neg h100, if_neg h400, if_neg hleap]
    omega

theorem daysBeforeMonth_end (y : Nat) : daysBeforeMonth y 13 = if isLeapYear y then 366 else 365 := by
  cases h : isLeapYear y <;> simp [daysBeforeMonth, daysInMonth, h]

theorem daysBeforeYear_mono {y y' : Nat} (h : y ≤ y') : daysBeforeYear y ≤ daysBeforeYear y' := by
  induction h with
  | refl => exact Nat.le_refl _
  | step _ ih => exact Nat.le_trans ih (by rw [daysBeforeYear_succ]; exact Nat.le_add_right _ _)

theorem daysBeforeMonth_mono (y : Nat) {m m' : Nat} (h : m ≤ m') : daysBeforeMonth y m ≤ daysBeforeMonth y m' := by
  induction h with
  | refl => exact Nat.le_refl _
  | step _ ih => exact Nat.le_trans ih (Nat.le_add_right _ _)

namespace CalendarDate

variable {c c' : CalendarDate}

/-- The day of the calendar, from 0 on. -/
def index (c : CalendarDate) : Nat := daysBeforeYear c.year + daysBeforeMonth c.year c.month + (c.day - 1)

/-- The days since 1970-01-01. -/
def days (c : CalendarDate) : Int := c.index - 719528

def Before (c c' : CalendarDate) : Prop :=
  c.year < c'.year ∨ c.year = c'.year ∧ (c.month < c'.month ∨ c.month = c'.month ∧ c.day < c'.day)

theorem month_end (c : CalendarDate) :
    daysBeforeMonth c.year c.month + (c.day - 1) < daysBeforeMonth c.year (c.month + 1) := by
  have h₁ := c.month_pos
  have h₂ := c.day_pos
  have h₃ := c.day_le
  rw [daysBeforeMonth, if_neg (by omega)]
  omega

theorem year_end (c : CalendarDate) : c.index < daysBeforeYear (c.year + 1) := by
  have h₁ := c.month_end
  have h₂ : daysBeforeMonth c.year (c.month + 1) ≤ daysBeforeMonth c.year 13 :=
    daysBeforeMonth_mono _ (Nat.add_le_add_right c.month_le 1)
  have h₃ := daysBeforeMonth_end c.year
  have h₄ := daysBeforeYear_succ c.year
  unfold index
  omega

theorem Before.index_lt (h : c.Before c') : c.index < c'.index := by
  rcases h with hy | ⟨hy, hm | ⟨hm, hd⟩⟩
  · have h₁ := c.year_end
    have h₂ : daysBeforeYear (c.year + 1) ≤ daysBeforeYear c'.year := daysBeforeYear_mono hy
    unfold index at *
    omega
  · have h₁ := c.month_end
    have h₂ : daysBeforeMonth c.year (c.month + 1) ≤ daysBeforeMonth c.year c'.month := daysBeforeMonth_mono _ hm
    unfold index
    rw [← hy]
    omega
  · have h₁ := c.day_pos
    unfold index
    rw [← hy, ← hm]
    omega

theorem eq_or_before (c c' : CalendarDate) : c = c' ∨ c.Before c' ∨ c'.Before c := by
  obtain ⟨y, m, d, _, _, _, _⟩ := c
  obtain ⟨y', m', d', _, _, _, _⟩ := c'
  simp only [Before, mk.injEq]
  omega

theorem before_iff : c.Before c' ↔ c.days < c'.days := by
  have hlt : ∀ {c c' : CalendarDate}, c.Before c' → c.days < c'.days := by
    intro c c' h
    have := h.index_lt
    unfold days
    omega
  constructor
  · exact hlt
  · intro h
    rcases eq_or_before c c' with rfl | hb | hb
    · omega
    · exact hb
    · have := hlt hb
      omega

theorem eq_of_days (h : c.days = c'.days) : c = c' := by
  rcases eq_or_before c c' with he | hb | hb
  · exact he
  · have := before_iff.mp hb
    omega
  · have := before_iff.mp hb
    omega

/-! ### Counting -/

theorem daysInMonth_pos (y m : Nat) : 1 ≤ daysInMonth y m := by
  unfold daysInMonth
  repeat' split
  all_goals decide

/-- The day after. -/
def next (c : CalendarDate) : CalendarDate :=
  if hd : c.day + 1 ≤ daysInMonth c.year c.month then
    ⟨c.year, c.month, c.day + 1, c.month_pos, c.month_le, by omega, hd⟩
  else if hm : c.month + 1 ≤ 12 then ⟨c.year, c.month + 1, 1, by omega, hm, Nat.le_refl _, daysInMonth_pos _ _⟩
  else ⟨c.year + 1, 1, 1, Nat.le_refl _, by decide, Nat.le_refl _, daysInMonth_pos _ _⟩

theorem index_next (c : CalendarDate) : c.next.index = c.index + 1 := by
  have h₁ := c.month_pos
  have h₂ := c.day_pos
  have h₃ := c.day_le
  unfold next
  split
  · simp only [index]
    omega
  split
  · simp only [index, daysBeforeMonth]
    rw [if_neg (by omega)]
    omega
  · rename_i hd hlast
    have hm : c.month = 12 := by
      have := c.month_le
      omega
    have h₄ : daysBeforeMonth c.year 12 + daysInMonth c.year 12 = if isLeapYear c.year then 366 else 365 :=
      daysBeforeMonth_end c.year
    have h₅ : daysBeforeMonth (c.year + 1) 1 = 0 := rfl
    rw [hm] at h₃ hd
    simp only [index]
    rw [hm, daysBeforeYear_succ, h₅, ← h₄]
    omega

def start : CalendarDate := ⟨0, 1, 1, by decide, by decide, by decide, by decide⟩

/-- The date with an index. -/
def ofIndex (n : Nat) : CalendarDate := next^[n] start

theorem index_ofIndex (n : Nat) : (ofIndex n).index = n := by
  induction n with
  | zero => rfl
  | succ n ih =>
      unfold ofIndex at *
      rw [Function.iterate_succ_apply', index_next, ih]

theorem start_days : start.days = -719528 := by decide

theorem start_days_le (c : CalendarDate) : start.days ≤ c.days := by
  rw [start_days, days]
  omega

theorem exists_days {d : Int} (h : start.days ≤ d) : ∃ c : CalendarDate, c.days = d := by
  refine ⟨ofIndex (d + 719528).toNat, ?_⟩
  rw [start_days] at h
  rw [days, index_ofIndex]
  omega

/-! ## The strings -/

/-- The last `k` decimal digits. -/
def digits : Nat → Nat → List Char
  | 0, _ => []
  | k + 1, n => digits k (n / 10) ++ [Nat.digitChar (n % 10)]

/-- The year, with a sign and two more digits when four are too few. -/
def yearChars (y : Nat) : List Char := if y ≤ 9999 then digits 4 y else '+' :: digits 6 y

def iso (c : CalendarDate) : String :=
  String.ofList (yearChars c.year ++ '-' :: digits 2 c.month ++ '-' :: digits 2 c.day)

@[simp] theorem length_digits (k n : Nat) : (digits k n).length = k := by
  induction k generalizing n with
  | zero => rfl
  | succ k ih => simp [digits, ih]

theorem digitChar_lt : ∀ a < 10, ∀ b < a, Nat.digitChar b < Nat.digitChar a := by decide

theorem plus_lt_digitChar : ∀ a < 10, '+' < Nat.digitChar a := by decide

theorem append_lt_append {l₁ l₂ : List Char} (r₁ r₂ : List Char) (hlen : l₁.length = l₂.length) (h : l₁ < l₂) :
    l₁ ++ r₁ < l₂ ++ r₂ := by
  induction l₁ generalizing l₂ with
  | nil =>
      obtain rfl : l₂ = [] := List.length_eq_zero_iff.mp hlen.symm
      exact absurd h (List.not_lt_nil _)
  | cons a l₁ ih =>
      rcases l₂ with _ | ⟨b, l₂⟩
      · exact absurd h (List.not_lt_nil _)
      · rw [List.cons_append, List.cons_append, List.cons_lt_cons_iff]
        exact (List.cons_lt_cons_iff.mp h).imp_right fun h => ⟨h.1, ih (Nat.succ.inj hlen) h.2⟩

theorem digits_lt {k n m : Nat} (h : n < m) (hm : m < 10 ^ k) : digits k n < digits k m := by
  induction k generalizing n m with
  | zero => omega
  | succ k ih =>
      rw [Nat.pow_succ] at hm
      unfold digits
      rcases Nat.lt_or_ge (n / 10) (m / 10) with hlt | hge
      · exact append_lt_append _ _ (by simp) (ih hlt (by omega))
      · have he : n / 10 = m / 10 := by omega
        rw [he]
        refine List.append_left_lt (List.cons_lt_cons_iff.mpr (.inl ?_))
        exact digitChar_lt _ (Nat.mod_lt _ (by decide)) _ (by omega)

theorem daysInMonth_le (y m : Nat) : daysInMonth y m ≤ 31 := by
  unfold daysInMonth
  repeat' split
  all_goals decide

theorem iso_lt_of_before {c c' : CalendarDate} (hy : c'.year ≤ 9999) (h : c.Before c') : c.iso < c'.iso := by
  have hle : c.year ≤ 9999 := by
    unfold Before at h
    omega
  rw [String.lt_iff]
  simp only [iso, String.toList_ofList, yearChars, if_pos hle, if_pos hy]
  rcases h with hyear | ⟨hyear, hmonth | ⟨hmonth, hday⟩⟩
  · refine append_lt_append _ _ (by simp) (append_lt_append _ _ (by simp) ?_)
    exact digits_lt hyear (by omega)
  · rw [hyear]
    refine append_lt_append _ _ (by simp) (List.append_left_lt (List.cons_lt_cons_iff.mpr (.inr ⟨rfl, ?_⟩)))
    exact digits_lt hmonth (by have := c'.month_le; omega)
  · rw [hyear, hmonth]
    refine List.append_left_lt (List.cons_lt_cons_iff.mpr (.inr ⟨rfl, ?_⟩))
    exact digits_lt hday (by have := c'.day_le; have := daysInMonth_le c'.year c'.month; omega)

/-- Up to the year 9999 the strings are in the order of the dates. -/
theorem iso_le_iff {c c' : CalendarDate} (hc : c.year ≤ 9999) (hc' : c'.year ≤ 9999) :
    c.iso ≤ c'.iso ↔ c.days ≤ c'.days := by
  rw [← String.not_lt]
  rcases eq_or_before c c' with rfl | h | h
  · exact iff_of_true (String.lt_irrefl _) (Int.le_refl _)
  · exact iff_of_true (String.lt_asymm (iso_lt_of_before hc' h)) (Int.le_of_lt (before_iff.mp h))
  · exact iff_of_false (not_not_intro (iso_lt_of_before hc h)) (Int.not_le.mpr (before_iff.mp h))

/-- The string of a later year comes before them all. -/
theorem iso_le_of_late {c c' : CalendarDate} (hc : 9999 < c.year) (hc' : c'.year ≤ 9999) : c.iso ≤ c'.iso := by
  refine String.not_lt.mp (String.lt_asymm ?_)
  rw [String.lt_iff]
  simp only [iso, String.toList_ofList, yearChars, if_neg (Nat.not_le.mpr hc), if_pos hc', digits, List.nil_append,
    List.cons_append]
  exact List.cons_lt_cons_iff.mpr (.inl (plus_lt_digitChar _ (Nat.mod_lt _ (by decide))))

/-! ## The last date with four digits -/

def last : CalendarDate := ⟨9999, 12, 31, by decide, by decide, by decide, by decide⟩

theorem year_le_iff {c : CalendarDate} : c.year ≤ 9999 ↔ c.days ≤ last.days := by
  have h₁ := c.month_le
  have h₂ := c.day_le
  have h₃ := daysInMonth_le c.year c.month
  rcases eq_or_before c last with rfl | h | h
  · exact iff_of_true (Nat.le_refl _) (Int.le_refl _)
  · refine iff_of_true ?_ (Int.le_of_lt (before_iff.mp h))
    simp only [Before, last] at h
    omega
  · refine iff_of_false (fun hy => ?_) (Int.not_le.mpr (before_iff.mp h))
    simp only [Before, last] at h
    omega

end CalendarDate

end Lib
