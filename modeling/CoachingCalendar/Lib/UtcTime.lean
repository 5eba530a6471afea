import CoachingCalendar.Lib.IsoDate
import CoachingCalendar.Lib.WallClock

/-!
# UTC times and their stamps

An instant in calendar fields, for every year, and the basic ISO format `yyyyMMddTHHmmssZ` with a reader for it.
-/

namespace Lib

/-! ## Fields -/

/-- The calendar repeats every 400 years. -/
def yearOfEra (year : Int) : Nat := (year % 400).toNat

structure UtcTime where
  year : Int
  month : Nat
  day : Nat
  hour : Nat := 0
  minute : Nat := 0
  second : Nat := 0
  millisecond : Nat := 0
  deriving DecidableEq, Repr

namespace UtcTime

structure Valid (u : UtcTime) : Prop where
  month_pos : 1 ≤ u.month
  month_le : u.month ≤ 12
  day_pos : 1 ≤ u.day
  day_le : u.day ≤ daysInMonth (yearOfEra u.year) u.month
  hour_lt : u.hour < 24
  minute_lt : u.minute < 60
  second_lt : u.second < 60
  millisecond_lt : u.millisecond < 1000

variable (u : UtcTime)

/-- The days since 1970-01-01. -/
def days : Int :=
  u.year / 400 * 146097 + (daysBeforeYear (yearOfEra u.year) : Nat) +
    (daysBeforeMonth (yearOfEra u.year) u.month : Nat) + u.day - 1 - 719528

def instant : Int :=
  u.days * msPerDay + ((u.hour * 60 + u.minute : Nat) : Int) * msPerMinute + (u.second * 1000 + u.millisecond : Nat)

/-- The second, without the milliseconds. -/
def toSecond : UtcTime := { u with millisecond := 0 }

/-- The minute, without the seconds. -/
def toMinute : UtcTime := { u with second := 0, millisecond := 0 }

/-- The fields of an instant. -/
def ofInstant (t : Int) : UtcTime :=
  let day := t / msPerDay + 719528
  let c := CalendarDate.ofIndex (day % 146097).toNat
  let ms := (t % msPerDay).toNat
  { year := day / 146097 * 400 + c.year
    month := c.month
    day := c.day
    hour := ms / 3600000
    minute := ms / 60000 % 60
    second := ms / 1000 % 60
    millisecond := ms % 1000 }

theorem year_lt (c : CalendarDate) (h : c.index < 146097) : c.year < 400 := by
  refine Nat.lt_of_not_le fun hy => ?_
  have h₁ : daysBeforeYear 400 ≤ daysBeforeYear c.year := daysBeforeYear_mono hy
  have h₂ : daysBeforeYear 400 = 146097 := rfl
  unfold CalendarDate.index at h
  omega

theorem ofInstant_year (t : Int) : yearOfEra (ofInstant t).year =
      (CalendarDate.ofIndex ((t / msPerDay + 719528) % 146097).toNat).year ∧
    (ofInstant t).year / 400 = (t / msPerDay + 719528) / 146097 := by
  have h := year_lt (CalendarDate.ofIndex ((t / msPerDay + 719528) % 146097).toNat)
    (by rw [CalendarDate.index_ofIndex]; omega)
  simp only [ofInstant, yearOfEra]
  omega

theorem ofInstant_valid (t : Int) : (ofInstant t).Valid := by
  have hy := (ofInstant_year t).1
  have hms := Int.emod_nonneg t (show msPerDay ≠ 0 by decide)
  have hlt := Int.emod_lt_of_pos t (show 0 < msPerDay by decide)
  have hms' : (t % msPerDay).toNat < 86400000 := by
    unfold msPerDay at *
    omega
  constructor
  · exact CalendarDate.month_pos _
  · exact CalendarDate.month_le _
  · exact CalendarDate.day_pos _
  · rw [hy]
    exact CalendarDate.day_le _
  all_goals
    simp only [ofInstant]
    omega

@[simp] theorem ofInstant_instant (t : Int) : (ofInstant t).instant = t := by
  obtain ⟨hy, he⟩ := ofInstant_year t
  have hdays : (ofInstant t).days = t / msPerDay := by
    have hi := CalendarDate.index_ofIndex ((t / msPerDay + 719528) % 146097).toNat
    have hd := (CalendarDate.ofIndex ((t / msPerDay + 719528) % 146097).toNat).day_pos
    unfold days
    rw [hy, he]
    simp only [ofInstant]
    unfold CalendarDate.index at hi
    omega
  have hms := Int.emod_nonneg t (show msPerDay ≠ 0 by decide)
  have hdiv := Int.mul_ediv_add_emod t msPerDay
  unfold instant
  rw [hdays]
  simp only [ofInstant]
  unfold msPerDay msPerMinute at *
  omega

variable {u}

theorem Valid.toMinute (h : u.Valid) : u.toMinute.Valid :=
  ⟨h.month_pos, h.month_le, h.day_pos, h.day_le, h.hour_lt, h.minute_lt, Nat.succ_pos _,
    Nat.succ_pos _⟩

theorem Valid.toSecond_instant (h : u.Valid) : u.toSecond.instant = u.instant - u.instant % 1000 := by
  have hms := h.millisecond_lt
  have hd : u.toSecond.days = u.days := rfl
  unfold instant
  rw [hd]
  simp only [UtcTime.toSecond]
  unfold msPerDay msPerMinute
  omega

theorem Valid.toMinute_instant (h : u.Valid) : u.toMinute.instant = u.instant - u.instant % msPerMinute := by
  have hms := h.millisecond_lt
  have hs := h.second_lt
  have hd : u.toMinute.days = u.days := rfl
  unfold instant
  rw [hd]
  simp only [UtcTime.toMinute]
  unfold msPerDay msPerMinute
  omega

end UtcTime

/-! ## Numbers in a stamp -/

/-- At least `width` decimal digits. -/
def padded (width n : Nat) : List Char := (Nat.toDigits 10 n).leftpad width '0'

def paddedInt (width : Nat) (z : Int) : List Char :=
  if z < 0 then '-' :: padded width z.natAbs else padded width z.natAbs

def readNat (l : List Char) : Nat := Nat.ofDigitChars 10 l 0

def readInt : List Char → Int
  | '-' :: l => -readNat l
  | l => readNat l

theorem readNat_padded (width n : Nat) : readNat (padded width n) = n := by
  rw [readNat, padded, List.leftpad, Nat.ofDigitChars_append, Nat.ofDigitChars_replicate_zero, Nat.mul_zero,
    Nat.ofDigitChars_ten_toDigits]

theorem isDigit_of_mem_padded {width n : Nat} {c : Char} (h : c ∈ padded width n) : c.isDigit := by
  rcases List.mem_append.mp h with h | h
  · rw [List.eq_of_mem_replicate h]
    rfl
  · exact Nat.isDigit_of_mem_toDigits (by decide) (by decide) h

theorem readInt_paddedInt (width : Nat) (z : Int) : readInt (paddedInt width z) = z := by
  unfold paddedInt
  split
  · simp only [readInt, readNat_padded]
    omega
  · have hz : ((readNat (padded width z.natAbs) : Nat) : Int) = z := by
      rw [readNat_padded]
      omega
    unfold readInt
    split
    · rename_i l hl
      have hd : '-'.isDigit = true := isDigit_of_mem_padded (hl ▸ List.mem_cons_self)
      exact absurd hd (by decide)
    · exact hz

theorem padded_two {n : Nat} (h : n < 100) : padded 2 n = [Nat.digitChar (n / 10), Nat.digitChar (n % 10)] := by
  unfold padded
  by_cases hn : n < 10
  · rw [Nat.toDigits_of_lt_base hn, Nat.div_eq_of_lt hn, Nat.mod_eq_of_lt hn]
    rfl
  · rw [Nat.toDigits_of_base_le (by decide) (by omega), Nat.toDigits_of_lt_base (by omega)]
    rfl

theorem readNat_two {a b : Nat} (ha : a < 10) (hb : b < 10) :
    readNat [Nat.digitChar a, Nat.digitChar b] = 10 * a + b := by
  rw [readNat, Nat.ofDigitChars_cons_digitChar_of_lt_ten ha, Nat.ofDigitChars_cons_digitChar_of_lt_ten hb,
    Nat.ofDigitChars_nil]
  omega

theorem readNat_digits {n : Nat} (h : n < 100) : readNat [Nat.digitChar (n / 10), Nat.digitChar (n % 10)] = n := by
  rw [readNat_two (by omega) (by omega)]
  omega

/-! ## Stamps -/

namespace UtcTime

/-- `yyyyMMddTHHmmssZ`. -/
def stamp (u : UtcTime) : List Char :=
  (paddedInt 4 u.year ++ padded 2 u.month ++ padded 2 u.day) ++ 'T' ::
    (padded 2 u.hour ++ padded 2 u.minute ++ padded 2 u.second ++ ['Z'])

/-- Year, month and day. The year is what comes before the last four digits. -/
def readDate (l : List Char) : Option (Int × Nat × Nat) :=
  match l.reverse with
  | d₂ :: d₁ :: m₂ :: m₁ :: year => some (readInt year.reverse, readNat [m₁, m₂], readNat [d₁, d₂])
  | _ => none

/-- Hour, minute and second. -/
def readClock : List Char → Option (Nat × Nat × Nat)
  | [h₁, h₂, m₁, m₂, s₁, s₂, 'Z'] => some (readNat [h₁, h₂], readNat [m₁, m₂], readNat [s₁, s₂])
  | _ => none

/-- The time of a stamp. -/
def readStamp (l : List Char) : Option UtcTime :=
  match l.splitOn 'T' with
  | [date, clock] => do
      let (year, month, day) ← readDate date
      let (hour, minute, second) ← readClock clock
      return { year, month, day, hour, minute, second }
  | _ => none

variable {u : UtcTime}

theorem readDate_stamp (h : u.Valid) :
    readDate (paddedInt 4 u.year ++ padded 2 u.month ++ padded 2 u.day) = some (u.year, u.month, u.day) := by
  have hm : u.month < 100 := by have := h.month_le; omega
  have hd : u.day < 100 := by have := h.day_le; have := CalendarDate.daysInMonth_le (yearOfEra u.year) u.month; omega
  simp only [readDate, padded_two hm, padded_two hd, List.reverse_append, List.reverse_cons, List.reverse_nil,
    List.nil_append, List.cons_append, List.reverse_reverse, readInt_paddedInt, readNat_digits hm, readNat_digits hd]

theorem readClock_stamp (h : u.Valid) :
    readClock (padded 2 u.hour ++ padded 2 u.minute ++ padded 2 u.second ++ ['Z']) =
      some (u.hour, u.minute, u.second) := by
  have hh : u.hour < 100 := by have := h.hour_lt; omega
  have hm : u.minute < 100 := by have := h.minute_lt; omega
  have hs : u.second < 100 := by have := h.second_lt; omega
  simp only [readClock, padded_two hh, padded_two hm, padded_two hs, List.nil_append, List.cons_append,
    readNat_digits hh, readNat_digits hm, readNat_digits hs]

theorem mem_paddedInt {width : Nat} {z : Int} {c : Char} (h : c ∈ paddedInt width z) : c.isDigit = true ∨ c = '-' := by
  unfold paddedInt at h
  split at h
  · rcases List.mem_cons.mp h with h | h
    · exact .inr h
    · exact .inl (isDigit_of_mem_padded h)
  · exact .inl (isDigit_of_mem_padded h)

theorem mem_stampDate {c : Char} (h : c ∈ paddedInt 4 u.year ++ padded 2 u.month ++ padded 2 u.day) :
    c.isDigit = true ∨ c = '-' := by
  rw [List.mem_append, List.mem_append] at h
  rcases h with (h | h) | h
  · exact mem_paddedInt h
  · exact .inl (isDigit_of_mem_padded h)
  · exact .inl (isDigit_of_mem_padded h)

theorem mem_stampClock {c : Char} (h : c ∈ padded 2 u.hour ++ padded 2 u.minute ++ padded 2 u.second ++ ['Z']) :
    c.isDigit = true ∨ c = 'Z' := by
  rw [List.mem_append, List.mem_append, List.mem_append, List.mem_singleton] at h
  rcases h with ((h | h) | h) | h
  · exact .inl (isDigit_of_mem_padded h)
  · exact .inl (isDigit_of_mem_padded h)
  · exact .inl (isDigit_of_mem_padded h)
  · exact .inr h

theorem mem_stamp {c : Char} (h : c ∈ u.stamp) : c.isDigit = true ∨ c = '-' ∨ c = 'T' ∨ c = 'Z' := by
  rcases List.mem_append.mp h with h | h
  · exact (mem_stampDate h).imp_right .inl
  · rcases List.mem_cons.mp h with h | h
    · exact .inr (.inr (.inl h))
    · exact (mem_stampClock h).imp_right fun h => .inr (.inr h)

/-- The reader gets the time of a stamp back, to the second. -/
theorem readStamp_stamp (h : u.Valid) : readStamp u.stamp = some u.toSecond := by
  have hdate : 'T' ∉ paddedInt 4 u.year ++ padded 2 u.month ++ padded 2 u.day :=
    fun hT => absurd (mem_stampDate hT) (by decide)
  have hclock : 'T' ∉ padded 2 u.hour ++ padded 2 u.minute ++ padded 2 u.second ++ ['Z'] :=
    fun hT => absurd (mem_stampClock hT) (by decide)
  rw [readStamp, stamp, List.splitOn_append_cons_self_of_not_mem hdate, List.splitOn_eq_singleton hclock]
  simp only [readDate_stamp h, readClock_stamp h]
  rfl

end UtcTime

end Lib
