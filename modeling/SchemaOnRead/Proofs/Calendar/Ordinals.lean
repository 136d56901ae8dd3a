import Mathlib.Data.List.Basic
import SchemaOnRead.Calendar.Date

/-!
# The days of the calendar

The number of a date's day leads back to the date (`ofOrdinal?_ordinal`). A year is what four
centuries, a century, four years and single years have in whole; only the last day of a leap year
needs a rule of its own, because it makes the last of these periods longer.
-/

namespace SchemaOnRead.Date

variable {year month later k : Nat}

/-! ## Months -/

theorem daysBeforeMonth_succ (year : Nat) (positive : 1 ≤ month) :
    daysBeforeMonth year (month + 1) = daysBeforeMonth year month + monthLength year month := by
  obtain ⟨m, rfl⟩ := Nat.exists_eq_add_of_le' positive
  simp [daysBeforeMonth, List.range_succ]

theorem daysBeforeMonth_mono (year : Nat) (positive : 1 ≤ month) (order : month ≤ later) :
    daysBeforeMonth year month ≤ daysBeforeMonth year later := by
  induction order with
  | refl => exact Nat.le_refl _
  | @step later order ih =>
    rw [daysBeforeMonth_succ year (Nat.le_trans positive order)]
    omega

theorem daysBeforeMonth_thirteen (year : Nat) : daysBeforeMonth year 13 = yearLength year := by
  have months : List.range 12 = [0, 1, 2, 3, 4, 5, 6, 7, 8, 9, 10, 11] := rfl
  rw [daysBeforeMonth, months, yearLength]
  cases leap : isLeap year <;> simp [monthLength, leap]

/-- A day of a month is a day of the year. -/
theorem daysBeforeMonth_add_lt (positive : 1 ≤ month) (last : month ≤ 12)
    (within : k < monthLength year month) : daysBeforeMonth year month + k < yearLength year := by
  have next := daysBeforeMonth_succ year positive
  have all := daysBeforeMonth_mono year (Nat.le_add_left 1 month) (Nat.succ_le_succ last)
  rw [daysBeforeMonth_thirteen] at all
  omega

/-- A day of the year is found in its month, from whatever month before it the search begins. -/
theorem splitMonth_eq {fuel : Nat} (positive : 1 ≤ month) (order : month ≤ later)
    (enough : later ≤ month + fuel) (within : k < monthLength year later) :
    splitMonth year fuel month (daysBeforeMonth year later - daysBeforeMonth year month + k) =
      (later, k + 1) := by
  induction fuel generalizing month with
  | zero =>
    obtain rfl : month = later := by omega
    simp [splitMonth]
  | succ fuel ih =>
    rw [splitMonth]
    by_cases here : month = later
    · subst here
      simp [within]
    · have next := daysBeforeMonth_succ year positive
      have reached := daysBeforeMonth_mono year (Nat.le_add_left 1 month) (Nat.lt_of_le_of_ne order here)
      rw [if_neg (by omega)]
      have left : daysBeforeMonth year later - daysBeforeMonth year month + k - monthLength year month =
          daysBeforeMonth year later - daysBeforeMonth year (month + 1) + k := by omega
      rw [left]
      apply ih <;> omega

theorem splitMonth_daysBeforeMonth (positive : 1 ≤ month) (last : month ≤ 12)
    (within : k < monthLength year month) :
    splitMonth year 11 1 (daysBeforeMonth year month + k) = (month, k + 1) :=
  splitMonth_eq (Nat.le_refl 1) positive (by omega) within

/-! ## Years -/

/-- The year of a day after whole periods of four centuries, centuries, groups of four years and single
years. -/
theorem splitYear_of_periods {a b c e rest : Nat} (year : rest < 365)
    (group : 365 * e + rest < 1461) (century : 1461 * c + 365 * e + rest < 36524)
    (fours : 36524 * b + 1461 * c + 365 * e + rest < 146097) :
    splitYear (146097 * a + 36524 * b + 1461 * c + 365 * e + rest) =
      if e = 4 ∨ b = 4 then (400 * a + 100 * b + 4 * c + e, 365)
      else (400 * a + 100 * b + 4 * c + e + 1, rest) := by
  have n400 : (146097 * a + 36524 * b + 1461 * c + 365 * e + rest) / 146097 = a := by omega
  have r400 : (146097 * a + 36524 * b + 1461 * c + 365 * e + rest) % 146097 =
      36524 * b + 1461 * c + 365 * e + rest := by omega
  have n100 : (36524 * b + 1461 * c + 365 * e + rest) / 36524 = b := by omega
  have r100 : (36524 * b + 1461 * c + 365 * e + rest) % 36524 = 1461 * c + 365 * e + rest := by omega
  have n4 : (1461 * c + 365 * e + rest) / 1461 = c := by omega
  have r4 : (1461 * c + 365 * e + rest) % 1461 = 365 * e + rest := by omega
  have n1 : (365 * e + rest) / 365 = e := by omega
  have r1 : (365 * e + rest) % 365 = rest := by omega
  rw [splitYear]
  simp only [n400, r400, n100, r100, n4, r4, n1, r1, Nat.mul_comm a, Nat.mul_comm b, Nat.mul_comm c]

/-- A year comes after whole periods. -/
theorem exists_periods {year : Nat} (positive : 1 ≤ year) : ∃ a b c e, b < 4 ∧ c < 25 ∧ e < 4 ∧
    year = 400 * a + 100 * b + 4 * c + e + 1 := by
  refine ⟨(year - 1) / 400, (year - 1) % 400 / 100, (year - 1) % 100 / 4, (year - 1) % 4, ?_⟩
  omega

/-- A day of a year is found in it. The last day of a leap year comes after more single years than a
group has, or after more centuries than four centuries have. -/
theorem splitYear_daysBeforeYear (positive : 1 ≤ year) (within : k < yearLength year) :
    splitYear (daysBeforeYear year + k) = (year, k) := by
  obtain ⟨a, b, c, e, century, group, single, rfl⟩ := exists_periods positive
  have days : daysBeforeYear (400 * a + 100 * b + 4 * c + e + 1) =
      146097 * a + 36524 * b + 1461 * c + 365 * e := by
    rw [daysBeforeYear, Nat.add_sub_cancel]
    omega
  have leap : isLeap (400 * a + 100 * b + 4 * c + e + 1) = true ↔ e = 3 ∧ (c < 24 ∨ b = 3) := by
    simp only [isLeap, Bool.and_eq_true, Bool.or_eq_true, decide_eq_true_eq]
    omega
  have bound : k < 365 ∨ k = 365 ∧ e = 3 ∧ (c < 24 ∨ b = 3) := by
    rw [← leap]
    rw [yearLength] at within
    split at within
    · rename_i isLeap
      simp only [isLeap, and_true]
      omega
    · exact .inl within
  rw [days]
  rcases bound with small | ⟨rfl, rfl, inCentury⟩
  · rw [splitYear_of_periods small (by omega) (by omega) (by omega), if_neg (by omega)]
  · by_cases last : c = 24
    · obtain rfl : b = 3 := by omega
      have day : 146097 * a + 36524 * 3 + 1461 * c + 365 * 3 + 365 =
          146097 * a + 36524 * 4 + 1461 * 0 + 365 * 0 + 0 := by omega
      rw [day, splitYear_of_periods (by omega) (by omega) (by omega) (by omega), if_pos (.inr rfl),
        last]
    · have day : 146097 * a + 36524 * b + 1461 * c + 365 * 3 + 365 =
          146097 * a + 36524 * b + 1461 * c + 365 * 4 + 0 := by omega
      rw [day, splitYear_of_periods (by omega) (by omega) (by omega) (by omega), if_pos (.inl rfl)]

/-! ## Dates -/

/-- The bounds of the parts of a date of the calendar. -/
structure InCalendar (d : Date) : Prop where
  firstYear : 1 ≤ d.year
  lastYear : d.year ≤ maxYear
  firstMonth : 1 ≤ d.month
  lastMonth : d.month ≤ 12
  firstDay : 1 ≤ d.day
  lastDay : d.day ≤ monthLength d.year d.month

theorem inCalendar_of_isValid {d : Date} (valid : d.isValid = true) : InCalendar d := by
  simp only [isValid, Bool.and_eq_true, decide_eq_true_eq] at valid
  obtain ⟨⟨⟨⟨⟨firstYear, lastYear⟩, firstMonth⟩, lastMonth⟩, firstDay⟩, lastDay⟩ := valid
  constructor <;> assumption

variable {d : Date}

/-- The day of a date in its year, counted from 0. -/
theorem InCalendar.dayOfYear_lt (valid : InCalendar d) :
    daysBeforeMonth d.year d.month + (d.day - 1) < yearLength d.year := by
  have first := valid.firstDay
  have last := valid.lastDay
  exact daysBeforeMonth_add_lt valid.firstMonth valid.lastMonth (by omega)

theorem InCalendar.ordinal_eq (valid : InCalendar d) :
    d.ordinal = daysBeforeYear d.year + (daysBeforeMonth d.year d.month + (d.day - 1)) + 1 := by
  have first := valid.firstDay
  rw [ordinal]
  omega

/-- The days of the calendar are those from the first one on up to the end of its last year. -/
theorem InCalendar.ordinal_lt (valid : InCalendar d) : d.ordinal < endOrdinal := by
  have day := valid.dayOfYear_lt
  have last := valid.lastYear
  have years : daysBeforeYear d.year + yearLength d.year ≤ 3652059 := by
    rw [yearLength, daysBeforeYear]
    split
    · rename_i leap
      simp only [isLeap, Bool.and_eq_true, decide_eq_true_eq] at leap
      have := valid.firstYear
      rw [maxYear] at last
      omega
    · rw [maxYear] at last
      omega
  have ends : endOrdinal = 3652060 := by decide
  rw [valid.ordinal_eq, ends]
  omega

/-- The number of a date's day leads back to the date. -/
theorem ofOrdinal?_ordinal (valid : d.isValid = true) : ofOrdinal? d.ordinal = some d := by
  have valid := inCalendar_of_isValid valid
  have first := valid.firstDay
  have last := valid.lastDay
  have positive : 1 ≤ d.ordinal := by
    rw [valid.ordinal_eq]
    omega
  have before : d.ordinal < endOrdinal := valid.ordinal_lt
  have fromZero : d.ordinal - 1 =
      daysBeforeYear d.year + (daysBeforeMonth d.year d.month + (d.day - 1)) := by
    rw [valid.ordinal_eq, Nat.add_sub_cancel]
  have inMonth : d.day - 1 < monthLength d.year d.month := by omega
  rw [ofOrdinal?, if_pos (by omega), Int.toNat_natCast, fromZero,
    splitYear_daysBeforeYear valid.firstYear valid.dayOfYear_lt]
  simp only [splitMonth_daysBeforeMonth valid.firstMonth valid.lastMonth inMonth]
  rw [Nat.sub_add_cancel first]

theorem ofEpochDay?_epochDay (valid : d.isValid = true) : ofEpochDay? d.epochDay = some d := by
  rw [ofEpochDay?, epochDay, Int.sub_add_cancel]
  exact ofOrdinal?_ordinal valid

end SchemaOnRead.Date
