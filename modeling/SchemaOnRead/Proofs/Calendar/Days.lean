import Mathlib.Logic.Function.Iterate
import SchemaOnRead.Proofs.Calendar.Ordinals

/-!
# Days counted one by one

The number of a date's day is a sum over years and months. Here the days are counted as a calendar has
them, one date after the other, and this gives the same numbers (`isDay_iff`). So every number from that
of the first day to that of the last one is the number of a date's day (`exists_date`), and the date of a
day is the one with its number (`ofOrdinal?_eq_some_iff`).
-/

namespace SchemaOnRead.Date

variable {d e : Date}

/-- The day after a date, in a calendar without end. -/
def next (d : Date) : Date :=
  if d.day < monthLength d.year d.month then ⟨d.year, d.month, d.day + 1⟩
  else if d.month < 12 then ⟨d.year, d.month + 1, 1⟩
  else ⟨d.year + 1, 1, 1⟩

/-- The first of January 1970. -/
def epoch : Date := ⟨1970, 1, 1⟩

/-- A date is a number of days after the first of January 1970, counted one by one, or before it if the
number is negative. -/
def IsDay (d : Date) : Int → Prop
  | .ofNat n => next^[n] epoch = d
  | .negSucc n => next^[n + 1] d = epoch

/-- The bounds of the parts of a date in a calendar without end. -/
structure IsDate (d : Date) : Prop where
  firstYear : 1 ≤ d.year
  firstMonth : 1 ≤ d.month
  lastMonth : d.month ≤ 12
  firstDay : 1 ≤ d.day
  lastDay : d.day ≤ monthLength d.year d.month

theorem isValid_iff : d.isValid = true ↔ IsDate d ∧ d.year ≤ maxYear := by
  constructor
  · intro valid
    have bounds := inCalendar_of_isValid valid
    exact ⟨⟨bounds.firstYear, bounds.firstMonth, bounds.lastMonth, bounds.firstDay, bounds.lastDay⟩,
      bounds.lastYear⟩
  · rintro ⟨⟨firstYear, firstMonth, lastMonth, firstDay, lastDay⟩, lastYear⟩
    simp [isValid, *]

theorem isDate_of_isValid (valid : d.isValid = true) : IsDate d := (isValid_iff.mp valid).1

theorem isDate_epoch : IsDate epoch := isDate_of_isValid (by decide)

/-! ## One day -/

theorem monthLength_pos (year month : Nat) : 1 ≤ monthLength year month := by
  rw [monthLength]
  split_ifs <;> omega

theorem monthLength_le (year month : Nat) : monthLength year month ≤ 31 := by
  rw [monthLength]
  split_ifs <;> omega

/-- The parts of a date of the calendar have at most four, two and two digits. -/
theorem short_of_isValid (valid : d.isValid = true) :
    d.year < 10000 ∧ (0 < d.month ∧ d.month < 13) ∧ 0 < d.day ∧ d.day < 32 := by
  obtain ⟨⟨-, firstMonth, lastMonth, firstDay, lastDay⟩, lastYear⟩ := isValid_iff.mp valid
  have lastYear : d.year ≤ 9999 := lastYear
  have long := monthLength_le d.year d.month
  omega

theorem daysBeforeYear_succ {year : Nat} (positive : 1 ≤ year) :
    daysBeforeYear (year + 1) = daysBeforeYear year + yearLength year := by
  obtain ⟨y, rfl⟩ := Nat.exists_eq_add_of_le' positive
  have leap : isLeap (y + 1) = true ↔ 4 ∣ y + 1 ∧ (¬ 100 ∣ y + 1 ∨ 400 ∣ y + 1) := by
    simp [isLeap, Nat.dvd_iff_mod_eq_zero]
  have centuries : 100 ∣ y + 1 → 4 ∣ y + 1 := Nat.dvd_trans (by decide)
  have periods : 400 ∣ y + 1 → 100 ∣ y + 1 := Nat.dvd_trans (by decide)
  have fewer : y / 100 ≤ y / 4 := Nat.div_le_div_left (by decide) (by decide)
  simp only [daysBeforeYear, yearLength, leap, Nat.add_sub_cancel, Nat.succ_div]
  generalize y / 4 = fours, y / 100 = hundreds, y / 400 = fourHundreds at *
  split_ifs <;> omega

theorem isDate_next (isDate : IsDate d) : IsDate d.next := by
  obtain ⟨firstYear, firstMonth, lastMonth, firstDay, lastDay⟩ := isDate
  rw [next]
  by_cases inMonth : d.day < monthLength d.year d.month
  · rw [if_pos inMonth]
    exact ⟨firstYear, firstMonth, lastMonth, by simp, inMonth⟩
  · rw [if_neg inMonth]
    by_cases inYear : d.month < 12
    · rw [if_pos inYear]
      exact ⟨firstYear, by simp, inYear, Nat.le_refl 1, monthLength_pos _ _⟩
    · rw [if_neg inYear]
      exact ⟨by simp, Nat.le_refl 1, by simp, Nat.le_refl 1, monthLength_pos _ _⟩

/-- The day after a date has the next number. -/
theorem ordinal_next (isDate : IsDate d) : d.next.ordinal = d.ordinal + 1 := by
  obtain ⟨firstYear, firstMonth, lastMonth, firstDay, lastDay⟩ := isDate
  rw [next]
  by_cases inMonth : d.day < monthLength d.year d.month
  · rw [if_pos inMonth]
    rfl
  · have ends : d.day = monthLength d.year d.month := by omega
    rw [if_neg inMonth]
    by_cases inYear : d.month < 12
    · rw [if_pos inYear]
      simp only [ordinal, daysBeforeMonth_succ d.year firstMonth]
      omega
    · have december : d.month = 12 := by omega
      have all := daysBeforeMonth_succ d.year firstMonth
      rw [december, daysBeforeMonth_thirteen] at all
      have none : daysBeforeMonth (d.year + 1) 1 = 0 := rfl
      rw [if_neg inYear]
      simp only [ordinal, daysBeforeYear_succ firstYear, none, ends, december]
      omega

/-! ## Many days -/

theorem isDate_iterate (isDate : IsDate d) (n : Nat) : IsDate (next^[n] d) := by
  induction n with
  | zero => exact isDate
  | succ n ih =>
    rw [Function.iterate_succ_apply']
    exact isDate_next ih

theorem ordinal_iterate (isDate : IsDate d) (n : Nat) : (next^[n] d).ordinal = d.ordinal + n := by
  induction n with
  | zero => rfl
  | succ n ih =>
    rw [Function.iterate_succ_apply', ordinal_next (isDate_iterate isDate n), ih, Nat.add_assoc]

/-- Dates with the same number are the same: the number determines the year, and the rest of it the month
and the day. -/
theorem eq_of_ordinal_eq (isDate : IsDate d) (isDate' : IsDate e) (same : d.ordinal = e.ordinal) :
    d = e := by
  have parts {d : Date} (isDate : IsDate d) :
      splitYear (d.ordinal - 1) = (d.year, daysBeforeMonth d.year d.month + (d.day - 1)) ∧
        splitMonth d.year 11 1 (daysBeforeMonth d.year d.month + (d.day - 1)) = (d.month, d.day) := by
    obtain ⟨firstYear, firstMonth, lastMonth, firstDay, lastDay⟩ := isDate
    have inMonth : d.day - 1 < monthLength d.year d.month := by omega
    have fromZero : d.ordinal - 1 =
        daysBeforeYear d.year + (daysBeforeMonth d.year d.month + (d.day - 1)) := by
      rw [ordinal]
      omega
    have found := splitMonth_daysBeforeMonth firstMonth lastMonth inMonth
    rw [Nat.sub_add_cancel firstDay] at found
    refine ⟨?_, found⟩
    rw [fromZero, splitYear_daysBeforeYear firstYear (daysBeforeMonth_add_lt firstMonth lastMonth inMonth)]
  obtain ⟨year, month⟩ := parts isDate
  obtain ⟨year', month'⟩ := parts isDate'
  rw [same, year'] at year
  obtain ⟨sameYear, rest⟩ := Prod.mk.inj year
  rw [← rest, ← sameYear, month'] at month
  obtain ⟨sameMonth, sameDay⟩ := Prod.mk.inj month
  cases d
  cases e
  simp_all

/-- Days that are counted one by one have the numbers of the calendar. -/
theorem isDay_iff (isDate : IsDate d) (n : Int) : d.IsDay n ↔ n = d.epochDay := by
  have first : epoch.ordinal = epochOrdinal := by decide
  cases n with
  | ofNat n =>
    have reached := ordinal_iterate isDate_epoch n
    constructor
    · rintro rfl
      rw [epochDay, reached, first, Int.ofNat_eq_natCast]
      omega
    · intro same
      rw [epochDay] at same
      refine eq_of_ordinal_eq (isDate_iterate isDate_epoch n) isDate ?_
      rw [reached, first]
      rw [Int.ofNat_eq_natCast] at same
      omega
  | negSucc n =>
    have reached := ordinal_iterate isDate (n + 1)
    constructor
    · intro counted
      rw [show next^[n + 1] d = epoch from counted, first] at reached
      rw [epochDay]
      omega
    · intro same
      rw [epochDay] at same
      refine eq_of_ordinal_eq (isDate_iterate isDate (n + 1)) isDate_epoch ?_
      rw [reached, first]
      omega

/-! ## The date of a day -/

theorem ordinal_lt_endOrdinal_iff (isDate : IsDate d) : d.ordinal < endOrdinal ↔ d.year ≤ maxYear := by
  constructor
  · intro before
    by_contra late
    have years : 3652059 ≤ daysBeforeYear d.year := by
      rw [daysBeforeYear]
      rw [maxYear] at late
      omega
    have ends : endOrdinal = 3652060 := by decide
    have some := isDate.firstDay
    rw [ends, ordinal] at before
    omega
  · intro inCalendar
    exact (inCalendar_of_isValid (isValid_iff.mpr ⟨isDate, inCalendar⟩)).ordinal_lt

/-- Every day of the calendar is that of a date. -/
theorem exists_date {n : Nat} (positive : 1 ≤ n) (before : n < endOrdinal) :
    ∃ d : Date, d.isValid = true ∧ d.ordinal = n := by
  have isDate : IsDate ⟨1, 1, 1⟩ := isDate_of_isValid (by decide)
  have first : ordinal ⟨1, 1, 1⟩ = 1 := by decide
  have reached := ordinal_iterate isDate (n - 1)
  have same : (next^[n - 1] ⟨1, 1, 1⟩).ordinal = n := by omega
  have isDate := isDate_iterate isDate (n - 1)
  refine ⟨_, isValid_iff.mpr ⟨isDate, (ordinal_lt_endOrdinal_iff isDate).mp ?_⟩, same⟩
  rw [same]
  exact before

theorem ofOrdinal?_eq_some_iff (n : Int) :
    ofOrdinal? n = some d ↔ d.isValid = true ∧ (d.ordinal : Int) = n := by
  constructor
  · intro found
    have inCalendar : 1 ≤ n ∧ n < endOrdinal := by
      by_contra outside
      rw [ofOrdinal?, if_neg outside] at found
      cases found
    obtain ⟨positive, before⟩ := inCalendar
    obtain ⟨k, rfl⟩ := Int.eq_ofNat_of_zero_le (Int.le_trans Int.one_nonneg positive)
    obtain ⟨e, valid, same⟩ := exists_date (Int.ofNat_le.mp positive) (Int.ofNat_lt.mp before)
    have own := ofOrdinal?_ordinal valid
    rw [same, found] at own
    cases own
    exact ⟨valid, congrArg _ same⟩
  · rintro ⟨valid, rfl⟩
    exact ofOrdinal?_ordinal valid

/-! ## The order of dates -/

/-- A date comes before another one: it is in an earlier year, in an earlier month of the same year, or on an
earlier day of the same month. -/
def Earlier (d e : Date) : Prop :=
  d.year < e.year ∨ d.year = e.year ∧ (d.month < e.month ∨ d.month = e.month ∧ d.day < e.day)

theorem earlier_or_later (different : d ≠ e) : d.Earlier e ∨ e.Earlier d := by
  obtain ⟨year, month, day⟩ := d
  obtain ⟨year', month', day'⟩ := e
  simp only [ne_eq, mk.injEq] at different
  simp only [Earlier]
  omega

theorem daysBeforeYear_mono {year later : Nat} (positive : 1 ≤ year) (order : year ≤ later) :
    daysBeforeYear year ≤ daysBeforeYear later := by
  induction order with
  | refl => exact Nat.le_refl _
  | @step later order ih =>
    rw [daysBeforeYear_succ (Nat.le_trans positive order)]
    omega

/-- A later date has a greater number. -/
theorem ordinal_lt_of_earlier (isDate : IsDate d) (isDate' : IsDate e) (earlier : d.Earlier e) :
    d.ordinal < e.ordinal := by
  have inYear := daysBeforeMonth_add_lt isDate.firstMonth isDate.lastMonth
    (show d.day - 1 < monthLength d.year d.month by have := isDate.firstDay; have := isDate.lastDay; omega)
  have first := isDate.firstDay
  have last := isDate.lastDay
  have first' := isDate'.firstDay
  rw [ordinal, ordinal]
  rcases earlier with year | ⟨year, month | ⟨month, day⟩⟩
  · have next := daysBeforeYear_succ isDate.firstYear
    have reached := daysBeforeYear_mono (Nat.le_add_left 1 d.year) year
    omega
  · have next := daysBeforeMonth_succ d.year isDate.firstMonth
    have reached := daysBeforeMonth_mono d.year (Nat.le_add_left 1 d.month) month
    rw [← year]
    omega
  · rw [← year, ← month]
    omega

theorem ordinal_lt_iff (isDate : IsDate d) (isDate' : IsDate e) : d.ordinal < e.ordinal ↔ d.Earlier e := by
  constructor
  · intro less
    have different : d ≠ e := by
      rintro rfl
      exact Nat.lt_irrefl _ less
    rcases earlier_or_later different with earlier | later
    · exact earlier
    · have greater := ordinal_lt_of_earlier isDate' isDate later
      omega
  · intro earlier
    exact ordinal_lt_of_earlier isDate isDate' earlier

end SchemaOnRead.Date
