import Mathlib.Data.Rat.Floor
import SchemaOnRead.Calendar.Moment
import SchemaOnRead.Proofs.Calendar.Days

/-!
# Moments as instants

A moment is the instant that is some number of microseconds after the start of 1970 in UTC (`IsAt`): days
counted one by one, and the time on the clock, less its offset. Its duration since the start of 1970 is a
difference of two durations in normal form, of either sign, and has this number of microseconds
(`isAt_iff`), so that its milliseconds are those of the instant, rounded down (`millis_of_isAt`).
-/

namespace SchemaOnRead

theorem floor_div (n : Int) (k : Nat) : ⌊(n : ℚ) / k⌋ = n / k := Rat.floor_intCast_div_natCast n k

namespace Duration

/-- The microseconds of a duration. -/
def total (t : Duration) : Int := (t.days * 86400 + t.seconds) * 1000000 + t.micros

theorem total_normal (days seconds micros : Int) :
    (normal days seconds micros).total = (days * 86400 + seconds) * 1000000 + micros := by
  simp only [total, normal]
  omega

theorem total_minus (t later : Duration) : (t.minus later).total = t.total - later.total := by
  rw [minus, total_normal, total, total]
  omega

theorem millis_eq (t : Duration) : t.millis = t.total / 1000 := by
  have small := t.micros_lt
  rw [millis, total]
  omega

end Duration

namespace Moment

variable {m : Moment} {u : Int}

/-- The microseconds of the day that have passed on the clock. -/
def clock (m : Moment) : Nat := ((m.hour * 60 + m.minute) * 60 + m.second) * 1000000 + m.micro

/-- The microseconds that have passed since the day of the date began in UTC, which may be less than
none, or more than a day has. -/
def clockInUtc (m : Moment) : Int := m.clock - m.offset.getD 0

/-- A moment is the instant `u` microseconds after the start of 1970 in UTC. -/
def IsAt (m : Moment) (u : Int) : Prop := ∃ n, m.date.IsDay n ∧ u = n * microsPerDay + m.clockInUtc

theorem total_sinceEpoch (m : Moment) :
    m.sinceEpoch.total = m.date.epochDay * microsPerDay + m.clockInUtc := by
  rw [sinceEpoch, Duration.total_minus, Duration.total_normal, Duration.total_normal, clockInUtc, clock,
    microsPerDay]
  omega

theorem isValid_date (valid : m.isValid = true) : m.date.isValid = true := by
  simp only [isValid, Bool.and_eq_true] at valid
  exact valid.1.1.1.1.1

theorem isDate_of_isValid (valid : m.isValid = true) : m.date.IsDate :=
  Date.isDate_of_isValid (isValid_date valid)

theorem isAt_iff (isDate : m.date.IsDate) : m.IsAt u ↔ u = m.sinceEpoch.total := by
  simp only [IsAt, Date.isDay_iff isDate, exists_eq_left, total_sinceEpoch]

/-- The milliseconds of an instant are rounded down, before 1970 as well. -/
theorem millis_of_isAt (isDate : m.date.IsDate) (instant : m.IsAt u) : m.millis = ⌊(u : ℚ) / 1000⌋ := by
  rw [millis, Duration.millis_eq, ← (isAt_iff isDate).mp instant]
  exact (floor_div u 1000).symm

theorem exists_isAt (isDate : m.date.IsDate) : ∃ u, m.IsAt u := ⟨_, (isAt_iff isDate).mpr rfl⟩

/-- The date is that of the day in UTC if the clock in UTC has not gone back before the day, nor beyond
it. -/
theorem epochDay_eq_floor_iff (m : Moment) :
    m.date.epochDay = ⌊(m.millis : ℚ) / 86400000⌋ ↔ 0 ≤ m.clockInUtc ∧ m.clockInUtc < microsPerDay := by
  have floor : ⌊(m.millis : ℚ) / 86400000⌋ = m.millis / 86400000 := floor_div m.millis 86400000
  rw [floor, millis, Duration.millis_eq, total_sinceEpoch, microsPerDay]
  omega

/-- Every instant of the years 1 to 9999 is that of a moment in UTC. -/
theorem exists_utc (first : -62135596800000000 ≤ u) (last : u < 253402300800000000) :
    ∃ m : Moment, m.isValid = true ∧ m.offset = some 0 ∧ m.IsAt u := by
  have ends : (Date.endOrdinal : Int) = 3652060 := by decide
  have epoch : (Date.epochOrdinal : Int) = 719163 := rfl
  obtain ⟨n, same⟩ := Int.eq_ofNat_of_zero_le (show 0 ≤ u / 86400000000 + 719163 by omega)
  obtain ⟨d, valid, number⟩ := Date.exists_date (n := n) (by omega) (by
    rw [← Int.ofNat_lt, ends]
    omega)
  let rest := (u % 86400000000).toNat
  let m : Moment := ⟨d, rest / 3600000000, rest / 60000000 % 60, rest / 1000000 % 60, rest % 1000000, some 0⟩
  have time : m.clock = rest := by
    simp only [m, clock]
    omega
  have bounded : m.isValid = true := by
    have hour : rest / 3600000000 < 24 := by omega
    have minute : rest / 60000000 % 60 < 60 := by omega
    have second : rest / 1000000 % 60 < 60 := by omega
    have micro : rest % 1000000 < 1000000 := by omega
    simp [m, isValid, valid, hour, minute, second, micro, microsPerDay]
  refine ⟨m, bounded, rfl, (isAt_iff (isDate_of_isValid bounded)).mpr ?_⟩
  have day : m.date.epochDay = u / 86400000000 := by
    rw [Date.epochDay, number, epoch]
    omega
  have noOffset : m.offset.getD 0 = 0 := rfl
  rw [total_sinceEpoch, day, clockInUtc, time, noOffset, microsPerDay]
  omega

end Moment

end SchemaOnRead
