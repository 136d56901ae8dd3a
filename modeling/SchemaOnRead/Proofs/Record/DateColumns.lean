import SchemaOnRead.Proofs.Record.Dates

/-!
# Dates and their day numbers

A date column without a format reads the text of a date, and the number of days from the first of January 1970
to it, as the date and as that number (`dates_roundTrip`). The numbers are those of days counted one by one,
and go up with the dates.
-/

namespace SchemaOnRead

variable {d : Date} {n : Int}

/-! ## Reading a date and its day number -/

namespace Coercion

/-- The text of a date is the one that ISO 8601 has for it, with hyphens. -/
theorem writes_date (d : Date) : Iso8601.Writes ⟨d, 0, 0, 0, 0, none⟩ d.text := by
  have same : d.chars = Iso8601.dateChars true d := by
    simp [Date.chars, Iso8601.dateChars, Iso8601.digits, Iso8601.mark]
  rw [Date.text, same]
  exact .date true d

theorem toEpochDays_text (valid : d.isValid = true) :
    toEpochDays .unspecified (.text d.text) = .ok d.epochDay := by
  have midnight : Moment.isValid ⟨d, 0, 0, 0, 0, none⟩ = true := by simp [Moment.isValid, valid]
  have read := Iso8601.readText?_of_writes midnight (writes_date d)
  have hasText : HasText .unspecified (.text d.text) d.text := .text fun _ absent => by cases absent
  rw [(reads_of_hasText hasText).2.1, toMoment_iso (.inl rfl) read]
  rfl

/-- A number without a format counts days. -/
theorem toEpochDays_unspecified {v : Value} {number : Decimal} (isNumber : v.isNumber = true)
    (read : toDecimal v = .ok number) :
    toEpochDays .unspecified v =
      (epochMillis number .days).map fun millis => millis.fdiv EpochUnit.days.millis := by
  rw [toEpochDays_of_counted (countedUnit?_unspecified isNumber), read]
  rfl

/-- A whole number of days of no more than 25 digits is read as it is. -/
theorem toEpochDays_count (few : n.natAbs < 10 ^ 25) : toEpochDays .unspecified (.integer n) = .ok n := by
  have short : Decimal.width n.natAbs ≤ 25 := (Decimal.width_le_iff (by decide)).mpr few
  have millis := epochMillis_days (n < 0) (show Decimal.width n.natAbs ≤ 4300 by omega)
  have days := @toEpochDays_unspecified (.integer n) _ rfl rfl
  rw [Json.signed_natAbs] at millis
  rw [days, Decimal.ofInt, millis, Except.map, fdiv_day, (floor_toPrecision_iff n).mpr (not_moved few)]

theorem toDate_epochDay (valid : d.isValid = true) : toDate d.epochDay = .ok d := by
  rw [toDate, Date.ofEpochDay?_epochDay valid]

/-- The days from 1970 to a date of the calendar are few. -/
theorem natAbs_epochDay_lt (valid : d.isValid = true) : d.epochDay.natAbs < 10 ^ 25 := by
  have last := (Date.inCalendar_of_isValid valid).ordinal_lt
  have ends : Date.endOrdinal = 3652060 := by decide
  have epoch : (Date.epochOrdinal : Int) = 719163 := rfl
  rw [Date.epochDay, epoch]
  omega

end Coercion

/-! ## Date columns -/

namespace Cursor

variable {c : Cursor} {i : Nat} {column : Column} {v : Value}

theorem getInteger_of_raw (found : c.raw i = .ok (column, v)) (present : v.isNull = false) :
    c.getInteger i = CellPlace.readInteger ⟨column, c.line, c.path⟩ v := by
  rw [getInteger, Cursor.present, found]
  simp [bind, Except.bind, present]

/-- A value that a date column without a format reads as the day of a date of the calendar is given as the
date and as its day number. -/
theorem reads_of_toEpochDays (type : column.type = .date) (noFormat : column.format = none)
    (valid : d.isValid = true) (found : c.raw i = .ok (column, v))
    (days : Coercion.toEpochDays .unspecified v = .ok d.epochDay) :
    c.getValue i = .ok (some (.date d)) ∧ c.getInteger i = .ok d.epochDay := by
  have present : v.isNull = false := by
    cases v with
    | null => cases days
    | _ => rfl
  have temporal : CellPlace.temporal ⟨column, c.line, c.path⟩ = .unspecified := by
    rw [CellPlace.temporal, noFormat]
    rfl
  have integer : CellPlace.readInteger ⟨column, c.line, c.path⟩ v = .ok d.epochDay := by
    simp only [CellPlace.readInteger, type, temporal]
    exact CellPlace.coerce_of_ok days
  constructor
  · rw [getValue_of_raw found, present, CellPlace.read]
    simp only [type, integer]
    change ((Coercion.toDate d.epochDay).bind _).map some = _
    rw [Coercion.toDate_epochDay valid]
    rfl
  · rw [getInteger_of_raw found present, integer]

/-- A date of the calendar has a number of days, counted one by one from the first of January 1970. A date
column without a format that reads the text of the date, or this number, gives the date, and the number if it
is asked for one. Later dates have greater numbers. -/
theorem dates_roundTrip (type : column.type = .date) (noFormat : column.format = none)
    (valid : d.isValid = true) :
    ∃ n, d.IsDay n ∧
      (∀ (c : Cursor) (i : Nat) (v : Value), v = .text d.text ∨ v = .integer n →
        c.raw i = .ok (column, v) → c.getValue i = .ok (some (.date d)) ∧ c.getInteger i = .ok n) ∧
      ∀ e m, e.isValid = true → e.IsDay m → (d.Earlier e ↔ n < m) := by
  have isDate := Date.isDate_of_isValid valid
  refine ⟨d.epochDay, (Date.isDay_iff isDate _).mpr rfl, ?_, ?_⟩
  · intro c i v written found
    apply reads_of_toEpochDays type noFormat valid found
    rcases written with rfl | rfl
    · exact Coercion.toEpochDays_text valid
    · exact Coercion.toEpochDays_count (Coercion.natAbs_epochDay_lt valid)
  · intro e m valid' day
    have isDate' := Date.isDate_of_isValid valid'
    rw [← Date.ordinal_lt_iff isDate isDate', (Date.isDay_iff isDate' m).mp day, Date.epochDay, Date.epochDay]
    omega

/-- A date column without a format. -/
def dayColumn : Column := { name := "day", type := .date }

/-- A cursor on a record with a value for the column. -/
def onDay (v : Value) : Cursor :=
  { path := "/a.json", columns := [dayColumn], limit := 64, totalBytes := none, partitionValues := []
    state := .positioned, fields := [("day", v)], line := 1 }

/-- The last day before 1970 is read from its text and from its number. -/
theorem dates_roundTrip_lastDay :
    dayColumn.type = .date ∧ dayColumn.format = none ∧ Date.isValid ⟨1969, 12, 31⟩ = true ∧
      (onDay (.text "1969-12-31")).getValue 0 = .ok (some (.date ⟨1969, 12, 31⟩)) ∧
      (onDay (.text "1969-12-31")).getInteger 0 = .ok (-1) ∧
      (onDay (.integer (-1))).getValue 0 = .ok (some (.date ⟨1969, 12, 31⟩)) ∧
      (onDay (.integer (-1))).getInteger 0 = .ok (-1) := by
  have valid : Date.isValid ⟨1969, 12, 31⟩ = true := by decide
  have written : Date.text ⟨1969, 12, 31⟩ = "1969-12-31" := by decide
  obtain ⟨n, day, reads, -⟩ := @dates_roundTrip ⟨1969, 12, 31⟩ dayColumn rfl rfl valid
  have number : n = -1 := (Date.isDay_iff (Date.isDate_of_isValid valid) n).mp day
  subst number
  have ofText := reads (onDay (.text "1969-12-31")) 0 _ (.inl (congrArg _ written.symm)) rfl
  have ofNumber := reads (onDay (.integer (-1))) 0 _ (.inr rfl) rfl
  exact ⟨rfl, rfl, valid, ofText.1, ofText.2, ofNumber.1, ofNumber.2⟩

end Cursor

end SchemaOnRead
