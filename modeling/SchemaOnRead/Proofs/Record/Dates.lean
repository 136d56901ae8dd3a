import SchemaOnRead.Proofs.Record.Timestamps

/-!
# Dates

The date of a value is the day in UTC of its timestamp, with two exceptions: a text with an offset denotes the
day that it shows, and a text that is a number of days is not rounded as its milliseconds are
(`dates_followTimestamps`). A number is read as its text is, with two exceptions for numbers of days: a text
with a point or an exponent is not read, and again the text is not rounded (`numbers_readAsTexts`). Rounding
moves no day of 25 digits (`not_moved`).
-/

namespace SchemaOnRead

namespace Coercion

variable {f : TemporalFormat} {v : Value} {s : String} {m : Moment} {days millis n : Int}

/-! ## Numbers of days -/

/-- The milliseconds of a day are those of another one when 28 digits of them are kept. -/
def Moved (n : Int) : Prop :=
  let millis := Decimal.toPrecision 28 (n * 86400000)
  millis < n * 86400000 ∨ (n + 1) * 86400000 ≤ millis

instance (n : Int) : Decidable (Moved n) := inferInstanceAs (Decidable (_ ∨ _))

/-- Days of no more than 25 digits are not moved, since their milliseconds end in zeros. -/
theorem not_moved (few : n.natAbs < 10 ^ 25) : ¬ Moved n := by
  have short : Decimal.width (n * 86400000).natAbs ≤ 33 := (Decimal.width_le_iff (by decide)).mpr (by omega)
  have zeros : ((n * 86400000 : Int) : ℚ) = (n * 864 : Int) * 10 ^ (5 : Int) := by
    push_cast
    ring
  have exactly := Decimal.toPrecision_eq 28 (n * 86400000)
  rw [Decimal.nearest_eq_self zeros (by omega)] at exactly
  have exactly : Decimal.toPrecision 28 (n * 86400000) = n * 86400000 := by exact_mod_cast exactly
  rw [Moved, exactly]
  omega

example : Moved (10 ^ 26 + 1) := by decide +kernel

theorem floor_toPrecision_iff (n : Int) :
    ⌊((Decimal.toPrecision 28 (n * 86400000) : Int) : ℚ) / 86400000⌋ = n ↔ ¬ Moved n := by
  have floor : ⌊((Decimal.toPrecision 28 (n * 86400000) : Int) : ℚ) / 86400000⌋ =
      Decimal.toPrecision 28 (n * 86400000) / 86400000 := floor_div _ 86400000
  rw [floor, Moved]
  omega

theorem fdiv_day (millis : Int) : millis.fdiv EpochUnit.days.millis = ⌊(millis : ℚ) / 86400000⌋ := by
  have floor : ⌊(millis : ℚ) / 86400000⌋ = millis / 86400000 := floor_div millis 86400000
  rw [floor]
  exact Int.fdiv_eq_ediv_of_nonneg millis (by decide)

theorem toEpochMillis_of_ofText? {d : Decimal} (unit : EpochUnit) (read : Decimal.ofText? s = some d) :
    toEpochMillis (.epoch unit) (.text s) = epochMillis d unit := by
  rw [toEpochMillis_of_counted rfl, toDecimal, read]
  rfl

/-- The milliseconds of a text that is a number of days. -/
theorem toEpochMillis_of_readInteger? (read : readInteger? s = some n) :
    toEpochMillis (.epoch .days) (.text s) = .ok (Decimal.toPrecision 28 (n * 86400000)) := by
  obtain ⟨negative, c, decimal, rfl, short⟩ := ofText?_of_readInteger? read
  exact (toEpochMillis_of_ofText? .days decimal).trans (epochMillis_days negative short)

theorem toEpochDays_integer (s : String) : toEpochDays (.epoch .days) (.text s) = toInteger (.text s) := by
  rw [toEpochDays, if_neg (show ¬ (Value.text s).isNumber = true from nofun)]

theorem readInteger?_of_toEpochDays (date : toEpochDays (.epoch .days) (.text s) = .ok days) :
    readInteger? s = some days := by
  rw [toEpochDays_integer, toInteger] at date
  split at date
  · rename_i n read
    cases date
    exact read
  · cases date

/-! ## Dates and timestamps -/

/-- The ways in which a value of a date column is read, if its text or the format says how. -/
inductive Way (f : TemporalFormat) : Value → Prop where
  | counted {v : Value} {unit : EpochUnit} (days : countedUnit? .days f v = some unit)
    (millis : countedUnit? .milliseconds f v = some unit) : Way f v
  | integer {s : String} (days : f = .epoch .days) : Way f (.text s)
  | moment {v : Value} {s : String} (hasText : HasText f v s) : Way f v

theorem way_of_ok (given : f ≠ .unspecified ∨ ∃ s, v = .text s) (date : toEpochDays f v = .ok days) :
    Way f v := by
  by_cases isNumber : v.isNumber = true
  · have given : f ≠ .unspecified := by
      rcases given with given | ⟨s, rfl⟩
      · exact given
      · cases isNumber
    cases f with
    | unspecified => exact absurd rfl given
    | epoch unit => exact .counted (countedUnit?_epoch isNumber) (countedUnit?_epoch isNumber)
    | iso8601 => exact .moment (.number isNumber (fun _ => nofun) given)
    | pattern p => exact .moment (.number isNumber (fun _ => nofun) given)
  · cases v with
    | text s =>
      cases f with
      | epoch unit =>
        cases unit with
        | days => exact .integer rfl
        | seconds => exact .counted rfl rfl
        | milliseconds => exact .counted rfl rfl
      | _ => exact .moment (.text fun _ => nofun)
    | integer n => exact absurd rfl isNumber
    | decimal d => exact absurd rfl isNumber
    | double x => exact absurd rfl isNumber
    | _ => cases date

/-- A value whose date is not the day in UTC of its timestamp: the clock in UTC shows another day than the
text does, or the text is a number of days with so many digits that its milliseconds are those of another
day. -/
inductive Strays (f : TemporalFormat) (v : Value) : Prop where
  | offset {s : String} {m : Moment} (hasText : HasText f v s) (read : toMoment s f = .ok m)
    (otherDay : m.clockInUtc < 0 ∨ Moment.microsPerDay ≤ m.clockInUtc) : Strays f v
  | rounded {s : String} {n : Int} (days : f = .epoch .days) (text : v = .text s)
    (read : readInteger? s = some n) (moved : Moved n) : Strays f v

theorem not_strays_of_counted {unit : EpochUnit} (counted : countedUnit? .days f v = some unit) :
    ¬ Strays f v := by
  rintro (⟨hasText⟩ | ⟨rfl, rfl⟩)
  · rw [(reads_of_hasText hasText).2.2] at counted
    cases counted
  · cases counted

theorem strays_integer_iff (read : readInteger? s = some n) : Strays (.epoch .days) (.text s) ↔ Moved n := by
  constructor
  · rintro (⟨hasText⟩ | ⟨-, same, other, moved⟩)
    · exact absurd hasText (not_hasText_epoch _)
    · cases same
      rw [read, Option.some.injEq] at other
      exact other ▸ moved
  · exact .rounded rfl rfl read

theorem strays_hasText_iff (hasText : HasText f v s) (read : toMoment s f = .ok m) :
    Strays f v ↔ m.clockInUtc < 0 ∨ (Moment.microsPerDay : Int) ≤ m.clockInUtc := by
  constructor
  · rintro (⟨other, readOther, otherDay⟩ | ⟨rfl, rfl⟩)
    · rw [other.unique hasText, read] at readOther
      cases readOther
      exact otherDay
    · exact absurd hasText (not_hasText_epoch _)
  · exact .offset hasText read

/-- A date and a timestamp that are read from a value: the date is the day in UTC of the timestamp unless the
value strays, and if the value has a text that denotes a moment, it is the day that the text shows. -/
theorem dates_followTimestamps (f : TemporalFormat) (v : Value)
    (given : f ≠ .unspecified ∨ ∃ s, v = .text s) (days millis : Int) (date : toEpochDays f v = .ok days)
    (timestamp : toEpochMillis f v = .ok millis) :
    (days = ⌊(millis : ℚ) / 86400000⌋ ↔ ¬ Strays f v) ∧
      ∀ s m, HasText f v s → toMoment s f = .ok m → m.date.IsDay days := by
  cases way_of_ok given date with
  | counted countedDays countedMillis =>
    rw [toEpochMillis_of_counted countedMillis] at timestamp
    rw [toEpochDays_of_counted countedDays, timestamp] at date
    have same : days = ⌊(millis : ℚ) / 86400000⌋ := (Except.ok.inj date).symm.trans (fdiv_day millis)
    refine ⟨iff_of_true same (not_strays_of_counted countedDays), fun s m hasText _ => ?_⟩
    rw [(reads_of_hasText hasText).2.2] at countedDays
    cases countedDays
  | @integer s inDays =>
    subst inDays
    have read := readInteger?_of_toEpochDays date
    rw [toEpochMillis_of_readInteger? read, Except.ok.injEq] at timestamp
    refine ⟨?_, fun s m hasText _ => absurd hasText (not_hasText_epoch _)⟩
    rw [← timestamp, eq_comm, floor_toPrecision_iff, strays_integer_iff read]
  | @moment _ s hasText =>
    obtain ⟨readMillis, readDays, -⟩ := reads_of_hasText hasText
    rw [readMillis] at timestamp
    rw [readDays] at date
    cases read : toMoment s f with
    | error failure =>
      rw [read] at date
      cases date
    | ok m =>
      rw [read] at date timestamp
      cases date
      cases timestamp
      refine ⟨?_, fun t n other readOther => ?_⟩
      · rw [Moment.epochDay_eq_floor_iff, strays_hasText_iff hasText read]
        omega
      · rw [other.unique hasText, read] at readOther
        cases readOther
        exact (Date.isDay_iff (isDate_of_toMoment read) _).mpr rfl

/-- Half an hour after midnight, two hours east of UTC. -/
def pastMidnight : Moment := ⟨⟨1970, 1, 1⟩, 0, 30, 0, 0, some 7200000000⟩

theorem readText?_pastMidnight : Iso8601.readText? "1970-01-01T00:30:00+02:00" = some pastMidnight := by
  have zone : Iso8601.Zone (some 120) "+02:00".toList :=
    @Iso8601.Zone.minutes false true 2 0 (by decide) (by decide)
  have clock : Iso8601.Clock true 0 30 0 0 (some 120) "00:30:00+02:00".toList := .seconds .absent zone
  exact Iso8601.readText?_of_writes (by decide)
    (.moment true true ⟨1970, 1, 1⟩ (show 'T'.toNat < 128 by decide) clock)

/-- Half an hour after midnight, the day in UTC is another one. -/
theorem date_pastMidnight :
    toEpochDays .iso8601 (.text "1970-01-01T00:30:00+02:00") = .ok 0 ∧
      toEpochMillis .iso8601 (.text "1970-01-01T00:30:00+02:00") = .ok (-5400000) ∧
      Strays .iso8601 (.text "1970-01-01T00:30:00+02:00") := by
  have hasText : HasText .iso8601 (.text "1970-01-01T00:30:00+02:00") "1970-01-01T00:30:00+02:00" :=
    .text fun _ => nofun
  have read : toMoment "1970-01-01T00:30:00+02:00" .iso8601 = .ok pastMidnight :=
    toMoment_iso (.inr rfl) readText?_pastMidnight
  have date : toEpochDays .iso8601 (.text "1970-01-01T00:30:00+02:00") = .ok 0 := by
    have day : pastMidnight.date.epochDay = 0 := by decide
    rw [(reads_of_hasText hasText).2.1, read, Except.map, day]
  have timestamp : toEpochMillis .iso8601 (.text "1970-01-01T00:30:00+02:00") = .ok (-5400000) := by
    have millis : pastMidnight.millis = -5400000 := by decide
    rw [(reads_of_hasText hasText).1, read, Except.map, millis]
  have agree := (dates_followTimestamps .iso8601 _ (.inl nofun) 0 (-5400000) date timestamp).1
  have floor : ⌊((-5400000 : Int) : ℚ) / 86400000⌋ = -1 := floor_div (-5400000) 86400000
  rw [floor] at agree
  exact ⟨date, timestamp, by_contra fun noStray => absurd (agree.mpr noStray) (by decide)⟩

/-! ## Numbers and their texts -/

/-- A number that was read, as a decimal and as a text. -/
theorem number_cases (decoded : Json.Decoded v) {amount : ℚ} (number : v.amount? = some amount) :
    v.isNumber = true ∧ v.shown = Json.compact v ∧
      ∃ negative c e, Decimal.representable c e = true ∧ toDecimal v = .ok (.finite negative c e) ∧
        Json.compact v = Decimal.text (.finite negative c e) ∧
        (v = .decimal (.finite negative c e) ∨
          v = .integer (Decimal.signed negative c) ∧ e = 0 ∧ Decimal.width c ≤ 4300) := by
  cases decoded with
  | @integer n short =>
    have written : Json.compact (.integer n) = Decimal.text (.finite (n < 0) n.natAbs 0) :=
      (Decimal.text_ofInt n).symm
    refine ⟨rfl, rfl, n < 0, n.natAbs, 0, Decimal.representable_integer short, rfl, written,
      .inr ⟨?_, rfl, short⟩⟩
    rw [Json.signed_natAbs]
  | @decimal negative c e held => exact ⟨rfl, rfl, negative, c, e, held, rfl, rfl, .inl rfl⟩
  | _ => cases number

/-- Two readers both fail, or both answer with the same. -/
def Agree (r other : Result Int) : Prop := ∀ n, r = .ok n ↔ other = .ok n

theorem agree_ok_iff (n other : Int) : Agree (.ok n) (.ok other) ↔ n = other := by
  constructor
  · intro agree
    exact (Except.ok.inj ((agree n).mp rfl)).symm
  · rintro rfl
    exact fun _ => Iff.rfl

theorem agree_mismatch_iff (r : Result Int) (how : Mismatch) : Agree r (mismatch how) ↔ ∀ n, r ≠ .ok n := by
  constructor
  · intro agree n answer
    cases (agree n).mp answer
  · intro fails n
    exact iff_of_false (fails n) nofun

/-- A number of days that is not read as its text is: a decimal that can be counted, and is written with a
point, an exponent or too many digits for an integer, or a number with so many digits that its milliseconds
are those of another day. -/
inductive ReadsApart : Value → Prop where
  | decimal {negative : Bool} {c : Nat} {e : Int} (written : e ≠ 0 ∨ 4300 < Decimal.width c)
    (counted : ¬ IsTooLarge (.finite negative c e) .days) : ReadsApart (.decimal (.finite negative c e))
  | whole {negative : Bool} {c : Nat} (short : Decimal.width c ≤ 4300)
    (moved : Moved (Decimal.signed negative c)) : ReadsApart (.decimal (.finite negative c 0))
  | integer {n : Int} (moved : Moved n) : ReadsApart (.integer n)

theorem readsApart_decimal_iff {negative : Bool} {c : Nat} {e : Int}
    (written : e ≠ 0 ∨ 4300 < Decimal.width c) :
    ReadsApart (.decimal (.finite negative c e)) ↔ ¬ IsTooLarge (.finite negative c e) .days := by
  constructor
  · rintro (⟨-, counted⟩ | ⟨short, -⟩)
    · exact counted
    · omega
  · exact .decimal written

theorem readsApart_whole_iff {negative : Bool} {c : Nat} (short : Decimal.width c ≤ 4300) :
    ReadsApart (.decimal (.finite negative c 0)) ↔ Moved (Decimal.signed negative c) := by
  constructor
  · rintro (⟨written, -⟩ | ⟨-, moved⟩)
    · omega
    · exact moved
  · exact .whole short

theorem readsApart_integer_iff (n : Int) : ReadsApart (.integer n) ↔ Moved n :=
  ⟨fun | .integer moved => moved, .integer⟩

/-- Counting a finite number fails only if it is too large. -/
theorem epochMillis_fails_iff {d : Decimal} (isFinite : d.isFinite = true) (unit : EpochUnit)
    (round : Int → Int) :
    (∀ n, (epochMillis d unit).map round ≠ .ok n) ↔ IsTooLarge d unit := by
  constructor
  · intro fails
    by_contra small
    obtain ⟨n, counted⟩ := epochMillis_of_isFinite isFinite small
    rw [counted] at fails
    exact fails _ rfl
  · intro large n answer
    rw [epochMillis_of_isTooLarge large] at answer
    cases answer

theorem toEpochDays_of_number (isNumber : v.isNumber = true) {d : Decimal} (read : toDecimal v = .ok d) :
    toEpochDays (.epoch .days) v = (epochMillis d .days).map fun n => n.fdiv EpochUnit.days.millis := by
  rw [toEpochDays_of_counted (countedUnit?_epoch isNumber), read]
  rfl

/-- A number of days and its text. -/
theorem agree_days_iff (decoded : Json.Decoded v) {amount : ℚ} (number : v.amount? = some amount) :
    Agree (toEpochDays (.epoch .days) v) (toEpochDays (.epoch .days) (.text (Json.compact v))) ↔
      ¬ ReadsApart v := by
  obtain ⟨isNumber, -, negative, c, e, -, read, text, forms⟩ := number_cases decoded number
  rw [toEpochDays_of_number isNumber read, toEpochDays_integer, toInteger, text, readInteger?_text]
  by_cases whole : e = 0 ∧ Decimal.width c ≤ 4300
  · obtain ⟨rfl, short⟩ := whole
    have apart : ReadsApart v ↔ Moved (Decimal.signed negative c) := by
      rcases forms with rfl | ⟨rfl, -⟩
      · exact readsApart_whole_iff short
      · exact readsApart_integer_iff _
    rw [if_pos ⟨rfl, short⟩, epochMillis_days negative short, apart]
    change Agree (.ok (Int.fdiv _ _)) (.ok _) ↔ _
    rw [agree_ok_iff, fdiv_day, floor_toPrecision_iff]
  · obtain rfl : v = .decimal (.finite negative c e) := forms.resolve_right fun integer => whole integer.2
    have fails := epochMillis_fails_iff (show (Decimal.finite negative c e).isFinite = true from rfl) .days
    rw [if_neg whole, readsApart_decimal_iff (by omega), not_not, agree_mismatch_iff, fails]

/-- A number and its text are read as the same timestamp, and unless they count days as the same date. As
days they are read alike unless they are of those that are listed. -/
theorem numbers_readAsTexts (v : Value) (decoded : Json.Decoded v) (amount : ℚ)
    (number : v.amount? = some amount) (f : TemporalFormat) (given : f ≠ .unspecified) :
    toEpochMillis f v = toEpochMillis f (.text (Json.compact v)) ∧
      (f ≠ .epoch .days → toEpochDays f v = toEpochDays f (.text (Json.compact v))) ∧
      (f = .epoch .days →
        (Agree (toEpochDays f v) (toEpochDays f (.text (Json.compact v))) ↔ ¬ ReadsApart v)) := by
  obtain ⟨isNumber, shown, negative, c, e, held, read, text, -⟩ := number_cases decoded number
  by_cases counts : ∃ unit, f = .epoch unit
  · obtain ⟨unit, rfl⟩ := counts
    have same : toDecimal (.text (Json.compact v)) = toDecimal v := by
      rw [toDecimal, text, Decimal.ofText?_text negative held, read]
    refine ⟨?_, fun noDays => ?_, ?_⟩
    · rw [toEpochMillis_of_counted (countedUnit?_epoch isNumber), toEpochMillis_of_counted rfl, same]
    · have counted : countedUnit? .days (.epoch unit) (.text (Json.compact v)) = some unit :=
        if_neg fun days => noDays (congrArg _ days.2)
      rw [toEpochDays_of_counted (countedUnit?_epoch isNumber), toEpochDays_of_counted counted, same]
    · rintro ⟨⟩
      exact agree_days_iff decoded number
  · have noUnit : ∀ unit, f ≠ .epoch unit := fun unit same => counts ⟨unit, same⟩
    have hasText : HasText f v (Json.compact v) := shown ▸ .number isNumber noUnit given
    have textHasText : HasText f (.text (Json.compact v)) (Json.compact v) := .text noUnit
    refine ⟨?_, fun _ => ?_, fun days => absurd days (noUnit _)⟩
    · rw [(reads_of_hasText hasText).1, (reads_of_hasText textHasText).1]
    · rw [(reads_of_hasText hasText).2.1, (reads_of_hasText textHasText).2.1]

/-- One and a half days are a number, and no text. -/
theorem oneAndHalf_readsApart :
    Json.Decoded (.decimal (.finite false 15 (-1))) ∧
      (Value.decimal (.finite false 15 (-1))).amount? = some (15 * 10 ^ (-1 : Int)) ∧
      ¬ Agree (toEpochDays (.epoch .days) (.decimal (.finite false 15 (-1))))
        (toEpochDays (.epoch .days) (.text (Json.compact (.decimal (.finite false 15 (-1)))))) := by
  have decoded : Json.Decoded (.decimal (.finite false 15 (-1))) := .decimal (by decide)
  have number : (Value.decimal (.finite false 15 (-1))).amount? = some (15 * 10 ^ (-1 : Int)) := rfl
  have small : ¬ IsTooLarge (.finite false 15 (-1)) .days := fun large => absurd large.overflows (by decide)
  have apart := (numbers_readAsTexts _ decoded _ number (.epoch .days) nofun).2.2 rfl
  exact ⟨decoded, number, fun agree => apart.mp agree (.decimal (.inl (by decide)) small)⟩

end Coercion

end SchemaOnRead
