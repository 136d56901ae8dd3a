import SchemaOnRead.Proofs.Calendar.IsoText
import SchemaOnRead.Proofs.Columns.Inferred
import SchemaOnRead.Proofs.Record.EpochNumbers

/-!
# Timestamps

A value of a timestamp column counts from 1970 (`countedUnit?`), or its text denotes a moment (`HasText`).
The milliseconds of a moment are those of its instant, rounded down, with any reader that reads the texts of
moments (`exists_instant`) and so with the one at hand (`isoTexts_exact`). A number of seconds is rounded
towards 1970, so that the two agree on an instant unless it is before 1970 and its milliseconds are not
whole (`epochSeconds_agree_iff`).
-/

namespace SchemaOnRead

namespace Coercion

open Iso8601 (Writes readText?)

variable {f : TemporalFormat} {v : Value} {s : String} {m : Moment} {u : Int}

/-! ## Values with texts that denote moments -/

/-- A value is read by its text: a text, or a number under a format that is none of numbers. -/
inductive HasText (f : TemporalFormat) : Value → String → Prop where
  | text {s : String} (noUnit : ∀ unit, f ≠ .epoch unit) : HasText f (.text s) s
  | number {v : Value} (isNumber : v.isNumber = true) (noUnit : ∀ unit, f ≠ .epoch unit)
    (given : f ≠ .unspecified) : HasText f v v.shown

/-- How a value that is read by its text is read. -/
theorem reads_of_hasText (hasText : HasText f v s) :
    toEpochMillis f v = (toMoment s f).map Moment.millis ∧
      toEpochDays f v = (toMoment s f).map (fun m => m.date.epochDay) ∧
      ∀ ofType, countedUnit? ofType f v = none := by
  cases hasText with
  | text noUnit =>
    cases f with
    | epoch unit => exact absurd rfl (noUnit unit)
    | _ => exact ⟨rfl, rfl, fun _ => rfl⟩
  | number isNumber noUnit given =>
    cases f with
    | unspecified => exact absurd rfl given
    | epoch unit => exact absurd rfl (noUnit unit)
    | _ => exact ⟨if_pos isNumber, if_pos isNumber, fun _ => rfl⟩

theorem not_hasText_epoch (unit : EpochUnit) : ¬ HasText (.epoch unit) v s := by
  intro hasText
  cases hasText with
  | text noUnit => exact noUnit unit rfl
  | number _ noUnit => exact noUnit unit rfl

/-- A value has one text at most. -/
theorem HasText.unique {t : String} (first : HasText f v s) (second : HasText f v t) : s = t := by
  cases first with
  | text noUnit =>
    cases second with
    | text noUnit => rfl
    | number isNumber => cases isNumber
  | number isNumber =>
    cases second with
    | text noUnit => cases isNumber
    | number => rfl

/-- A text that is read denotes a moment on a day of the calendar. -/
theorem isDate_of_toMoment (read : toMoment s f = .ok m) : m.date.IsDate := by
  unfold toMoment toMomentBy at read
  split at read
  · split at read
    · cases read
    · split at read
      · cases read
      · split at read
        · rename_i found
          cases read
          exact Date.isDate_of_isValid (DatePattern.isValid_of_moment? found)
        · cases read
  · split at read
    · rename_i found
      cases read
      exact Moment.isDate_of_isValid (Iso8601.isValid_of_readText? found)
    · cases read

/-! ## Texts -/

section

variable {reader : String → Option Moment}

theorem toMomentBy_iso (iso : f = .unspecified ∨ f = .iso8601) (read : reader s = some m) :
    toMomentBy reader s f = .ok m := by
  rcases iso with rfl | rfl <;> simp [toMomentBy, read]

theorem toMoment_iso (iso : f = .unspecified ∨ f = .iso8601) (read : readText? s = some m) :
    toMoment s f = .ok m := toMomentBy_iso iso read

theorem toEpochMillisBy_iso (iso : f = .unspecified ∨ f = .iso8601) (read : reader s = some m)
    (valid : m.isValid = true) (instant : m.IsAt u) :
    toEpochMillisBy reader f (.text s) = .ok ⌊(u : ℚ) / 1000⌋ := by
  have ofMoment : toEpochMillisBy reader f (.text s) = (toMomentBy reader s f).map Moment.millis := by
    rcases iso with rfl | rfl <;> rfl
  rw [ofMoment, toMomentBy_iso iso read, ← Moment.millis_of_isAt (Moment.isDate_of_isValid valid) instant]
  rfl

theorem toEpochMillis_of_readText? (iso : f = .unspecified ∨ f = .iso8601) (read : readText? s = some m)
    (instant : m.IsAt u) : toEpochMillis f (.text s) = .ok ⌊(u : ℚ) / 1000⌋ :=
  toEpochMillisBy_iso iso read (Iso8601.isValid_of_readText? read) instant

/-- A moment is one instant, in microseconds since the start of 1970 in UTC. Whichever reader of ISO 8601
is at hand, each text of the moment is read as this instant, in milliseconds that are rounded down, whatever
the offset is with which it is written. -/
theorem exists_instant (isReader : Iso8601.IsReader reader) (f : TemporalFormat)
    (iso : f = .unspecified ∨ f = .iso8601) (m : Moment) (valid : m.isValid = true) :
    ∃ u, m.IsAt u ∧ (∀ other, m.IsAt other → other = u) ∧
      ((∀ offset ∈ m.offset, 60000000 ∣ offset) → ∃ s, Writes m s) ∧
      (∀ s, Writes m s → reader s = some m) ∧
      (∀ s, reader s = some m → toEpochMillisBy reader f (.text s) = .ok ⌊(u : ℚ) / 1000⌋) ∧
      ∀ n s t, n.IsAt u → reader s = some m → reader t = some n →
        toEpochMillisBy reader f (.text s) = toEpochMillisBy reader f (.text t) := by
  have isDate := Moment.isDate_of_isValid valid
  obtain ⟨u, instant⟩ := Moment.exists_isAt isDate
  refine ⟨u, instant, fun other same => ?_, Iso8601.exists_writes valid, fun s => isReader.reads valid,
    fun s read => toEpochMillisBy_iso iso read valid instant, fun n s t same read read' => ?_⟩
  · rw [(Moment.isAt_iff isDate).mp same, (Moment.isAt_iff isDate).mp instant]
  · rw [toEpochMillisBy_iso iso read valid instant,
      toEpochMillisBy_iso iso read' (isReader.valid read') same]

end

/-- A moment is one instant, in microseconds since the start of 1970 in UTC, and each text of it is read as
this instant, in milliseconds that are rounded down, whatever the offset is with which it is written. -/
theorem isoTexts_exact (f : TemporalFormat) (iso : f = .unspecified ∨ f = .iso8601) (m : Moment)
    (valid : m.isValid = true) :
    ∃ u, m.IsAt u ∧ (∀ other, m.IsAt other → other = u) ∧
      ((∀ offset ∈ m.offset, 60000000 ∣ offset) → ∃ s, Writes m s) ∧
      (∀ s, Writes m s → readText? s = some m) ∧
      (∀ s, readText? s = some m → toEpochMillis f (.text s) = .ok ⌊(u : ℚ) / 1000⌋) ∧
      ∀ n s t, n.IsAt u → readText? s = some m → readText? t = some n →
        toEpochMillis f (.text s) = toEpochMillis f (.text t) :=
  exists_instant Iso8601.isReader_readText? f iso m valid

/-- Half a millisecond before the start of 1970. -/
def halfBefore : Moment := ⟨⟨1969, 12, 31⟩, 23, 59, 59, 999500, some 0⟩

theorem isAt_halfBefore : halfBefore.IsAt (-500) :=
  (Moment.isAt_iff (Moment.isDate_of_isValid (by decide))).mpr (by decide)

theorem writes_halfBefore : Writes halfBefore "1969-12-31T23:59:59.9995Z" := by
  have fraction : Iso8601.Fraction 999500 ".9995".toList :=
    @Iso8601.Fraction.places '.' 4 999500 (.inl rfl) (by decide) (by decide)
  have zone : Iso8601.Zone (some 0) "Z".toList := .letter (.inl rfl)
  have clock : Iso8601.Clock true 23 59 59 999500 (some 0) "23:59:59.9995Z".toList := .seconds fraction zone
  exact .moment true true ⟨1969, 12, 31⟩ (show 'T'.toNat < 128 by decide) clock

/-- Before 1970, half a millisecond is rounded down as after it. -/
theorem isoText_halfBefore : halfBefore.isValid = true ∧
    toEpochMillis .iso8601 (.text "1969-12-31T23:59:59.9995Z") = .ok (-1) := by
  have valid : halfBefore.isValid = true := by decide
  obtain ⟨u, -, unique, -, reads, exact, -⟩ := isoTexts_exact .iso8601 (.inr rfl) halfBefore valid
  have read := exact _ (reads _ writes_halfBefore)
  have floor : ⌊((-500 : Int) : ℚ) / 1000⌋ = -1 := floor_div (-500) 1000
  rw [← unique _ isAt_halfBefore, floor] at read
  exact ⟨valid, read⟩

/-! ## Numbers of seconds -/

/-- A number is a finite decimal of this amount. -/
theorem toDecimal_of_amount? {amount : ℚ} (number : v.amount? = some amount) :
    v.isNumber = true ∧ ∃ negative c e, toDecimal v = .ok (.finite negative c e) ∧
      (Decimal.signed negative c * 10 ^ e : ℚ) = amount := by
  cases v with
  | integer n =>
    refine ⟨rfl, n < 0, n.natAbs, 0, rfl, ?_⟩
    rw [Json.signed_natAbs, zpow_zero, mul_one]
    exact Option.some.inj number
  | decimal d =>
    cases d with
    | finite negative c e => exact ⟨rfl, negative, c, e, rfl, Option.some.inj number⟩
    | infinite negative => cases number
    | nan negative signaling payload => cases number
  | _ => cases number

theorem toEpochMillis_seconds (bounded : u.natAbs < 10 ^ 18) (seconds : v.amount? = some ((u : ℚ) / 10 ^ 6)) :
    toEpochMillis (.epoch .seconds) v = .ok (u.tdiv 1000) := by
  obtain ⟨isNumber, negative, c, e, read, count⟩ := toDecimal_of_amount? seconds
  rw [toEpochMillis_of_counted (countedUnit?_epoch isNumber), read]
  exact epochMillis_seconds count bounded

theorem tdiv_eq_floor_iff (u : Int) : u.tdiv 1000 = ⌊(u : ℚ) / 1000⌋ ↔ 0 ≤ u ∨ 1000 ∣ u := by
  have floor : ⌊(u : ℚ) / 1000⌋ = u / 1000 := floor_div u 1000
  rw [floor, Int.tdiv_eq_ediv]
  split
  · simpa
  · rename_i before
    simp [before]

/-- An instant of the years 1 to 9999 as a number of seconds, and as a text in UTC: the number is rounded
towards 1970 and the text down, which is the same unless the instant is before 1970 and its milliseconds are
not whole. -/
theorem epochSeconds_agree_iff (u : Int) (first : -62135596800000000 ≤ u) (last : u < 253402300800000000)
    (v : Value) (seconds : v.amount? = some ((u : ℚ) / 10 ^ 6)) :
    toEpochMillis (.epoch .seconds) v = .ok (u.tdiv 1000) ∧
      (∃ m s, m.isValid = true ∧ m.offset = some 0 ∧ m.IsAt u ∧ Writes m s) ∧
      ∀ m s, m.isValid = true → m.offset = some 0 → m.IsAt u → Writes m s →
        toEpochMillis .iso8601 (.text s) = .ok ⌊(u : ℚ) / 1000⌋ ∧
          (toEpochMillis (.epoch .seconds) v = toEpochMillis .iso8601 (.text s) ↔ 0 ≤ u ∨ 1000 ∣ u) := by
  have number : toEpochMillis (.epoch .seconds) v = .ok (u.tdiv 1000) :=
    toEpochMillis_seconds (by omega) seconds
  refine ⟨number, ?_, fun m s valid utc instant writes => ?_⟩
  · obtain ⟨m, valid, utc, instant⟩ := Moment.exists_utc first last
    obtain ⟨s, writes⟩ := Iso8601.exists_writes valid (by simp [utc])
    exact ⟨m, s, valid, utc, instant, writes⟩
  · have text := toEpochMillis_of_readText? (.inr rfl) (Iso8601.readText?_of_writes valid writes) instant
    refine ⟨text, ?_⟩
    rw [number, text, Except.ok.injEq]
    exact tdiv_eq_floor_iff u

/-- Before 1970, half a millisecond is none as a number, and one as a text. -/
theorem epochSeconds_halfBefore :
    (Value.decimal (.finite true 5 (-4))).amount? = some (((-500 : Int) : ℚ) / 10 ^ 6) ∧
      toEpochMillis (.epoch .seconds) (.decimal (.finite true 5 (-4))) = .ok 0 ∧
      toEpochMillis .iso8601 (.text "1969-12-31T23:59:59.9995Z") ≠ .ok 0 := by
  have seconds : (Value.decimal (.finite true 5 (-4))).amount? = some (((-500 : Int) : ℚ) / 10 ^ 6) := by
    simp only [Value.amount?, Decimal.signed]
    norm_num
  obtain ⟨number, -, texts⟩ := epochSeconds_agree_iff (-500) (by decide) (by decide) _ seconds
  have text := texts halfBefore _ (by decide) rfl isAt_halfBefore writes_halfBefore
  refine ⟨seconds, number, fun none => ?_⟩
  rw [number, none] at text
  have early := text.2.mp rfl
  omega

end Coercion

end SchemaOnRead
