import SchemaOnRead.Proofs.Json.Decoded
import SchemaOnRead.Proofs.Numeric.DoubleRange
import SchemaOnRead.Record.Cell

/-!
# How reading a value as a column's type ends

A value of a record is read, or it does not fit and that is reported with the place where it stands,
or reading it breaks off in another way. `Breaks` lists the values with which it breaks off: integers
beyond the doubles, Base64 text that is not ASCII, days outside the calendar, and numbers of seconds
or days with which the calculation overflows (`read_ends`, `read_of_breaks`).
-/

namespace SchemaOnRead

namespace Coercion

/-- How a reader ends: it reads the value, or the value does not fit, or it breaks off. -/
inductive Ends {α : Type} (broken : Kind → Prop) : Result α → Prop where
  | ok (a : α) : Ends broken (.ok a)
  | misfit (m : Mismatch) : Ends broken (mismatch m)
  | broke {kind : Kind} (how : broken kind) : Ends broken (fail (.other kind))

namespace Ends

variable {α β : Type} {broken other : Kind → Prop} {r : Result α}

theorem imp (ends : Ends broken r) (implied : ∀ kind, broken kind → other kind) : Ends other r := by
  cases ends with
  | ok a => exact .ok a
  | misfit m => exact .misfit m
  | broke how => exact .broke (implied _ how)

theorem bind (ends : Ends broken r) {f : α → Result β} (next : ∀ a, r = .ok a → Ends broken (f a)) :
    Ends broken (r.bind f) := by
  cases ends with
  | ok a => exact next a rfl
  | misfit m => exact .misfit m
  | broke how => exact .broke how

theorem map (ends : Ends broken r) (f : α → β) : Ends broken (r.map f) := by
  cases ends with
  | ok a => exact .ok (f a)
  | misfit m => exact .misfit m
  | broke how => exact .broke how

end Ends

/-! ## Readers that never break off -/

variable {broken : Kind → Prop}

theorem ends_toBoolean (v : Value) : Ends broken (toBoolean v) := by
  unfold toBoolean
  split
  · exact .ok _
  · simp only
    split
    · exact .ok _
    · split
      · exact .ok _
      · exact .misfit _
  · exact .misfit _

theorem ends_toInteger (v : Value) : Ends broken (toInteger v) := by
  unfold toInteger
  split
  · exact .ok _
  · split
    · split
      · exact .ok _
      · exact .misfit _
    · exact .misfit _
  · split
    · split
      · exact .ok _
      · exact .misfit _
    · exact .misfit _
  · split
    · exact .ok _
    · exact .misfit _
  · exact .misfit _

theorem ends_toDecimal (v : Value) : Ends broken (toDecimal v) := by
  unfold toDecimal
  split
  · exact .ok _
  · exact .ok _
  · exact .ok _
  · split
    · exact .ok _
    · exact .misfit _
  · exact .misfit _

/-! ## Doubles and binary data -/

/-- A decoded value is not read as a double if it does not fit or is a huge integer. -/
theorem ends_toDouble {v : Value} (decoded : Json.Decoded v) :
    Ends (fun kind => kind = .overflow ∧ ∃ n, v = .integer n ∧ Binary64.IsHuge n) (toDouble v) := by
  cases decoded with
  | @integer n =>
    rw [toDouble]
    cases nearest : Binary64.ofInt? n with
    | some x => exact .ok x
    | none => exact .broke ⟨rfl, n, rfl, (Binary64.ofInt?_eq_none_iff n).mp nearest⟩
  | decimal held => exact .ok _
  | nan => exact .ok _
  | infinite negative => exact .ok _
  | text s =>
    rw [toDouble]
    cases Binary64.ofText? s with
    | some x => exact .ok x
    | none => exact .misfit _
  | null => exact .misfit _
  | bool b => exact .misfit _
  | list inner => exact .misfit _
  | object distinct inner => exact .misfit _

theorem toDouble_of_huge {n : Int} (huge : Binary64.IsHuge n) :
    toDouble (.integer n) = fail (.other .overflow) := by
  rw [toDouble, (Binary64.ofInt?_eq_none_iff n).mpr huge]

theorem ends_toBinary (v : Value) : Ends (fun kind => kind = .badValue ∧
    ∃ s, v = .text s ∧ ∃ c ∈ s.toList, 128 ≤ c.toNat) (toBinary v) := by
  unfold toBinary
  split
  · rename_i s
    split
    · rename_i outside
      obtain ⟨c, member, high⟩ := List.any_eq_true.mp outside
      exact .broke ⟨rfl, s, rfl, c, member, of_decide_eq_true high⟩
    · split
      · exact .ok _
      · exact .misfit _
  · exact .misfit _

theorem toBinary_of_notAscii {s : String} {c : Char} (member : c ∈ s.toList)
    (outside : 128 ≤ c.toNat) : toBinary (.text s) = fail (.other .badValue) := by
  rw [toBinary, if_pos]
  exact List.any_eq_true.mpr ⟨c, member, decide_eq_true outside⟩

/-! ## Maps -/

/-- Reads an entry of a map. -/
def readEntry {α : Type} (read : Value → Result α) (p : String × Value) : Result (String × Option α) :=
  if p.2.isNull then .ok (p.1, none) else (read p.2).map fun a => (p.1, some a)

/-- An entry of a map is null or can be read. -/
def IsReadable {α : Type} (read : Value → Result α) (p : String × Value) : Prop :=
  p.2.isNull = true ∨ ∃ a, read p.2 = .ok a

theorem readEntry_of_isReadable {α : Type} {read : Value → Result α} {p : String × Value}
    (readable : IsReadable read p) : ∃ a, readEntry read p = .ok a := by
  rw [readEntry]
  split
  · exact ⟨_, rfl⟩
  · rename_i present
    rcases readable with null | ⟨a, found⟩
    · exact absurd null present
    · exact ⟨_, by rw [found]; rfl⟩

theorem toMap_object {α : Type} (read : Value → Result α) (fields : Value.Fields) :
    toMap read (.object fields) = fields.mapM (readEntry read) := rfl

/-- The entries of a map are read in order, up to the first with which reading breaks off. -/
theorem ends_mapM {α : Type} {read : Value → Result α} (broken : Value → Kind → Prop)
    {fields : Value.Fields} (each : ∀ p ∈ fields, Ends (broken p.2) (read p.2)) :
    Ends (fun kind => ∃ before p after, fields = before ++ p :: after ∧
      (∀ q ∈ before, IsReadable read q) ∧ p.2.isNull = false ∧ broken p.2 kind)
      (fields.mapM (readEntry read)) := by
  induction fields with
  | nil => exact .ok []
  | cons p rest ih =>
    have later := ih fun q member => each q (List.mem_cons_of_mem p member)
    rw [List.mapM_cons]
    have first : Ends (fun kind => p.2.isNull = false ∧ broken p.2 kind) (readEntry read p) := by
      rw [readEntry]
      split
      · exact .ok _
      · rename_i present
        refine Ends.map ((each p List.mem_cons_self).imp fun kind how => ?_) _
        exact ⟨eq_false_of_ne_true present, how⟩
    refine Ends.bind (first.imp fun kind how => ⟨[], p, rest, rfl, ?_, how⟩) fun a found => ?_
    · refine Ends.bind (later.imp ?_) fun _ _ => .ok _
      rintro kind ⟨before, q, after, rfl, readable, how⟩
      refine ⟨p :: before, q, after, rfl, List.forall_mem_cons.mpr ⟨?_, readable⟩, how⟩
      rw [readEntry] at found
      split at found
      · rename_i null
        exact .inl null
      · cases value : read p.2 with
        | ok b => exact .inr ⟨b, value⟩
        | error f =>
          rw [value] at found
          cases found
    · exact fun _ none => absurd none List.not_mem_nil

/-- Reading a map breaks off with the first entry with which it does. -/
theorem mapM_of_broken {α : Type} {read : Value → Result α} {before after : Value.Fields}
    {p : String × Value} (readable : ∀ q ∈ before, IsReadable read q) (present : p.2.isNull = false)
    {f : Failure} (broken : read p.2 = .error f) :
    (before ++ p :: after).mapM (readEntry read) = .error f := by
  induction before with
  | nil =>
    have first : readEntry read p = .error f := by
      rw [readEntry, if_neg (by simp [present]), broken]
      rfl
    rw [List.nil_append, List.mapM_cons, first]
    rfl
  | cons q before ih =>
    obtain ⟨a, found⟩ := readEntry_of_isReadable (readable q List.mem_cons_self)
    rw [List.cons_append, List.mapM_cons, found,
      ih fun r member => readable r (List.mem_cons_of_mem q member)]
    rfl

theorem ends_toTextMap (v : Value) : Ends broken (toTextMap v) := by
  unfold toTextMap
  cases v with
  | object fields =>
    rw [toMap_object]
    have each : ∀ p ∈ fields, Ends (fun _ => False) (Except.ok (toText p.2) : Result String) :=
      fun p _ => .ok _
    refine (ends_mapM (fun _ _ => False) each).imp ?_
    rintro kind ⟨_, _, _, _, _, _, impossible⟩
    exact impossible.elim
  | _ => exact .misfit _

theorem ends_toDoubleMap {v : Value} (decoded : Json.Decoded v) :
    Ends (fun kind => kind = .overflow ∧ ∃ before key n after,
      v = .object (before ++ (key, .integer n) :: after) ∧
        (∀ p ∈ before, IsReadable toDouble p) ∧ Binary64.IsHuge n) (toDoubleMap v) := by
  unfold toDoubleMap
  cases decoded with
  | object distinct inner =>
    rw [toMap_object]
    refine (ends_mapM (fun w kind => kind = .overflow ∧ ∃ n, w = .integer n ∧ Binary64.IsHuge n)
      fun p member => ends_toDouble (inner p member)).imp ?_
    rintro kind ⟨before, ⟨key, w⟩, after, rfl, readable, -, rfl, n, rfl, huge⟩
    exact ⟨rfl, before, key, n, after, rfl, readable, huge⟩
  | _ => exact .misfit _

theorem toDoubleMap_of_huge {before after : Value.Fields} {key : String} {n : Int}
    (readable : ∀ p ∈ before, IsReadable toDouble p) (huge : Binary64.IsHuge n) :
    toDoubleMap (.object (before ++ (key, .integer n) :: after)) = fail (.other .overflow) := by
  rw [toDoubleMap, toMap_object]
  exact mapM_of_broken readable rfl (toDouble_of_huge huge)

/-! ## Dates and timestamps -/

/-- A number counts seconds or days, and its product with their milliseconds is too large. -/
structure IsTooLarge (d : Decimal) (unit : EpochUnit) : Prop where
  isFinite : d.isFinite = true
  scaled : unit ≠ .milliseconds
  overflows : d.scale? .standard unit.millis = none

theorem isFinite_of_scale? {ctx : Decimal.Context} {d product : Decimal} {k : Nat}
    (isFinite : d.isFinite = true) (scaled : d.scale? ctx k = some product) :
    product.isFinite = true := by
  cases d with
  | infinite negative => cases isFinite
  | nan negative signaling payload => cases isFinite
  | finite negative c e =>
    rw [Decimal.scale?, Decimal.Context.round?] at scaled
    split at scaled
    · cases scaled
      rfl
    · simp only [Option.ite_none_left_eq_some] at scaled
      exact Option.some.inj scaled.2 ▸ rfl

theorem truncate?_of_isFinite {d : Decimal} (isFinite : d.isFinite = true) :
    ∃ n, d.truncate? = some n := by
  cases d with
  | finite negative c e => exact ⟨_, rfl⟩
  | infinite negative => cases isFinite
  | nan negative signaling payload => cases isFinite

theorem epochMillis_of_isTooLarge {d : Decimal} {unit : EpochUnit} (large : IsTooLarge d unit) :
    epochMillis d unit = fail (.other .foreign) := by
  have overflows := large.overflows
  unfold epochMillis
  rw [large.isFinite]
  cases unit with
  | milliseconds => exact absurd rfl large.scaled
  | seconds => simp [overflows]
  | days => simp [overflows]

theorem epochMillis_of_isFinite {d : Decimal} {unit : EpochUnit} (isFinite : d.isFinite = true)
    (small : ¬ IsTooLarge d unit) : ∃ n, epochMillis d unit = .ok n := by
  have scaled (others : unit ≠ .milliseconds) :
      ∃ n, (d.scale? .standard unit.millis).bind Decimal.truncate? = some n := by
    cases product : d.scale? .standard unit.millis with
    | none => exact absurd ⟨isFinite, others, product⟩ small
    | some p => exact truncate?_of_isFinite (isFinite_of_scale? isFinite product)
  unfold epochMillis
  rw [isFinite]
  cases unit with
  | milliseconds =>
    obtain ⟨n, whole⟩ := truncate?_of_isFinite isFinite
    exact ⟨n, by simp [whole]⟩
  | seconds =>
    obtain ⟨n, whole⟩ := scaled (by decide)
    exact ⟨n, by simp [whole]⟩
  | days =>
    obtain ⟨n, whole⟩ := scaled (by decide)
    exact ⟨n, by simp [whole]⟩

theorem ends_epochMillis (d : Decimal) (unit : EpochUnit) :
    Ends (fun kind => kind = .foreign ∧ IsTooLarge d unit) (epochMillis d unit) := by
  cases isFinite : d.isFinite with
  | false =>
    have refused : epochMillis d unit = mismatch (.notFinite d.text) := by
      unfold epochMillis
      rw [isFinite]
      rfl
    exact refused ▸ .misfit _
  | true =>
    by_cases large : IsTooLarge d unit
    · exact epochMillis_of_isTooLarge large ▸ .broke ⟨rfl, large⟩
    · obtain ⟨n, counted⟩ := epochMillis_of_isFinite isFinite large
      exact counted ▸ .ok n

/-- A format whose pattern, if it has one, names each field at most once. -/
def IsAccepted (f : TemporalFormat) : Prop :=
  ∀ s p, f = .pattern s → DatePattern.ofText? s = some p → p.hasDistinctFields = true

theorem ends_toMoment {f : TemporalFormat} (accepted : IsAccepted f) (s : String) :
    Ends broken (toMoment s f) := by
  unfold toMoment toMomentBy
  split
  · rename_i text
    split
    · exact .misfit _
    · rename_i p read
      rw [accepted text p rfl read]
      simp only [Bool.not_true, Bool.false_eq_true, if_false]
      split
      · exact .ok _
      · exact .misfit _
  · split
    · exact .ok _
    · exact .misfit _

/-- The unit in which a column counts a value from the start of 1970, if it does so: a number in the
unit of the format, or in that of the column's type if there is no format, and a text in the unit of
the format. A text of a date that says days is an integer already. -/
def countedUnit? (ofType : EpochUnit) : TemporalFormat → Value → Option EpochUnit
  | .unspecified, v => if v.isNumber then some ofType else none
  | .epoch unit, .text _ => if ofType = .days ∧ unit = .days then none else some unit
  | .epoch unit, v => if v.isNumber then some unit else none
  | _, _ => none

theorem countedUnit?_unspecified {ofType : EpochUnit} {v : Value} (isNumber : v.isNumber = true) :
    countedUnit? ofType .unspecified v = some ofType := if_pos isNumber

theorem countedUnit?_epoch {ofType unit : EpochUnit} {v : Value} (isNumber : v.isNumber = true) :
    countedUnit? ofType (.epoch unit) v = some unit := by
  cases v with
  | integer n => rfl
  | decimal d => rfl
  | double x => rfl
  | _ => cases isNumber

/-- A value is counted in a unit in which it is too large. -/
def CountsTooMany (ofType : EpochUnit) (f : TemporalFormat) (v : Value) : Prop :=
  ∃ unit d, countedUnit? ofType f v = some unit ∧ toDecimal v = .ok d ∧ IsTooLarge d unit

theorem ends_counted {ofType unit : EpochUnit} {f : TemporalFormat} {v : Value}
    (counted : countedUnit? ofType f v = some unit) :
    Ends (fun kind => kind = .foreign ∧ CountsTooMany ofType f v)
      ((toDecimal v).bind (epochMillis · unit)) := by
  refine (ends_toDecimal v).bind fun d read => (ends_epochMillis d unit).imp ?_
  rintro kind ⟨rfl, large⟩
  exact ⟨rfl, unit, d, counted, read, large⟩

theorem ends_toEpochMillis {f : TemporalFormat} (accepted : IsAccepted f) (v : Value) :
    Ends (fun kind => kind = .foreign ∧ CountsTooMany .milliseconds f v) (toEpochMillis f v) := by
  unfold toEpochMillis toEpochMillisBy
  split
  · rename_i isNumber
    cases f with
    | unspecified => exact ends_counted (countedUnit?_unspecified isNumber)
    | epoch unit => exact ends_counted (countedUnit?_epoch isNumber)
    | iso8601 => exact (ends_toMoment accepted _).map _
    | pattern p => exact (ends_toMoment accepted _).map _
  · cases v with
    | text s =>
      cases f with
      | unspecified => exact (ends_toMoment accepted s).map _
      | epoch unit => exact ends_counted rfl
      | iso8601 => exact (ends_toMoment accepted s).map _
      | pattern p => exact (ends_toMoment accepted s).map _
    | _ => exact .misfit _

theorem map_bind {α β γ : Type} (r : Result α) (f : α → Result β) (g : β → γ) :
    (r.bind f).map g = r.bind fun a => (f a).map g := by
  cases r <;> rfl

theorem ends_toEpochDays {f : TemporalFormat} (accepted : IsAccepted f) (v : Value) :
    Ends (fun kind => kind = .foreign ∧ CountsTooMany .days f v) (toEpochDays f v) := by
  have days {unit : EpochUnit} (counted : countedUnit? .days f v = some unit) :
      Ends (fun kind => kind = .foreign ∧ CountsTooMany .days f v)
        (do
          let millis ← epochMillis (← toDecimal v) unit
          return millis.fdiv EpochUnit.days.millis) := by
    have ends := (ends_counted counted).map fun millis => millis.fdiv EpochUnit.days.millis
    rw [map_bind] at ends
    exact ends
  unfold toEpochDays
  split
  · rename_i isNumber
    cases f with
    | unspecified => exact days (countedUnit?_unspecified isNumber)
    | epoch unit => exact days (countedUnit?_epoch isNumber)
    | iso8601 => exact (ends_toMoment accepted _).map _
    | pattern p => exact (ends_toMoment accepted _).map _
  · cases v with
    | text s =>
      cases f with
      | unspecified => exact (ends_toMoment accepted s).map _
      | epoch unit =>
        cases unit with
        | days => exact ends_toInteger _
        | seconds => exact days rfl
        | milliseconds => exact days rfl
      | iso8601 => exact (ends_toMoment accepted s).map _
      | pattern p => exact (ends_toMoment accepted s).map _
    | _ => exact .misfit _

/-- What is counted is a number, or a text that the format says is one. -/
theorem counted_cases {ofType unit : EpochUnit} {f : TemporalFormat} {v : Value}
    (counted : countedUnit? ofType f v = some unit) :
    (v.isNumber = true ∧ (f = .unspecified ∧ ofType = unit ∨ f = .epoch unit)) ∨
      ∃ s, v = .text s ∧ f = .epoch unit ∧ ¬ (ofType = .days ∧ unit = .days) := by
  by_cases isNumber : v.isNumber = true
  · cases f with
    | unspecified =>
      rw [countedUnit?_unspecified isNumber] at counted
      exact .inl ⟨isNumber, .inl ⟨rfl, Option.some.inj counted⟩⟩
    | epoch other =>
      rw [countedUnit?_epoch isNumber] at counted
      exact .inl ⟨isNumber, .inr (congrArg _ (Option.some.inj counted))⟩
    | iso8601 => cases counted
    | pattern p => cases counted
  · cases f with
    | unspecified =>
      rw [countedUnit?, if_neg isNumber] at counted
      cases counted
    | epoch other =>
      cases v with
      | text s =>
        rw [countedUnit?] at counted
        split at counted
        · cases counted
        · rename_i others
          cases counted
          exact .inr ⟨s, rfl, rfl, others⟩
      | integer n => exact absurd rfl isNumber
      | decimal d => exact absurd rfl isNumber
      | double x => exact absurd rfl isNumber
      | _ => cases counted
    | iso8601 => cases counted
    | pattern p => cases counted

theorem toEpochMillis_of_counted {unit : EpochUnit} {f : TemporalFormat} {v : Value}
    (counted : countedUnit? .milliseconds f v = some unit) :
    toEpochMillis f v = (toDecimal v).bind (epochMillis · unit) := by
  rcases counted_cases counted with ⟨isNumber, ⟨rfl, rfl⟩ | rfl⟩ | ⟨s, rfl, rfl, -⟩
  · exact if_pos isNumber
  · exact if_pos isNumber
  · rfl

theorem toEpochDays_of_counted {unit : EpochUnit} {f : TemporalFormat} {v : Value}
    (counted : countedUnit? .days f v = some unit) :
    toEpochDays f v =
      ((toDecimal v).bind (epochMillis · unit)).map fun n => n.fdiv EpochUnit.days.millis := by
  rw [map_bind]
  rcases counted_cases counted with ⟨isNumber, ⟨rfl, rfl⟩ | rfl⟩ | ⟨s, rfl, rfl, others⟩
  · exact if_pos isNumber
  · exact if_pos isNumber
  · cases unit with
    | days => exact absurd ⟨rfl, rfl⟩ others
    | seconds => rfl
    | milliseconds => rfl

theorem counted_of_countsTooMany {ofType : EpochUnit} {f : TemporalFormat} {v : Value}
    (many : CountsTooMany ofType f v) : ∃ unit, countedUnit? ofType f v = some unit ∧
      (toDecimal v).bind (epochMillis · unit) = fail (.other .foreign) := by
  obtain ⟨unit, d, counted, read, large⟩ := many
  refine ⟨unit, counted, ?_⟩
  rw [read]
  exact epochMillis_of_isTooLarge large

/-! ## Dates of numbers of days -/

/-- A number of days is that of no date if the day is before year 1 or after year 9999. -/
theorem ofEpochDay?_eq_none_iff (days : Int) :
    Date.ofEpochDay? days = none ↔ days < -719162 ∨ 2932896 < days := by
  have last : (Date.endOrdinal : Int) = 3652060 := by decide
  have epoch : (Date.epochOrdinal : Int) = 719163 := rfl
  rw [Date.ofEpochDay?, Date.ofOrdinal?, last, epoch]
  split
  · simp
    omega
  · simp
    omega

/-- The failure for a number of days that is that of no date: another one if it is too large for a
machine integer. -/
def dayFailure (days : Int) : Kind :=
  if -2 ^ 31 ≤ days + 719163 ∧ days + 719163 < 2 ^ 31 then .badValue else .overflow

theorem toDate_of_outside {days : Int} (outside : days < -719162 ∨ 2932896 < days) :
    toDate days = fail (.other (dayFailure days)) := by
  have limit : (dayLimit : Int) = 2 ^ 31 := rfl
  have epoch : (Date.epochOrdinal : Int) = 719163 := rfl
  unfold toDate
  rw [(ofEpochDay?_eq_none_iff days).mpr outside, dayFailure]
  simp only [limit, epoch]
  split <;> rfl

theorem toDate_cases (days : Int) : (∃ d, toDate days = .ok d) ∨
    (days < -719162 ∨ 2932896 < days) ∧ toDate days = fail (.other (dayFailure days)) := by
  cases found : Date.ofEpochDay? days with
  | none =>
    have outside := (ofEpochDay?_eq_none_iff days).mp found
    exact .inr ⟨outside, toDate_of_outside outside⟩
  | some d => exact .inl ⟨d, by rw [toDate, found]⟩

end Coercion

/-- The columns and the values with which reading breaks off, and the kinds of failure. -/
inductive Breaks (f : Coercion.TemporalFormat) : ColumnType → Value → Kind → Prop where
  | hugeInteger {n : Int} (huge : Binary64.IsHuge n) : Breaks f .double (.integer n) .overflow
  | hugeEntry {before after : Value.Fields} {key : String} {n : Int}
      (readable : ∀ p ∈ before, Coercion.IsReadable Coercion.toDouble p)
      (huge : Binary64.IsHuge n) :
      Breaks f .doubleMap (.object (before ++ (key, .integer n) :: after)) .overflow
  | notAscii {s : String} {c : Char} (member : c ∈ s.toList) (outside : 128 ≤ c.toNat) :
      Breaks f .varbinary (.text s) .badValue
  | timestamp {v : Value} (many : Coercion.CountsTooMany .milliseconds f v) :
      Breaks f .timestamp v .foreign
  | date {v : Value} (many : Coercion.CountsTooMany .days f v) : Breaks f .date v .foreign
  | notInCalendar {v : Value} {days : Int} (read : Coercion.toEpochDays f v = .ok days)
      (outside : days < -719162 ∨ 2932896 < days) : Breaks f .date v (Coercion.dayFailure days)

namespace CellPlace

open Coercion

/-- What is reported for a value that does not fit. -/
def misfit (p : CellPlace) (v : Value) (m : Mismatch) : Cause :=
  .unreadableValue p.column.type.name p.column.name (toText v) p.column.format p.line p.path m

/-- How reading a value in its place ends: it is read, or it does not fit and the place is reported,
or reading breaks off. -/
inductive Ends {α : Type} (p : CellPlace) (v : Value) (broken : Kind → Prop) : Result α → Prop where
  | ok (a : α) : Ends p v broken (.ok a)
  | misfit (m : Mismatch) : Ends p v broken (fail (p.misfit v m))
  | broke {kind : Kind} (how : broken kind) : Ends p v broken (fail (.other kind))

variable {α β : Type} {p : CellPlace} {v : Value} {broken other : Kind → Prop}

theorem Ends.map {r : Result α} (ends : Ends p v broken r) (f : α → β) : Ends p v broken (r.map f) := by
  cases ends with
  | ok a => exact .ok (f a)
  | misfit m => exact .misfit m
  | broke how => exact .broke how

theorem Ends.bind {r : Result α} (ends : Ends p v broken r) {f : α → Result β}
    (next : ∀ a, r = .ok a → Ends p v broken (f a)) : Ends p v broken (r.bind f) := by
  cases ends with
  | ok a => exact next a rfl
  | misfit m => exact .misfit m
  | broke how => exact .broke how

/-- A mismatch is reported with the place; anything else goes through. -/
theorem ends_coerce {read : Value → Result α} (ends : Coercion.Ends other (read v))
    (implied : ∀ kind, other kind → broken kind) : Ends p v broken (p.coerce read v) := by
  rw [coerce]
  generalize read v = r at ends
  cases ends with
  | ok a => exact .ok a
  | misfit m => exact .misfit m
  | broke how => exact .broke (implied _ how)

theorem coerce_of_broken {read : Value → Result α} {kind : Kind}
    (broken : read v = fail (.other kind)) : p.coerce read v = fail (.other kind) := by
  rw [coerce, broken]
  rfl

theorem coerce_of_ok {read : Value → Result α} {a : α} (found : read v = .ok a) :
    p.coerce read v = .ok a := by
  rw [coerce, found]

theorem coerce_of_mismatch {read : Value → Result α} {m : Mismatch} (misfit : read v = mismatch m) :
    p.coerce read v = fail (p.misfit v m) := by
  rw [coerce, misfit]
  rfl

theorem ok_of_coerce {read : Value → Result α} {a : α} (found : p.coerce read v = .ok a) :
    read v = .ok a := by
  rw [coerce] at found
  split at found
  · rename_i same
    exact same.trans found
  · split at found
    · cases found
    · cases found

/-- Reading a value of a record breaks off only with the values that are listed. -/
theorem read_ends (accepted : IsAccepted p.temporal) (decoded : Json.Decoded v) :
    Ends p v (Breaks p.temporal p.column.type v) (p.read v) := by
  rw [read]
  cases type : p.column.type with
  | boolean => exact (ends_coerce (ends_toBoolean v) fun _ never => never).map _
  | integer =>
    rw [readInteger, type]
    exact (ends_coerce (ends_toInteger v) fun _ never => never).map _
  | bigint =>
    rw [readInteger, type]
    exact (ends_coerce (ends_toInteger v) fun _ never => never).map _
  | double =>
    refine (ends_coerce (ends_toDouble decoded) ?_).map _
    rintro kind ⟨rfl, n, rfl, huge⟩
    exact .hugeInteger huge
  | decimal => exact (ends_coerce (ends_toDecimal v) fun _ never => never).map _
  | varchar => exact .ok _
  | json => exact .ok _
  | varbinary =>
    refine (ends_coerce (ends_toBinary v) ?_).map _
    rintro kind ⟨rfl, s, rfl, c, member, outside⟩
    exact .notAscii member outside
  | timestamp =>
    rw [readInteger, type]
    refine (ends_coerce (ends_toEpochMillis accepted v) ?_).map _
    rintro kind ⟨rfl, many⟩
    exact .timestamp many
  | textMap => exact (ends_coerce (ends_toTextMap v) fun _ never => never).map _
  | doubleMap =>
    refine (ends_coerce (ends_toDoubleMap decoded) ?_).map _
    rintro kind ⟨rfl, before, key, n, after, rfl, readable, huge⟩
    exact .hugeEntry readable huge
  | date =>
    rw [readInteger, type]
    refine Ends.bind (ends_coerce (ends_toEpochDays accepted v) ?_) fun days found => ?_
    · rintro kind ⟨rfl, many⟩
      exact .date many
    · rcases toDate_cases days with ⟨d, date⟩ | ⟨outside, failed⟩
      · rw [date]
        exact .ok _
      · rw [failed]
        exact .broke (.notInCalendar (ok_of_coerce found) outside)

/-- Reading breaks off with each of the values that are listed. -/
theorem read_of_breaks {kind : Kind} (breaks : Breaks p.temporal p.column.type v kind) :
    p.read v = fail (.other kind) := by
  rw [read]
  generalize type : p.column.type = t at breaks
  cases breaks with
  | hugeInteger huge => simp only [coerce_of_broken (toDouble_of_huge huge)]; rfl
  | hugeEntry readable huge => simp only [coerce_of_broken (toDoubleMap_of_huge readable huge)]; rfl
  | notAscii member outside => simp only [coerce_of_broken (toBinary_of_notAscii member outside)]; rfl
  | timestamp many =>
    obtain ⟨unit, counted, broken⟩ := counted_of_countsTooMany many
    rw [← toEpochMillis_of_counted counted] at broken
    simp only [readInteger, type, coerce_of_broken broken]
    rfl
  | date many =>
    obtain ⟨unit, counted, broken⟩ := counted_of_countsTooMany many
    have days : toEpochDays p.temporal v = fail (.other .foreign) := by
      rw [toEpochDays_of_counted counted, broken]
      rfl
    simp only [readInteger, type, coerce_of_broken days]
    rfl
  | notInCalendar days outside =>
    simp only [readInteger, type, coerce_of_ok days]
    change (toDate _).bind _ = _
    rw [toDate_of_outside outside]
    rfl

end CellPlace

end SchemaOnRead
