import SchemaOnRead.Calendar.Iso8601
import SchemaOnRead.Calendar.Pattern
import SchemaOnRead.Codec.Base64
import SchemaOnRead.Failure
import SchemaOnRead.Json.Printer

/-!
# Reading values as column values

How a decoded value is read as a boolean, a number, a text, binary data, a map, a date or a
timestamp. A value that does not fit is a mismatch; a few inputs fail in other ways, such as an
integer beyond the largest double.
-/

namespace SchemaOnRead.Coercion

/-- Fails with a mismatch. -/
def mismatch {α : Type} (m : Mismatch) : Result α := fail (.mismatch m)

/-- Reads a truth value, or the words for it in any letter case. -/
def toBoolean : Value → Result Bool
  | .bool b => .ok b
  | .text s =>
    let word := Text.lowercase s
    if word = "true" then .ok true
    else if word = "false" then .ok false
    else mismatch (.notBoolean (.text s))
  | v => mismatch (.notBoolean v)

/-- Reads a whole number of any size. -/
def toInteger : Value → Result Int
  | .integer n => .ok n
  | .decimal d =>
    match d.truncate? with
    | some n => if d.same (.ofInt n) then .ok n else mismatch (.notIntegral d.text)
    | none => mismatch (.notFinite d.text)
  | .double x =>
    match x.ratio? with
    | some (n, den) =>
      if n % den = 0 then .ok (n / den) else mismatch (.notIntegral x.text)
    | none => mismatch (.notFinite x.text)
  | .text s =>
    match readInteger? s with
    | some n => .ok n
    | none => mismatch (.notInteger s)
  | v => mismatch (.notNumber v)

/-- Reads a double: the nearest one to the number. -/
def toDouble : Value → Result Binary64
  | .integer n =>
    match Binary64.ofInt? n with
    | some x => .ok x
    | none => fail (.other .overflow)
  | .decimal d =>
    match Binary64.ofDecimal? d with
    | some x => .ok x
    | none => fail (.other .badValue)
  | .double x => .ok x
  | .text s =>
    match Binary64.ofText? s with
    | some x => .ok x
    | none => mismatch (.notNumber (.text s))
  | v => mismatch (.notNumber v)

/-- The decimal with the digits of a double's text. -/
def decimalOfDouble (x : Binary64) : Decimal := (Decimal.ofText? x.text).getD (.nan false false 0)

/-- Reads a decimal with all its digits. -/
def toDecimal : Value → Result Decimal
  | .decimal d => .ok d
  | .integer n => .ok (.ofInt n)
  | .double x => .ok (decimalOfDouble x)
  | .text s =>
    match Decimal.ofText? s with
    | some d => .ok d
    | none => mismatch (.notDecimal s)
  | v => mismatch (.notNumber v)

/-- A value as text: a text as it is, anything else as compact JSON. -/
def toText : Value → String
  | .text s => s
  | v => Json.compact v

/-- Reads binary data from Base64 text. -/
def toBinary : Value → Result (List UInt8)
  | .text s =>
    if s.toList.any fun c => 128 ≤ c.toNat then fail (.other .badValue)
    else match Base64.decode? s.toList with
      | some bytes => .ok bytes
      | none => mismatch .badBase64
  | v => mismatch (.notText v.kind)

/-- The map of an object's fields, in order; null stays null. -/
def toMap {α : Type} (read : Value → Result α) : Value → Result (List (String × Option α))
  | .object fields => fields.mapM fun (k, v) =>
      if v.isNull then .ok (k, none) else (read v).map fun x => (k, some x)
  | v => mismatch (.notObject v.kind)

/-- Reads a map to texts. -/
def toTextMap : Value → Result (List (String × Option String)) := toMap fun v => .ok (toText v)

/-- Reads a map to doubles. -/
def toDoubleMap : Value → Result (List (String × Option Binary64)) := toMap toDouble

/-! ## Dates and timestamps -/

/-- The units in which a number can count from the start of 1970. -/
inductive EpochUnit where
  | milliseconds
  | seconds
  | days
  deriving DecidableEq, Repr

/-- The milliseconds of a unit. -/
def EpochUnit.millis : EpochUnit → Nat
  | milliseconds => 1
  | seconds => 1000
  | days => 86400000

/-- How a date or timestamp column is written: no annotation, a unit, ISO 8601, or a pattern. -/
inductive TemporalFormat where
  | unspecified
  | epoch (unit : EpochUnit)
  | iso8601
  | pattern (p : String)
  deriving DecidableEq, Repr

/-- The format a column's annotation names. -/
def TemporalFormat.ofName : Option String → TemporalFormat
  | none => unspecified
  | some "epoch-milliseconds" => epoch .milliseconds
  | some "epoch-seconds" => epoch .seconds
  | some "epoch-days" => epoch .days
  | some "iso-8601" => iso8601
  | some p => pattern p

/-- The milliseconds of a number of units: the product keeps 28 digits, and the integer is the next
one towards zero. -/
def epochMillis (d : Decimal) (unit : EpochUnit) : Result Int :=
  if !d.isFinite then mismatch (.notFinite d.text)
  else
    let product := match unit with
      | .milliseconds => some d
      | unit => d.scale? .standard unit.millis
    match product.bind Decimal.truncate? with
    | some n => .ok n
    | none => fail (.other .foreign)

/-- The moment a text denotes: by a reader of ISO 8601, or by a pattern if the format is one. -/
def toMomentBy (iso : String → Option Moment) (s : String) : TemporalFormat → Result Moment
  | .pattern p =>
    match DatePattern.ofText? p with
    | none => mismatch .unreadableDate
    | some p =>
      if !p.hasDistinctFields then fail (.other .foreign)
      else match p.moment? (Text.strip s.toList) with
        | some m => .ok m
        | none => mismatch .unreadableDate
  | _ =>
    match iso s with
    | some m => .ok m
    | none => mismatch .unreadableDate

/-- The moment a text denotes. -/
def toMoment : String → TemporalFormat → Result Moment := toMomentBy Iso8601.readText?

/-- Reads a timestamp as milliseconds since the start of 1970 in UTC, with a reader of ISO 8601.
Numbers count milliseconds unless the format names another unit; under ISO 8601 or a pattern a number
is read as its text. -/
def toEpochMillisBy (iso : String → Option Moment) (f : TemporalFormat) (v : Value) : Result Int :=
  if v.isNumber then
    match f with
    | .unspecified => (toDecimal v).bind (epochMillis · .milliseconds)
    | .epoch unit => (toDecimal v).bind (epochMillis · unit)
    | f => (toMomentBy iso v.shown f).map Moment.millis
  else match v with
    | .text s =>
      match f with
      | .epoch unit => (toDecimal v).bind (epochMillis · unit)
      | f => (toMomentBy iso s f).map Moment.millis
    | v => mismatch (.notTimestamp v)

/-- Reads a timestamp as milliseconds since the start of 1970 in UTC. -/
def toEpochMillis : TemporalFormat → Value → Result Int := toEpochMillisBy Iso8601.readText?

/-- Reads a date as days since the start of 1970. Numbers count days unless the format names another
unit; under ISO 8601 or a pattern a number is read as its text, and the date is the one written. -/
def toEpochDays (f : TemporalFormat) (v : Value) : Result Int :=
  let days (unit : EpochUnit) : Result Int := do
    let millis ← epochMillis (← toDecimal v) unit
    return millis.fdiv EpochUnit.days.millis
  if v.isNumber then
    match f with
    | .unspecified => days .days
    | .epoch unit => days unit
    | f => (toMoment v.shown f).map fun m => m.date.epochDay
  else match v with
    | .text s =>
      match f with
      | .epoch .days => toInteger v
      | .epoch unit => days unit
      | f => (toMoment s f).map fun m => m.date.epochDay
    | v => mismatch (.notDate v)

/-- The largest number of days that a machine integer can hold. -/
def dayLimit : Nat := twoTo 31

/-- The date of a number of days since the start of 1970. -/
def toDate (days : Int) : Result Date :=
  match Date.ofEpochDay? days with
  | some d => .ok d
  | none =>
    let ordinal := days + Date.epochOrdinal
    if -dayLimit ≤ ordinal ∧ ordinal < dayLimit then fail (.other .badValue)
    else fail (.other .overflow)

end SchemaOnRead.Coercion
