import SchemaOnRead.Calendar.Date

/-!
# Moments

A date with a time of day and an offset from UTC, as a text may denote it. `Moment.sinceEpoch` is the
time that has passed since the start of 1970 in UTC, as a duration in normal form, and
`Moment.millis` its whole milliseconds.
-/

namespace SchemaOnRead

/-- A length of time in normal form: days of either sign, and then the seconds of a day and the
microseconds of a second, which are never negative. -/
structure Duration where
  days : Int
  seconds : Nat
  micros : Nat
  seconds_lt : seconds < 86400
  micros_lt : micros < 1000000

namespace Duration

/-- The duration of some days, seconds and microseconds of either sign: whole seconds go from the
microseconds to the seconds, and whole days from those to the days. -/
def normal (days seconds micros : Int) : Duration where
  days := days + (seconds + micros / 1000000) / 86400
  seconds := ((seconds + micros / 1000000) % 86400).toNat
  micros := (micros % 1000000).toNat
  seconds_lt := by omega
  micros_lt := by omega

/-- What one duration is longer than another. -/
def minus (t later : Duration) : Duration :=
  normal (t.days - later.days) (t.seconds - later.seconds) (t.micros - later.micros)

/-- The whole milliseconds of a duration. -/
def millis (t : Duration) : Int := t.days * 86400000 + t.seconds * 1000 + t.micros / 1000

end Duration

/-- A date, a time of day to the microsecond, and the offset from UTC in microseconds if one is
known. -/
structure Moment where
  date : Date
  hour : Nat
  minute : Nat
  second : Nat
  micro : Nat
  offset : Option Int
  deriving DecidableEq, Repr

namespace Moment

/-- The microseconds of a day. -/
def microsPerDay : Nat := 86400000000

/-- Whether every field is in its range, and the offset is less than a day. -/
def isValid (m : Moment) : Bool :=
  m.date.isValid && m.hour < 24 && m.minute < 60 && m.second < 60 && m.micro < 1000000 &&
    match m.offset with
    | some o => o.natAbs < microsPerDay
    | none => true

/-- A moment whose fields are in their ranges. -/
def of? (m : Moment) : Option Moment := if m.isValid then some m else none

/-- The time that has passed since the start of 1970 in UTC: the time on the clock, less the offset.
Without an offset the clock shows UTC. -/
def sinceEpoch (m : Moment) : Duration :=
  let clock := Duration.normal m.date.epochDay ((m.hour * 60 + m.minute) * 60 + m.second : Nat) m.micro
  clock.minus (.normal 0 0 (m.offset.getD 0))

/-- The whole milliseconds since the start of 1970 in UTC. -/
def millis (m : Moment) : Int := m.sinceEpoch.millis

/-- The same time a day later; `none` past the end of the calendar. -/
def nextDay? (m : Moment) : Option Moment :=
  (Date.ofOrdinal? (m.date.ordinal + 1)).map fun d => { m with date := d }

/-- The date and time in UTC of a number of microseconds since the start of 1970. -/
def ofMicros? (n : Int) : Option Moment :=
  (Date.ofEpochDay? (n.fdiv microsPerDay)).map fun d =>
    let rest := (n.fmod microsPerDay).toNat
    let seconds := rest / 1000000
    ⟨d, seconds / 3600, seconds / 60 % 60, seconds % 60, rest % 1000000, some 0⟩

/-- The time of day, hours to seconds with colons. -/
def timeChars (m : Moment) : List Char :=
  Text.padZeros 2 (Text.ofNat m.hour) ++ ':' :: Text.padZeros 2 (Text.ofNat m.minute) ++
    ':' :: Text.padZeros 2 (Text.ofNat m.second)

/-- The fraction of the second, six digits after a point, if it is not zero. -/
def fractionChars (m : Moment) : List Char :=
  if m.micro = 0 then [] else '.' :: Text.padZeros 6 (Text.ofNat m.micro)

end Moment

end SchemaOnRead
