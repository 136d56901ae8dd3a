import SchemaOnRead.Text.Digit

/-!
# Dates

The proleptic Gregorian calendar from year 1 to year 9999. `Date.ordinal` counts days from the
first day of year 1, which is day 1, and `Date.ofOrdinal?` finds the date of a day.
-/

namespace SchemaOnRead

/-- A year, a month and a day of the month. -/
structure Date where
  year : Nat
  month : Nat
  day : Nat
  deriving DecidableEq, Repr, Inhabited

namespace Date

def isLeap (year : Nat) : Bool := year % 4 = 0 && (year % 100 ≠ 0 || year % 400 = 0)

def yearLength (year : Nat) : Nat := if isLeap year then 366 else 365

/-- The number of days of a month. -/
def monthLength (year month : Nat) : Nat :=
  if month = 2 then (if isLeap year then 29 else 28)
  else if month = 4 ∨ month = 6 ∨ month = 9 ∨ month = 11 then 30
  else 31

def maxYear : Nat := 9999

/-- Whether a date is one of the calendar. -/
def isValid (d : Date) : Bool :=
  1 ≤ d.year && d.year ≤ maxYear && 1 ≤ d.month && d.month ≤ 12 && 1 ≤ d.day &&
    d.day ≤ monthLength d.year d.month

/-- A date of the calendar. -/
def of? (year month day : Nat) : Option Date :=
  let d : Date := ⟨year, month, day⟩
  if d.isValid then some d else none

/-- The days of all years before a year. -/
def daysBeforeYear (year : Nat) : Nat :=
  let y := year - 1
  y * 365 + y / 4 - y / 100 + y / 400

/-- The days of a year before a month. -/
def daysBeforeMonth (year month : Nat) : Nat :=
  (List.range (month - 1)).foldl (fun days m => days + monthLength year (m + 1)) 0

/-- The number of a date's day, counted from the first day of year 1 as day 1. -/
def ordinal (d : Date) : Nat := daysBeforeYear d.year + daysBeforeMonth d.year d.month + d.day

/-- The first day of year 10000, which is outside the calendar. -/
def endOrdinal : Nat := daysBeforeYear (maxYear + 1) + 1

/-- The year in which a day lies, for a day counted from 0, and the day's place in it, also counted
from 0: whole groups of 400, 100 and 4 years are taken off, then single years. -/
def splitYear (n : Nat) : Nat × Nat :=
  let (n400, n) := (n / 146097, n % 146097)
  let (n100, n) := (n / 36524, n % 36524)
  let (n4, n) := (n / 1461, n % 1461)
  let n1 := n / 365
  if n1 = 4 ∨ n100 = 4 then (n400 * 400 + n100 * 100 + n4 * 4 + n1, 365)
  else (n400 * 400 + n100 * 100 + n4 * 4 + n1 + 1, n % 365)

/-- The month and the day of the month for a day of the year counted from 0, looking from a given
month on. -/
def splitMonth (year : Nat) : Nat → Nat → Nat → Nat × Nat
  | 0, month, n => (month, n + 1)
  | fuel + 1, month, n =>
    if n < monthLength year month then (month, n + 1)
    else splitMonth year fuel (month + 1) (n - monthLength year month)

/-- The date of a day; `none` for a day outside the calendar. -/
def ofOrdinal? (n : Int) : Option Date :=
  if 1 ≤ n ∧ n < endOrdinal then
    let (year, rest) := splitYear (n.toNat - 1)
    let (month, day) := splitMonth year 11 1 rest
    some ⟨year, month, day⟩
  else none

/-- The ordinal of the first of January 1970. -/
def epochOrdinal : Nat := 719163

/-- The days from the first of January 1970 to a date. -/
def epochDay (d : Date) : Int := (d.ordinal : Int) - epochOrdinal

/-- The date a number of days after the first of January 1970. -/
def ofEpochDay? (n : Int) : Option Date := ofOrdinal? (n + epochOrdinal)

/-- The day of the week, Monday being 0. -/
def weekday (d : Date) : Nat := (d.ordinal + 6) % 7

/-- The date as year, month and day with hyphens. -/
def chars (d : Date) : List Char :=
  Text.padZeros 4 (Text.ofNat d.year) ++ '-' :: Text.padZeros 2 (Text.ofNat d.month) ++
    '-' :: Text.padZeros 2 (Text.ofNat d.day)

def text (d : Date) : String := String.ofList d.chars

end Date

end SchemaOnRead
