import SchemaOnRead.Calendar.Moment
import SchemaOnRead.Numeric.Binary64

/-!
# ISO 8601

Reads dates and times in the notations of ISO 8601: a calendar date, a week date or an ordinal date,
with or without hyphens; any one character; then a time with or without colons, a fraction of the
second of which six digits count, and an offset. Midnight may be written as hour 24 of the day
before. The fields are read as short integers, so a field may be one digit short at the end of the
text.
-/

namespace SchemaOnRead.Iso8601

/-- An information separator, which may stand around an integer in other texts, but not in a field. -/
def isSeparator (c : Char) : Bool := 28 ≤ c.toNat && c.toNat ≤ 31

/-- A field: the integer that at most `width` characters of a text denote. -/
def field? (width : Nat) (cs : List Char) : Option Int :=
  let text := cs.take width
  if text.any isSeparator then none else readInteger? (String.ofList text)

/-- A field that is not negative. -/
def natural? (width : Nat) (cs : List Char) : Option Nat :=
  (field? width cs).bind fun n => if n < 0 then none else some n.toNat

/-! ## Dates -/

/-- A calendar date: a year, and with a hyphen a month, and a day, or all of them without hyphens. -/
def calendarDate? (cs : List Char) : Option ((Int × Int × Int) × List Char) :=
  if cs.length < 4 then none
  else do
    let year ← field? 4 cs
    match cs.drop 4 with
    | [] => return ((year, 1, 1), [])
    | c :: rest =>
      let hyphen := c == '-'
      let body := if hyphen then rest else c :: rest
      if body.length < 2 then none
      else
        let month ← field? 2 body
        match body.drop 2 with
        | [] => if hyphen then return ((year, month, 1), []) else none
        | d :: rest =>
          if hyphen && d != '-' then none
          else
            let body := if hyphen then rest else d :: rest
            if body.length < 2 then none
            else
              let day ← field? 2 body
              return ((year, month, day), body.drop 2)

/-- The ordinal of a day of a week of a year; week 1 holds the fourth of January. -/
def weekOrdinal? (year : Nat) (week day : Int) : Option Int := do
  if week ≤ 0 ∨ 54 ≤ week ∨ day ≤ 0 ∨ 8 ≤ day then none
  let fourth ← Date.of? year 1 4
  let monday : Int := (fourth.ordinal : Int) - fourth.weekday
  return monday + (week - 1) * 7 + (day - 1)

/-- The ordinal of a week date, read after the letter W, with the rest of the text. -/
def weekDate? (year : Nat) (hyphen : Bool) (cs : List Char) : Option (Int × List Char) := do
  let week ← field? 2 cs
  match cs.drop 2 with
  | [] => (weekOrdinal? year week 1).map fun n => (n, [])
  | c :: more =>
    if (c == '-') != hyphen then none
    else
      let body := if hyphen then more else c :: more
      let day ← field? 1 body
      (weekOrdinal? year week day).map fun n => (n, body.drop 1)

/-- The ordinal of a day of a year, with the rest of the text. -/
def ordinalDate? (year : Nat) (cs : List Char) : Option (Int × List Char) :=
  if cs.length < 3 then none
  else do
    let day ← field? 3 cs
    if day < 1 ∨ (Date.yearLength year : Int) < day then none
    else (Date.of? year 1 1).map fun first => ((first.ordinal : Int) + day - 1, cs.drop 3)

/-- A week date or an ordinal date. -/
def otherDate? (cs : List Char) : Option ((Int × Int × Int) × List Char) :=
  if cs.length < 4 then none
  else do
    let year ← natural? 4 cs
    let afterYear := cs.drop 4
    let hyphen := afterYear.head? == some '-'
    let body := if hyphen then afterYear.drop 1 else afterYear
    let (n, rest) ← match body with
      | 'W' :: rest => weekDate? year hyphen rest
      | _ => ordinalDate? year body
    let d ← Date.ofOrdinal? n
    return ((d.year, d.month, d.day), rest)

/-! ## Times -/

/-- An offset from UTC in minutes. -/
def offset? (cs : List Char) : Option Int :=
  if cs = ['Z'] ∨ cs = ['z'] then some 0
  else if cs.length ≠ 3 ∧ cs.length ≠ 5 ∧ cs.length ≠ 6 then none
  else do
    let sign : Int ← match cs with
      | '-' :: _ => some (-1)
      | '+' :: _ => some 1
      | _ => none
    let hours ← field? 2 (cs.drop 1)
    let minutes ←
      if cs.length = 3 then some 0
      else
        let rest := if cs[3]? = some ':' then cs.drop 4 else cs.drop 3
        field? rest.length rest
    if hours = 0 ∧ minutes = 0 then return 0
    else if 59 < minutes ∨ 23 < hours then none
    else return sign * (hours * 60 + minutes)

/-- The microseconds that the digits of a fraction denote; digits after the sixth do not count. -/
def micros (ds : List Char) : Nat :=
  let kept := ds.take 6
  (Text.natural? kept).getD 0 * tenTo (6 - kept.length)

/-- A time of day, with an offset if one is written. -/
structure Time where
  hour : Int := 0
  minute : Int := 0
  second : Int := 0
  micro : Nat := 0
  offset : Option Int := none

/-- Whether a character begins an offset. -/
def beginsOffset (c : Char) : Bool := c == '-' || c == '+' || c == 'Z' || c == 'z'

/-- What follows the seconds: a fraction, then an offset. -/
def timeEnd? (t : Time) (cs : List Char) : Option Time :=
  match cs with
  | [] => some t
  | c :: rest =>
    if beginsOffset c then (offset? cs).map fun o => { t with offset := some o }
    else if c = '.' ∨ c = ',' then
      let (ds, after) := Decimal.spanDigits rest
      if ds.isEmpty then none
      else
        let t := { t with micro := micros ds }
        match after with
        | [] => some t
        | c :: _ =>
          if beginsOffset c then (offset? after).map fun o => { t with offset := some o } else none
    else none

/-- What follows the minutes: seconds, after a colon if the minutes stood after one. -/
def afterMinutes? (colon : Bool) (t : Time) (cs : List Char) : Option Time :=
  match cs with
  | [] => some t
  | c :: rest =>
    if beginsOffset c then (offset? cs).map fun o => { t with offset := some o }
    else if colon && c != ':' then none
    else do
      let body := if colon then rest else c :: rest
      let second ← field? 2 body
      timeEnd? { t with second := second } (body.drop 2)

/-- What follows the hours: minutes, perhaps after a colon. -/
def afterHours? (t : Time) (cs : List Char) : Option Time :=
  match cs with
  | [] => some t
  | c :: rest =>
    if beginsOffset c then (offset? cs).map fun o => { t with offset := some o }
    else do
      let colon := c == ':'
      let body := if colon then rest else c :: rest
      let minute ← field? 2 body
      afterMinutes? colon { t with minute := minute } (body.drop 2)

/-- A time of day: hours, minutes and seconds, of which the later ones may be missing. -/
def time? (cs : List Char) : Option Time :=
  match cs with
  | c :: _ :: _ =>
    if beginsOffset c then (offset? cs).map fun o => { offset := some o }
    else do
      let hour ← field? 2 cs
      let t ← afterHours? { hour := hour } (cs.drop 2)
      if t.hour = 24 ∧ (t.minute ≠ 0 ∨ t.second ≠ 0 ∨ t.micro ≠ 0) then none else return t
  | _ => none

/-- A number that a field of a moment can hold. -/
def toField? (n : Int) : Option Nat := if n < 0 then none else some n.toNat

/-- The moment that a text without blanks around it denotes. -/
def read? (cs : List Char) : Option Moment := do
  if !cs.all (fun c => c.toNat < 128) then none
  let ((year, month, day), rest) ← (calendarDate? cs).orElse fun _ => otherDate? cs
  let t ← match rest with
    | [] => some { }
    | _ :: rest => time? rest
  let year ← toField? year
  let month ← toField? month
  let day ← toField? day
  let hour ← toField? t.hour
  let minute ← toField? t.minute
  let second ← toField? t.second
  let midnight := hour = 24
  let m ← Moment.of? ⟨⟨year, month, day⟩, if midnight then 0 else hour, minute, second, t.micro,
    t.offset.map (· * 60000000)⟩
  if midnight then m.nextDay? else some m

/-- The moment that a text denotes. -/
def readText? (s : String) : Option Moment := read? (Text.strip s.toList)

end SchemaOnRead.Iso8601
