import SchemaOnRead.Calendar.Moment
import SchemaOnRead.Numeric.Binary64
import SchemaOnRead.Regex.Basic

/-!
# Date patterns

A date pattern is a text in which a percent sign and a letter stand for a field of a date or a time:
`%Y-%m-%d` reads `2017-06-01`. Every other character stands for itself, in either case, and blanks
stand for any number of blanks. `Pattern.moment?` reads a text by a pattern: the pattern becomes a
regular expression with a group for each field, and the fields together make up a moment.
-/

namespace SchemaOnRead

open Text

/-- A field of a date or a time, by the way it is written. -/
inductive DateField where
  | day
  | fraction
  | hour24
  | hour12
  | isoYear
  | dayOfYear
  | month
  | minute
  | second
  | weekFromSunday
  | weekFromMonday
  | weekdayFromSunday
  | weekdayFromMonday
  | isoWeek
  | shortYear
  | year
  | offset
  | weekdayName
  | weekdayShortName
  | monthName
  | monthShortName
  | meridiem
  | zone
  deriving DecidableEq, Repr

/-- One element of a date pattern. -/
inductive PatternElement where
  | char (c : Char)
  | blanks
  | field (f : DateField)
  deriving DecidableEq, Repr

/-- A date pattern. -/
abbrev DatePattern := List PatternElement

namespace DatePattern

/-! ## Reading patterns -/

/-- The field of a letter. -/
def fieldOf? : Char → Option DateField
  | 'd' => some .day
  | 'f' => some .fraction
  | 'H' => some .hour24
  | 'I' => some .hour12
  | 'G' => some .isoYear
  | 'j' => some .dayOfYear
  | 'm' => some .month
  | 'M' => some .minute
  | 'S' => some .second
  | 'U' => some .weekFromSunday
  | 'W' => some .weekFromMonday
  | 'w' => some .weekdayFromSunday
  | 'u' => some .weekdayFromMonday
  | 'V' => some .isoWeek
  | 'y' => some .shortYear
  | 'Y' => some .year
  | 'z' => some .offset
  | 'A' => some .weekdayName
  | 'a' => some .weekdayShortName
  | 'B' => some .monthName
  | 'b' => some .monthShortName
  | 'p' => some .meridiem
  | 'Z' => some .zone
  | _ => none

def time : DatePattern := [.field .hour24, .char ':', .field .minute, .char ':', .field .second]

def date : DatePattern := [.field .month, .char '/', .field .day, .char '/', .field .shortYear]

def dateTime : DatePattern :=
  [.field .weekdayShortName, .blanks, .field .monthShortName, .blanks, .field .day, .blanks] ++
    time ++ [.blanks, .field .year]

/-- What a percent sign and a letter stand for. -/
def directive? (c : Char) : Option DatePattern :=
  if c = '%' then some [.char '%']
  else if c = 'c' then some dateTime
  else if c = 'x' then some date
  else if c = 'X' then some time
  else (fieldOf? c).map fun f => [.field f]

/-- The elements of a pattern's text; `inBlanks` says that a blank came just before. -/
def elements? : Bool → List Char → Option DatePattern
  | _, [] => some []
  | _, ['%'] => none
  | _, '%' :: c :: rest => do
    let found ← directive? c
    let others ← elements? false rest
    return found ++ others
  | inBlanks, c :: rest =>
    if isBlank c then
      if inBlanks then elements? true rest else (elements? true rest).map (.blanks :: ·)
    else (elements? false rest).map (.char c :: ·)

/-- The pattern of a text. -/
def ofText? (s : String) : Option DatePattern := elements? false s.toList

/-- The fields of a pattern in order. -/
def fields (p : DatePattern) : List DateField :=
  p.filterMap fun
    | .field f => some f
    | _ => none

/-- Whether no field occurs twice. -/
def hasDistinctFields (p : DatePattern) : Bool := p.fields.Nodup

/-! ## Names -/

def weekdayNames : List String :=
  ["monday", "tuesday", "wednesday", "thursday", "friday", "saturday", "sunday"]

def monthNames : List String :=
  ["january", "february", "march", "april", "may", "june", "july", "august", "september",
    "october", "november", "december"]

/-- The first three letters of a name. -/
def shortName (s : String) : String := String.ofList (s.toList.take 3)

/-! ## The regular expression of a pattern -/

open Regex (Node)

/-- A character between two others. -/
def range (first last : Char) : Node := .set true false [.range first.toNat last.toNat]

def digit : Node := .set true false [.category false false .digit]

def literal (c : Char) : Node := .char true c

def inOrder : List Node → Node
  | [] => .empty
  | [n] => n
  | n :: rest => .seq n (inOrder rest)

def oneOf : List Node → Node
  | [] => .never
  | [n] => n
  | n :: rest => .alt n (oneOf rest)

def word (s : String) : Node := inOrder (s.toList.map literal)

def optional (n : Node) : Node := .loop .most 0 (some 1) n

/-- One of several names. -/
def names (ns : List String) : Node := oneOf (ns.map word)

/-- What a field looks like. Numbers with a range are tried in the order in which a longer number
comes first. -/
def fieldNode : DateField → Node
  | .day => oneOf [inOrder [literal '3', range '0' '1'], inOrder [range '1' '2', digit],
      inOrder [literal '0', range '1' '9'], range '1' '9', inOrder [literal ' ', range '1' '9']]
  | .fraction => .loop .most 1 (some 6) (range '0' '9')
  | .hour24 => oneOf [inOrder [literal '2', range '0' '3'], inOrder [range '0' '1', digit], digit]
  | .hour12 => oneOf [inOrder [literal '1', range '0' '2'], inOrder [literal '0', range '1' '9'],
      range '1' '9']
  | .isoYear | .year => inOrder [digit, digit, digit, digit]
  | .dayOfYear => oneOf [inOrder [word "36", range '0' '6'],
      inOrder [literal '3', range '0' '5', digit], inOrder [range '1' '2', digit, digit],
      inOrder [literal '0', range '1' '9', digit], inOrder [word "00", range '1' '9'],
      inOrder [range '1' '9', digit], inOrder [literal '0', range '1' '9'], range '1' '9']
  | .month => oneOf [inOrder [literal '1', range '0' '2'], inOrder [literal '0', range '1' '9'],
      range '1' '9']
  | .minute => oneOf [inOrder [range '0' '5', digit], digit]
  | .second => oneOf [inOrder [literal '6', range '0' '1'], inOrder [range '0' '5', digit], digit]
  | .weekFromSunday | .weekFromMonday =>
    oneOf [inOrder [literal '5', range '0' '3'], inOrder [range '0' '4', digit], digit]
  | .weekdayFromSunday => range '0' '6'
  | .weekdayFromMonday => range '1' '7'
  | .isoWeek => oneOf [inOrder [literal '5', range '0' '3'], inOrder [literal '0', range '1' '9'],
      inOrder [range '1' '4', digit], digit]
  | .shortYear => inOrder [digit, digit]
  | .offset => oneOf [
      inOrder [.set true false [.range 43 43, .range 45 45], digit, digit, optional (literal ':'),
        range '0' '5', digit,
        optional (inOrder [optional (literal ':'), range '0' '5', digit,
          optional (inOrder [literal '.', .loop .most 1 (some 6) digit])])],
      .char false 'Z']
  | .weekdayName => names weekdayNames
  | .weekdayShortName => names (weekdayNames.map shortName)
  | .monthName => names monthNames
  | .monthShortName => names (monthNames.map shortName)
  | .meridiem => names ["am", "pm"]
  | .zone => names ["utc", "gmt"]

/-- The elements of a pattern as nodes, the fields as groups numbered from `index`. -/
def nodes : Nat → DatePattern → List Node
  | _, [] => []
  | index, .char c :: rest => literal c :: nodes index rest
  | index, .blanks :: rest =>
    .loop .most 1 none (.set true false [.category false false .space]) :: nodes index rest
  | index, .field f :: rest => .group index (fieldNode f) :: nodes (index + 1) rest

/-- The fields of a text that a pattern matches as a whole, in the order of the pattern. The first
way in which the pattern matches a beginning of the text decides. -/
def match? (p : DatePattern) (cs : List Char) : Option (List (DateField × List Char)) :=
  match (inOrder (nodes 1 p)).run ⟨[], cs, 0, []⟩ some with
  | some st =>
    if st.after.isEmpty then
      some ((p.fields.zipIdx 1).map fun (f, i) => (f, (st.group? i).getD []))
    else none
  | none => none

/-! ## From fields to a moment -/

/-- What the fields read so far say. -/
structure Found where
  year : Option Int := none
  isoYear : Option Int := none
  month : Int := 1
  day : Int := 1
  hour : Int := 0
  minute : Int := 0
  second : Int := 0
  micro : Int := 0
  weekday : Option Int := none
  dayOfYear : Option Int := none
  week : Option (Int × Bool) := none
  isoWeek : Option Int := none
  offset : Option Int := none

def number? (cs : List Char) : Option Int := readInteger? (String.ofList cs)

def nameIndex? (ns : List String) (cs : List Char) : Option Int :=
  let i := ns.idxOf (String.ofList (lower cs))
  if i < ns.length then some i else none

/-- The hour of a twelve-hour clock. -/
def hourOfDay (hour : Int) (meridiem : List Char) : Int :=
  let half := String.ofList (lower meridiem)
  if half = "" ∨ half = "am" then (if hour = 12 then 0 else hour)
  else if half = "pm" then (if hour = 12 then 12 else hour + 12)
  else hour

/-- The digits of an offset without colons: hours and minutes with a colon between them need one
before the seconds as well. -/
def withoutColons? (cs : List Char) : Option (List Char) :=
  match cs with
  | s :: a :: b :: ':' :: rest =>
    match rest with
    | c :: d :: e :: more => if e = ':' then some (s :: a :: b :: c :: d :: more) else none
    | _ => some (s :: a :: b :: rest)
  | _ => some cs

/-- The offset from UTC in microseconds. -/
def offsetMicros? (cs : List Char) : Option Int :=
  if cs = ['Z'] then some 0
  else do
    let cs ← withoutColons? cs
    let hours ← number? ((cs.drop 1).take 2)
    let minutes ← number? ((cs.drop 3).take 2)
    let secondsText := (cs.drop 5).take 2
    let seconds ← if secondsText.isEmpty then some 0 else number? secondsText
    let fraction := cs.drop 8
    let micros ← number? (fraction ++ List.replicate (6 - fraction.length) '0')
    let total := ((hours * 60 + minutes) * 60 + seconds) * 1000000 + micros
    return if cs.head? = some '-' then -total else total

/-- Takes one more field into account; a later field that says the same thing wins. -/
def Found.take? (meridiem : List Char) (s : Found) : DateField × List Char → Option Found
  | (.shortYear, cs) => (number? cs).map fun y =>
      { s with year := some (if y ≤ 68 then y + 2000 else y + 1900) }
  | (.year, cs) => (number? cs).map fun y => { s with year := some y }
  | (.isoYear, cs) => (number? cs).map fun y => { s with isoYear := some y }
  | (.month, cs) => (number? cs).map fun m => { s with month := m }
  | (.monthName, cs) => (nameIndex? monthNames cs).map fun i => { s with month := i + 1 }
  | (.monthShortName, cs) =>
    (nameIndex? (monthNames.map shortName) cs).map fun i => { s with month := i + 1 }
  | (.day, cs) => (number? cs).map fun d => { s with day := d }
  | (.hour24, cs) => (number? cs).map fun h => { s with hour := h }
  | (.hour12, cs) => (number? cs).map fun h => { s with hour := hourOfDay h meridiem }
  | (.minute, cs) => (number? cs).map fun m => { s with minute := m }
  | (.second, cs) => (number? cs).map fun n => { s with second := n }
  | (.fraction, cs) => (number? (cs ++ List.replicate (6 - cs.length) '0')).map fun n =>
      { s with micro := n }
  | (.weekdayName, cs) => (nameIndex? weekdayNames cs).map fun i => { s with weekday := some i }
  | (.weekdayShortName, cs) =>
    (nameIndex? (weekdayNames.map shortName) cs).map fun i => { s with weekday := some i }
  | (.weekdayFromSunday, cs) => (number? cs).map fun n =>
      { s with weekday := some (if n = 0 then 6 else n - 1) }
  | (.weekdayFromMonday, cs) => (number? cs).map fun n => { s with weekday := some (n - 1) }
  | (.dayOfYear, cs) => (number? cs).map fun n => { s with dayOfYear := some n }
  | (.weekFromSunday, cs) => (number? cs).map fun n => { s with week := some (n, false) }
  | (.weekFromMonday, cs) => (number? cs).map fun n => { s with week := some (n, true) }
  | (.isoWeek, cs) => (number? cs).map fun n => { s with isoWeek := some n }
  | (.offset, cs) => (offsetMicros? cs).map fun n => { s with offset := some n }
  | (.meridiem, _) | (.zone, _) => some s

/-- Whether the fields that count weeks after ISO 8601 go together: a year of such weeks needs the
week and the day of the week and no day of the year, and a week needs its year. -/
def Found.isCoherent (s : Found) : Bool :=
  match s.isoYear, s.isoWeek with
  | some _, some _ => s.dayOfYear.isNone && s.weekday.isSome
  | some _, none => false
  | none, some _ => false
  | none, none => true

/-- The first day of a year. -/
def newYear? (year : Int) : Option Date := if year < 1 then none else Date.of? year.toNat 1 1

/-- The day of the year of a day of a week; days before the first Monday or Sunday are in week 0. -/
def weekDayOfYear? (year : Int) (week : Int) (fromMonday : Bool) (weekday : Int) : Option Int :=
  (newYear? year).map fun first =>
    let firstDay : Int := if fromMonday then first.weekday else (first.weekday + 1) % 7
    let day : Int := if fromMonday then weekday else (weekday + 1) % 7
    if week = 0 then 1 + day - firstDay
    else 1 + (7 - firstDay) % 7 + 7 * (week - 1) + day

/-- The year and the day of the year of a day of an ISO week. -/
def isoDayOfYear? (isoYear week weekday : Int) : Option (Int × Int) := do
  let first ← newYear? isoYear
  let correction : Int := (first.weekday + 3) % 7 + 4
  let n := week * 7 + (weekday + 1) - correction
  if n < 1 then
    let before ← newYear? (isoYear - 1)
    return (isoYear - 1, n + first.ordinal - before.ordinal)
  else return (isoYear, n)

/-- The year and the day of the year, if the fields tell the day by its place in the year. -/
def Found.dayInYear? (s : Found) (year : Int) : Option (Int × Option Int) :=
  match s.dayOfYear, s.weekday with
  | some n, _ => some (year, some n)
  | none, none => some (year, none)
  | none, some weekday => do
    let (year, n) ← match s.week, s.isoYear, s.isoWeek with
      | some (week, fromMonday), _, _ =>
        (weekDayOfYear? year week fromMonday weekday).map fun n => (year, some n)
      | none, some isoYear, some isoWeek =>
        (isoDayOfYear? isoYear isoWeek weekday).map fun (y, n) => (y, some n)
      | _, _, _ => some (year, none)
    match n with
    | some n =>
      if n ≤ 0 then
        if year < 1 then none
        else some (year - 1, some (n + Date.yearLength (year - 1).toNat))
      else some (year, some n)
    | none => some (year, none)

/-- The date the fields tell. Without a year it is 1900, where the 29th of February is no date. -/
def Found.date? (s : Found) : Option Date := do
  let leapDay := s.year.isNone && s.month = 2 && s.day = 29
  let year := s.year.getD (if leapDay then 1904 else 1900)
  let (year, inYear) ← s.dayInYear? year
  let d ← match inYear with
    | some n => (newYear? year).bind fun first => Date.ofOrdinal? (n - 1 + first.ordinal)
    | none =>
      if year < 0 ∨ s.month < 0 ∨ s.day < 0 then none
      else Date.of? year.toNat s.month.toNat s.day.toNat
  if leapDay then Date.of? 1900 d.month d.day else some d

/-- The moment the fields tell. -/
def Found.moment? (s : Found) : Option Moment := do
  if !s.isCoherent then none
  let d ← s.date?
  Moment.of? ⟨d, s.hour.toNat, s.minute.toNat, s.second.toNat, s.micro.toNat, s.offset⟩

/-- The moment that a text without blanks around it denotes by a pattern. -/
def moment? (p : DatePattern) (cs : List Char) : Option Moment := do
  let fields ← p.match? cs
  let meridiem := (fields.lookup .meridiem).getD []
  let found ← fields.foldlM (Found.take? meridiem) { }
  found.moment?

end DatePattern

end SchemaOnRead
