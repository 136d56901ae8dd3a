import SchemaOnRead.Calendar.Iso8601
import SchemaOnRead.Record.Cell
import SchemaOnRead.Sql.Expr

/-!
# Scalars

The values that conditions compare. Numbers are exact or doubles; dates and moments are counted from
the start of 1970. A text that is compared with another kind of value is read as one of that kind.
-/

namespace SchemaOnRead.Sql

/-- A value in a condition. -/
inductive Scalar where
  | bool (b : Bool)
  | exact (r : Rat)
  | double (x : Binary64)
  | text (s : String)
  /-- A number of days. -/
  | date (days : Int)
  /-- A number of milliseconds. -/
  | moment (millis : Int)
  deriving DecidableEq

namespace Scalar

/-- The milliseconds of a day. -/
def millisPerDay : Int := 86400000

/-! ## Values of columns -/

/-- The fraction that a finite decimal is. -/
def ofDecimal? : Decimal → Option Scalar
  | .finite negative c e =>
    let signed : Int := if negative then -(c : Int) else c
    some (.exact (if 0 ≤ e then mkRat (signed * tenTo e.toNat) 1 else mkRat signed (tenTo (-e).toNat)))
  | _ => none

/-- What a cell of a column is in a condition; none for what cannot be compared. -/
def ofCell? (type : ColumnType) : Cell → Option Scalar
  | .boolean b => some (.bool b)
  | .integer n => some (if type = .timestamp then .moment n else .exact n)
  | .double x => some (.double x)
  | .decimal d => ofDecimal? d
  | .text s => some (.text s)
  | .date d => some (.date d.epochDay)
  | _ => none

/-- The number that the text of a literal denotes: one with an exponent is a double. -/
def ofNumber? (s : String) : Option Scalar :=
  if s.toList.any fun c => c == 'e' || c == 'E' then (Binary64.ofText? s).map .double
  else (Decimal.ofText? s).bind ofDecimal?

/-! ## Kinds -/

/-- Whether a text is one of those for a truth value. -/
def truthOfText? (s : String) : Option Bool :=
  let word := s.toList.map Char.toLower
  if ["true", "t", "1"].any (·.toList == word) then some true
  else if ["false", "f", "0"].any (·.toList == word) then some false
  else none

/-- Reads a text as a value of another value's kind. -/
def readAs (other : Scalar) (s : String) : Option Scalar :=
  match other with
  | bool _ => (truthOfText? s).map .bool
  | exact _ => (Decimal.ofText? s).bind ofDecimal?
  | double _ => (Binary64.ofText? s).map .double
  | text _ => some (.text s)
  | date _ => (Iso8601.readText? s).map fun m => .date m.date.epochDay
  | moment _ => (Iso8601.readText? s).map fun m => .moment m.millis

/-- The double nearest to a fraction. -/
def toDouble (r : Rat) : Binary64 := Binary64.ofRatio (r.num < 0) r.num.natAbs r.den

/-- Brings two values to one kind. -/
def unify : Scalar → Scalar → Option (Scalar × Scalar)
  | text a, text b => some (.text a, .text b)
  | text a, b => (readAs b a).map fun a => (a, b)
  | a, text b => (readAs a b).map fun b => (a, b)
  | exact a, double b => some (.double (toDouble a), .double b)
  | double a, exact b => some (.double a, .double (toDouble b))
  | bool a, exact b => some (.exact (if a then 1 else 0), .exact b)
  | exact a, bool b => some (.exact a, .exact (if b then 1 else 0))
  | date a, moment b => some (.moment (a * millisPerDay), .moment b)
  | moment a, date b => some (.moment a, .moment (b * millisPerDay))
  | a, b => some (a, b)

/-! ## Order -/

/-- How two doubles are ordered: what is no number comes last. -/
def orderDoubles (x y : Binary64) : Ordering :=
  if x.less y then .lt
  else if y.less x then .gt
  else match x, y with
    | .nan, .nan => .eq
    | .nan, _ => .gt
    | _, .nan => .lt
    | _, _ => .eq

/-- How two values of one kind are ordered. -/
def orderAlike : Scalar → Scalar → Option Ordering
  | bool a, bool b => some (compare a b)
  | exact a, exact b => some (if a < b then .lt else if b < a then .gt else .eq)
  | double a, double b => some (orderDoubles a b)
  | text a, text b => some (compareOfLessAndEq a b)
  | date a, date b => some (compare a b)
  | moment a, moment b => some (compare a b)
  | _, _ => none

/-- How two values are ordered; none if they cannot be compared. -/
def order? (a b : Scalar) : Option Ordering := (unify a b).bind fun (a, b) => orderAlike a b

end Scalar

namespace Comparison

/-- Whether a comparison holds of two values in an order. -/
def holds : Comparison → Ordering → Bool
  | equal, o => o == .eq
  | unequal, o => o != .eq
  | less, o => o == .lt
  | lessOrEqual, o => o != .gt
  | greater, o => o == .gt
  | greaterOrEqual, o => o != .lt

end Comparison

end SchemaOnRead.Sql
