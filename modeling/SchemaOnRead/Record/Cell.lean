import SchemaOnRead.Catalog.Column
import SchemaOnRead.Record.Coercion

/-!
# Cells

The value of a column in a record: the decoded value read as the column's type. `Cell.read` reads the
natural form of every type, `Cell.readObject` only that of the types whose values have a structure.
-/

namespace SchemaOnRead

/-- A value of a column. -/
inductive Cell where
  | boolean (b : Bool)
  | integer (n : Int)
  | double (x : Binary64)
  | decimal (d : Decimal)
  | text (s : String)
  | binary (bytes : List UInt8)
  | date (d : Date)
  | textMap (entries : List (String × Option String))
  | doubleMap (entries : List (String × Option Binary64))
  | json (v : Value)

/-- Where a value stands: its column, and the line and the path of its record. -/
structure CellPlace where
  column : Column
  line : Nat
  path : String

namespace CellPlace

/-- Reads a value; a mismatch is reported with the place and the value. -/
def coerce {α : Type} (p : CellPlace) (read : Value → Result α) (v : Value) : Result α :=
  match read v with
  | .ok a => .ok a
  | .error f =>
    match f.cause with
    | .mismatch m =>
      fail (.unreadableValue p.column.type.name p.column.name (Coercion.toText v) p.column.format
        p.line p.path m)
    | _ => .error f

/-- How the dates and timestamps of the column are written. -/
def temporal (p : CellPlace) : Coercion.TemporalFormat := .ofName p.column.format

/-- Reads a whole number: a timestamp as milliseconds and a date as days since the start of 1970. -/
def readInteger (p : CellPlace) : Value → Result Int :=
  p.coerce <| match p.column.type with
    | .timestamp => Coercion.toEpochMillis p.temporal
    | .date => Coercion.toEpochDays p.temporal
    | _ => Coercion.toInteger

/-- Reads a text; a value of a json column is read as compact JSON text. -/
def readText (p : CellPlace) : Value → Result String :=
  p.coerce fun v => .ok (if p.column.type = .json then Json.compact v else Coercion.toText v)

/-- The reader of structured values of a type, if it has any. -/
def objectReader : ColumnType → Option (Value → Result Cell)
  | .decimal => some fun v => (Coercion.toDecimal v).map .decimal
  | .varbinary => some fun v => (Coercion.toBinary v).map .binary
  | .textMap => some fun v => (Coercion.toTextMap v).map .textMap
  | .doubleMap => some fun v => (Coercion.toDoubleMap v).map .doubleMap
  | .json => some fun v => .ok (.json v)
  | _ => none

/-- Reads the natural form of a value. -/
def read (p : CellPlace) (v : Value) : Result Cell :=
  match p.column.type with
  | .boolean => (p.coerce Coercion.toBoolean v).map .boolean
  | .integer | .bigint | .timestamp => (p.readInteger v).map .integer
  | .date => do return .date (← Coercion.toDate (← p.readInteger v))
  | .double => (p.coerce Coercion.toDouble v).map .double
  | .varchar | .json => (p.readText v).map .text
  | .decimal => (p.coerce Coercion.toDecimal v).map .decimal
  | .varbinary => (p.coerce Coercion.toBinary v).map .binary
  | .textMap => (p.coerce Coercion.toTextMap v).map .textMap
  | .doubleMap => (p.coerce Coercion.toDoubleMap v).map .doubleMap

end CellPlace

end SchemaOnRead
