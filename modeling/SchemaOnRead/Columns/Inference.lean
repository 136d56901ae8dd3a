import SchemaOnRead.Catalog.Column
import SchemaOnRead.Columns.DateGuess
import SchemaOnRead.Json.Reader
import SchemaOnRead.Record.Coercion

/-!
# Inferring columns

The columns of a table may be inferred from a sample record: one column a field, with a type that
holds the field's value.
-/

namespace SchemaOnRead.Inference

/-- Whether an integer has a signed form of some bits. -/
def hasBits (bits : Nat) (n : Int) : Bool :=
  -(twoTo (bits - 1) : Int) ≤ n && n ≤ (twoTo (bits - 1) : Int) - 1

/-- The narrowest type of an integer. -/
def integerType (n : Int) : ColumnType :=
  if hasBits 32 n then .integer else if hasBits 64 n then .bigint else .decimal

/-- Whether a decimal is a double's own shortest text, so that the double loses nothing of it. -/
def isDouble (d : Decimal) : Bool :=
  match Binary64.ofDecimal? d with
  | some x => (Coercion.decimalOfDouble x).same d
  | none => false

/-- The narrowest type that holds a number. -/
def numericType : Value → ColumnType
  | .integer n => integerType n
  | .bool b => integerType (if b then 1 else 0)
  | .double _ => .double
  | .decimal d => if isDouble d then .double else .decimal
  | _ => .decimal

/-- The column for a field of a sample record. -/
def column (name : String) (v : Value) : Column :=
  let plain (type : ColumnType) (comment : String) : Column := { name, type, comment := some comment }
  match v with
  | .object _ => plain .json "jsonObject"
  | .bool _ => plain .boolean "boolean"
  | .integer _ | .decimal _ | .double _ => plain (numericType v) "number"
  | .text s =>
    match DateGuess.find? name s with
    | some format => { plain .date "date" with format := some format }
    | none => plain .varchar "string"
  | .list _ => plain .varchar "array"
  | .null => plain .varchar "null"

/-- The columns for the fields of a sample record. -/
def columnsOf (fields : Value.Fields) : List Column := fields.map fun (name, v) => column name v

/-- The columns for the record on a line of an object. -/
def columnsOfLine (path line : String) : Result (List Column) :=
  match Json.readText line with
  | .ok (.object fields) => .ok (columnsOf fields)
  | .ok v => fail (.lineNotObject path v.kind)
  | .error .exponentOutOfRange => fail (.other .foreign)
  | .error _ => fail (.unparsableLine path (Text.trim line))

end SchemaOnRead.Inference
