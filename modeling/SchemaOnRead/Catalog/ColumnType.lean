import SchemaOnRead.Failure
import SchemaOnRead.Text.Lowercase

/-!
# Column types

The types a column may have, their names, and the type names that manifests accept: the names
themselves with any blanks and in any letter case, and a few aliases, some of which say how a
timestamp is written.
-/

namespace SchemaOnRead

open Text

/-- The type of a column. -/
inductive ColumnType where
  | boolean
  | integer
  | bigint
  | double
  | decimal
  | varchar
  | varbinary
  | date
  | timestamp
  | textMap
  | doubleMap
  | json
  deriving DecidableEq, Repr, Inhabited

namespace ColumnType

def all : List ColumnType :=
  [boolean, integer, bigint, double, decimal, varchar, varbinary, date, timestamp, textMap,
    doubleMap, json]

/-- The name of a type. -/
def name : ColumnType → String
  | boolean => "boolean"
  | integer => "integer"
  | bigint => "bigint"
  | double => "double"
  | decimal => "decimal"
  | varchar => "varchar"
  | varbinary => "varbinary"
  | date => "date"
  | timestamp => "timestamp"
  | textMap => "map(varchar,varchar)"
  | doubleMap => "map(varchar,double)"
  | json => "json"

def isMap : ColumnType → Bool
  | textMap | doubleMap => true
  | _ => false

/-- The type of the array in which the values of a column are stored. -/
def arrayType : ColumnType → String
  | boolean => "bool"
  | integer => "int32"
  | bigint => "int64"
  | double => "double"
  | decimal => "decimal128(38, 12)"
  | varchar => "string"
  | varbinary => "binary"
  | date => "date32[day]"
  | timestamp => "timestamp[ms]"
  | textMap => "map<string, string>"
  | doubleMap => "map<string, double>"
  | json => "string"

/-- Other names of types, with the format they imply. -/
def aliases : List (String × (ColumnType × Option String)) :=
  [("bool", (boolean, none)), ("int", (integer, none)), ("string", (varchar, none)),
    ("timestamp-epoch-milliseconds", (timestamp, some "epoch-milliseconds")),
    ("timestamp-epoch-seconds", (timestamp, some "epoch-seconds")),
    ("timestamp epoch seconds", (timestamp, some "epoch-seconds")),
    ("string[string,string]", (textMap, none)), ("string[string,double]", (doubleMap, none))]

/-- A name in lower case without any blanks. -/
def squeeze (s : String) : String := String.ofList (words (lower s.toList)).flatten

/-- The type with a name, and the format the name implies. A name counts first without its blanks,
then, for the aliases, with the blanks inside it. -/
def ofName? (s : String) : Option (ColumnType × Option String) :=
  match all.find? (·.name == squeeze s) with
  | some t => some (t, none)
  | none => (aliases.lookup (lowercase (trim s))).or (aliases.lookup (squeeze s))

/-- The type a manifest names. -/
def parse (name : Value) : Result (ColumnType × Option String) :=
  match name with
  | .text s =>
    if isBlankText s then fail (.blankTypeName name)
    else match ofName? s with
      | some found => .ok found
      | none => fail (.unknownTypeName s)
  | v => fail (.blankTypeName v)

end ColumnType

end SchemaOnRead
