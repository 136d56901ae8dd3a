import SchemaOnRead.Columns.Sample

/-!
# Listing columns

The columns of a table are those that its definition declares. Without a declaration, the format of
its files decides: metrics have fixed columns, and those of JSON records are inferred from a sample.
The partition columns of the table come after them.
-/

namespace SchemaOnRead

/-- The ways to find the columns of a table. -/
inductive ColumnSource where
  | declared
  | sample
  | metrics
  deriving DecidableEq, Repr

namespace ColumnSource

/-- The way to find the columns of a table. -/
def ofTable (t : LogicalTable) : Result ColumnSource :=
  if t.columns.isSome then .ok declared
  else match t.fileType with
    | .ndjson => .ok sample
    | .telegraf => .ok metrics
    | .csv => fail (.unsupportedFileType t.fileType.name t.name)

/-- The columns that a table's definition declares. -/
def declaredColumns (schema : String) (t : LogicalTable) : Result (List Column) :=
  match t.columns with
  | some cs => .ok cs
  | none => fail (.noPredefinedColumns schema t.name)

/-- The columns of metrics. -/
def metricColumns : List Column :=
  [{ name := "timestamp", type := .timestamp, comment := some "Timestamp without TZ",
     format := some "epoch-seconds" },
   { name := "tags", type := .textMap, comment := some "Associative array of tags" },
   { name := "name", type := .varchar, comment := some "Name of metric" },
   { name := "fields", type := .doubleMap,
     comment := some "Associative array of metric fields" }]

/-- The columns of a table without its partition columns. -/
def columns (s : Store) (settings : Settings) (schema : String) (t : LogicalTable) :
    ColumnSource → Logged (List Column)
  | declared => .of (declaredColumns schema t)
  | sample => Sample.columns s settings schema t
  | metrics => .of (.ok metricColumns)

end ColumnSource

/-- Adds the partition columns whose names are not there yet. -/
def withPartitionColumns (t : LogicalTable) (cs : List Column) : List Column :=
  cs ++ t.partitionColumns.filter fun p => !cs.any (·.name == p.name)

/-- All columns of a table. -/
def LogicalTable.allColumns (t : LogicalTable) (s : Store) (settings : Settings) (schema : String) :
    Logged (List Column) := do
  let source ← Logged.of (ColumnSource.ofTable t)
  let cs ← source.columns s settings schema t
  return withPartitionColumns t cs

end SchemaOnRead
