import SchemaOnRead.Columns.Router
import SchemaOnRead.Record.Batch
import SchemaOnRead.Splits.Generation

/-!
# Engines and sessions

An engine answers questions about the tables of a catalog over a store. It remembers definitions and
columns that it has read, and whether it is open. A step of a session may fail; what the engine has
learned until then stays.
-/

namespace SchemaOnRead

/-- An engine: its tables, what it remembers of their columns, the time of its clock, and whether it
is open. -/
structure Engine where
  registry : Registry
  listings : ColumnListings := { capacity := ColumnListings.usualCapacity }
  clock : Rat := 0
  isOpen : Bool := false

/-- A step with an engine. -/
abbrev Session := ExceptT Failure (StateM Engine)

namespace Session

/-- Takes the outcome of something that does not change the engine. -/
def of {α : Type} (r : Result α) : Session α := liftM r

/-- Looks something up in the registry of the engine. -/
def consult {α : Type} (look : Rat → Registry → Logged α × Registry) : Session α := do
  let e ← get
  let (found, registry) := look e.clock e.registry
  set { e with registry := registry }
  of found.result

/-! ## Opening and closing -/

/-- Opens the engine. -/
def connect : Session Unit := modify fun e => { e with isOpen := true }

/-- Closes the engine. -/
def disconnect : Session Unit := modify fun e => { e with isOpen := false }

/-- Opens the engine unless it is open. -/
def ensureOpen : Session Unit := do
  if !(← get).isOpen then connect

/-! ## Tables -/

/-- The names of all schemas, in order. -/
def schemas : Session (List String) := do return (← get).registry.schemaNames

/-- The names of the tables of a schema, in order. -/
def tables (s : Store) (schema : String) : Session (List String) :=
  consult fun now r => r.tableNames s now schema

/-- The definition of a table. -/
def table (s : Store) (h : TableHandle) : Session LogicalTable :=
  consult fun now r => r.table s now h.schemaName h.tableName

/-- The handle of a table that is defined. -/
def handle (s : Store) (schema name : String) : Session TableHandle := do
  let _ ← table s ⟨schema, name⟩
  return ⟨schema, name⟩

/-- The columns of a table, partition columns included. -/
def columns (s : Store) (h : TableHandle) : Session (List Column) := do
  let t ← table s h
  let e ← get
  let (listed, listings) := e.listings.columns s e.registry.settings h.schemaName t
  set { e with listings := listings }
  of listed.result

/-! ## Splits and rows -/

/-- All splits of a layout. -/
def splits (s : Store) (l : TableLayout) : Session (List Split) := do
  let trace ← consult fun now r => l.splits s now r
  of ((SplitSource.of trace).drain (← get).registry.settings.splitBatch)

/-- The rows of a split. -/
def recordSet (s : Store) (split : Split) (cs : List Column) : Session RecordSet := do
  let t ← table s ⟨split.schemaName, split.tableName⟩
  of (RecordSet.of split.path split.fileType cs t.partition split.size Records.defaultLimit)

/-- Tells of a failure while a split was read which table and object it concerns. Failures of
foreign formats stay as they are. -/
def placeFailure (h : TableHandle) (split : Split) (f : Failure) : Failure :=
  if f.report.kind.isOwn then
    (f.note "table" (.text h.shown)).note "object_path" (.text split.path)
  else f

/-- The rows of a split that is read for a table. -/
def splitRows (s : Store) (h : TableHandle) (cs : List Column) (split : Split) :
    Session (List Row) :=
  tryCatch (do of ((← recordSet s split cs).rows s)) fun f => throw (placeFailure h split f)

end Session

/-- The rows of a table with their columns. -/
structure Scan where
  columns : List Column
  rows : List Row

namespace Session

/-- Reads the rows of a table under constraints; of all columns, unless some are asked for. -/
def scan (s : Store) (h : TableHandle) (constraints : Value.Fields) (cs : Option (List Column)) :
    Session Scan := do
  let cs ← match cs with
    | some cs => pure cs
    | none => columns s h
  let found ← splits s (TableLayout.of h constraints)
  let rows ← found.mapM (splitRows s h cs)
  return ⟨cs, rows.flatten⟩

end Session

end SchemaOnRead
