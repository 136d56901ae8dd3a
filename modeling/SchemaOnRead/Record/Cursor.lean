import SchemaOnRead.Catalog.PartitionDefinition
import SchemaOnRead.Record.Cell
import SchemaOnRead.Record.Reader
import SchemaOnRead.Storage.Store

/-!
# Cursors

A cursor moves over the records of an object and gives the values of its columns. The object is
opened when the cursor first moves, and its stream is released when the records are exhausted, when
one cannot be read, and when the cursor is closed. Values can only be read while the cursor is
positioned on a record.
-/

namespace SchemaOnRead

/-- Where a cursor is in its life. -/
inductive CursorState where
  | unstarted
  | positioned
  | exhausted
  | closed
  deriving DecidableEq, Repr

namespace CursorState

def name : CursorState → String
  | unstarted => "unstarted"
  | positioned => "positioned"
  | exhausted => "exhausted"
  | closed => "closed"

/-- The place of a state in the order of a cursor's life. -/
def rank : CursorState → Nat
  | unstarted => 0
  | positioned => 1
  | exhausted => 2
  | closed => 3

end CursorState

/-- A cursor. `ahead` stands for all that the cursor holds while it reads: the reader of records and the
stream that it reads from, with the layers of that stream. They are opened and released together, so
`ahead` is what they will still give, or nothing at all. -/
structure Cursor where
  path : String
  columns : List Column
  limit : Int
  totalBytes : Option Int
  partitionValues : PartitionDefinition.Values
  state : CursorState := .unstarted
  ahead : Option Records := none
  fields : Value.Fields := []
  line : Nat := 0
  opens : Nat := 0
  completedBytes : Nat := 0

namespace Cursor

/-- A cursor over an object. The values of partition columns come from the path, if there is such a
column. -/
def of (path : String) (columns : List Column) (partition : Option PartitionDefinition)
    (totalBytes : Option Int) (limit : Int) : Result Cursor := do
  let partitionValues ← match partition with
    | some d => if columns.any (·.isPartition) then d.values path else .ok []
    | none => .ok []
  return { path, columns, limit, totalBytes, partitionValues }

/-! ## Movement -/

/-- Whether reading has begun. -/
def hasStarted (c : Cursor) : Bool := 0 < c.opens

/-- The size of the object: the declared one, or the one found when the records are exhausted. -/
def size (c : Cursor) : Int := c.totalBytes.getD (-1)

/-- Releases the stream. -/
def release (c : Cursor) : Cursor := { c with ahead := none }

/-- Closes the cursor. -/
def close (c : Cursor) : Cursor := { c with state := .closed }.release

/-- The records of an object in a store. -/
def openObject (s : Store) (path : String) (limit : Int) : Result Records := do
  return Records.ofContents path limit (.ofObject path (← s.read path).toList)

/-- Takes the next record of an open stream. -/
def step (c : Cursor) (rs : Records) : Result Bool × Cursor :=
  match rs.records with
  | r :: later =>
    (.ok true, { c with
      state := .positioned, ahead := some { rs with records := later }, fields := r.fields
      line := r.line, completedBytes := r.bytesRead })
  | [] =>
    let c := { c with completedBytes := rs.bytesRead }
    match rs.failure with
    | some f => (.error f, c.close)
    | none =>
      (.ok false, { c with
        state := .exhausted, totalBytes := some (c.totalBytes.getD rs.bytesRead) }.release)

/-- Moves to the next record; false if there is none. -/
def advance (s : Store) (c : Cursor) : Result Bool × Cursor :=
  match c.state with
  | .exhausted | .closed => (.ok false, c)
  | .unstarted =>
    let c := { c with opens := c.opens + 1 }
    match openObject s c.path c.limit with
    | .error f => (.error f, c.close)
    | .ok rs => c.step rs
  | .positioned =>
    match c.ahead with
    | some rs => c.step rs
    | none => (.ok false, c)

/-! ## Values -/

/-- The column with a number. -/
def column (c : Cursor) (field : Int) : Result Column :=
  let found := if field < 0 then none else c.columns[field.toNat]?
  match found with
  | some column => .ok column
  | none => fail (.noSuchField c.path field c.columns.length)

/-- The value of a column before it is read as the column's type. -/
def raw (c : Cursor) (field : Int) : Result (Column × Value) := do
  let column ← c.column field
  if c.state ≠ .positioned then fail (.notPositioned c.path c.state.name)
  else if column.isPartition then
    match (c.partitionValues.lookup column.name).join with
    | some s => return (column, .text s)
    | none => return (column, .null)
  else return (column, Value.fieldD c.fields column.name)

def isNull (c : Cursor) (field : Int) : Result Bool := do return (← c.raw field).2.isNull

/-- Reads a value that must not be null. -/
def present {α : Type} (c : Cursor) (field : Int) (read : CellPlace → Value → Result α) :
    Result α := do
  let (column, v) ← c.raw field
  if v.isNull then fail (.valueIsNull column.name c.path c.line)
  else read ⟨column, c.line, c.path⟩ v

def getBoolean (c : Cursor) (field : Int) : Result Bool :=
  c.present field fun p => p.coerce Coercion.toBoolean

def getInteger (c : Cursor) (field : Int) : Result Int := c.present field CellPlace.readInteger

def getDouble (c : Cursor) (field : Int) : Result Binary64 :=
  c.present field fun p => p.coerce Coercion.toDouble

def getText (c : Cursor) (field : Int) : Result String := c.present field CellPlace.readText

/-- Reads a structured value; only some types have any. -/
def getObject (c : Cursor) (field : Int) : Result Cell := do
  let column ← c.column field
  match CellPlace.objectReader column.type with
  | none => fail (.noObjectForm column.name field column.type.name)
  | some read => c.present field fun p => p.coerce read

/-- Reads the natural form of a value, or none for null. -/
def getValue (c : Cursor) (field : Int) : Result (Option Cell) := do
  let (column, v) ← c.raw field
  if v.isNull then return none
  else return some (← CellPlace.read ⟨column, c.line, c.path⟩ v)

def getType (c : Cursor) (field : Int) : Result ColumnType := do return (← c.column field).type

end Cursor

end SchemaOnRead
