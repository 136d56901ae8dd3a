import SchemaOnRead.Catalog.FileType
import SchemaOnRead.Record.Cursor

/-!
# Batches of rows

The rows of an object in batches. The cells of a batch are brought into the form in which arrays
store them: integers within the range of their type, decimals with 38 digits, 12 of them after the
point.
-/

namespace SchemaOnRead

/-- The cells of a record in the order of the columns; none for null. -/
abbrev Row := List (Option Cell)

/-- The rows of an object: its format, the columns to read, and where their values come from. -/
structure RecordSet where
  path : String
  columns : List Column
  partition : Option PartitionDefinition := none
  totalBytes : Option Int := none
  limit : Int := Records.defaultLimit

namespace RecordSet

/-- The number of rows of a batch unless another one is asked for. -/
def defaultBatchSize : Int := 10000

/-- The rows of an object of a format. -/
def of (path : String) (type : FileType) (columns : List Column)
    (partition : Option PartitionDefinition) (totalBytes : Option Int) (limit : Int) :
    Result RecordSet :=
  if type = .csv then fail (.csvUnsupported path)
  else .ok { path, columns, partition, totalBytes, limit }

def cursor (r : RecordSet) : Result Cursor :=
  Cursor.of r.path r.columns r.partition r.totalBytes r.limit

/-! ## Cells as arrays store them -/

def decimalPrecision : Nat := 38
def decimalScale : Nat := 12

/-- Whether an integer has a signed form of some bits. -/
def fits (bits : Nat) (n : Int) : Bool := -(twoTo (bits - 1) : Int) ≤ n && n < (twoTo (bits - 1) : Int)

/-- A decimal as an array stores it. -/
def storeDecimal (path : String) (line : Nat) (column : Column) (d : Decimal) : Result Decimal :=
  match d.quantize? decimalPrecision decimalScale with
  | some d => .ok d
  | none => fail (.decimalTooLarge column.name d.text path line)

/-- A cell as an array of the column's type stores it. A zero has no sign there. -/
def storeCell (type : ColumnType) : Cell → Result Cell
  | .integer n =>
    if !fits 64 n then fail (.other .overflow)
    else if type = .integer ∧ !fits 32 n then fail (.other .foreign)
    else .ok (.integer n)
  | .decimal (.nan ..) => fail (.other .foreign)
  | .decimal (.finite _ 0 e) => .ok (.decimal (.finite false 0 e))
  | cell => .ok cell

/-- The cells of one column as an array stores them. Decimals are rounded first. -/
def storeColumn (path : String) (line : Nat) (column : Column) (cells : List (Option Cell)) :
    Result (List (Option Cell)) := do
  let rounded ← cells.mapM fun cell =>
    match cell with
    | some (.decimal d) =>
      if column.type = .decimal then
        (storeDecimal path line column d).map fun d => some (.decimal d)
      else .ok cell
    | cell => .ok cell
  rounded.mapM fun cell =>
    match cell with
    | some c => (storeCell column.type c).map some
    | none => .ok none

/-- The cells of rows by column. -/
def byColumn : List Column → List Row → List (List (Option Cell))
  | [], _ => []
  | _ :: columns, rows => rows.map (·.headD none) :: byColumn columns (rows.map (·.drop 1))

/-- Rows from the cells of `count` rows by column. -/
def byRow : Nat → List (List (Option Cell)) → List Row
  | 0, _ => []
  | count + 1, columns =>
    columns.map (·.headD none) :: byRow count (columns.map (·.drop 1))

/-- Rows as arrays store them, after the record of a line has been read. -/
def storeRows (path : String) (line : Nat) (columns : List Column) (rows : List Row) :
    Result (List Row) := do
  let stored ← (columns.zip (byColumn columns rows)).mapM fun (c, cells) =>
    storeColumn path line c cells
  -- without columns the arrays tell nothing of the number of rows
  return if columns.isEmpty then [] else byRow rows.length stored

/-! ## Batches -/

/-- Batches that could be read, and the failure that ends them if there is one. -/
structure Batches where
  batches : List (List Row)
  failure : Option Failure := none
  cursor : Option Cursor := none

/-- Puts a batch in front. -/
def Batches.cons (batch : List Row) (b : Batches) : Batches :=
  { b with batches := batch :: b.batches }

/-- The row of the record that a cursor is on. -/
def row (c : Cursor) : Result Row :=
  (List.range c.columns.length).mapM fun (i : Nat) => c.getValue i

/-- Reads rows into batches of `size`. `rows` holds the rows of the current batch, last first, and
`moved` is what moving the cursor gave. Each further record takes one step. -/
def batchesFrom (s : Store) (size : Int) : Nat → List Row → Result Bool × Cursor → Batches
  | _, _, (.error f, c) => ⟨[], some f, some c⟩
  | 0, _, (.ok _, c) => ⟨[], none, some c⟩
  | _, rows, (.ok false, c) =>
    if rows.isEmpty then ⟨[], none, some c⟩
    else match storeRows c.path c.line c.columns rows.reverse with
      | .error f => ⟨[], some f, some c⟩
      | .ok batch => ⟨[batch], none, some c⟩
  | fuel + 1, rows, (.ok true, c) =>
    match row c with
    | .error f => ⟨[], some f, some c⟩
    | .ok r =>
      let rows := r :: rows
      if size ≤ rows.length then
        match storeRows c.path c.line c.columns rows.reverse with
        | .error f => ⟨[], some f, some c⟩
        | .ok batch => (batchesFrom s size fuel [] (c.advance s)).cons batch
      else batchesFrom s size fuel rows (c.advance s)

/-- The number of moves that are left once a cursor has moved for the first time. -/
def movesLeft (c : Cursor) : Nat := ((c.ahead.map (·.records.length)).getD 0) + 2

/-- The rows of an object in batches of at most `size` rows; a size below one counts as one. -/
def batches (s : Store) (r : RecordSet) (size : Int) : Batches :=
  match r.cursor with
  | .error f => ⟨[], some f, none⟩
  | .ok c =>
    let moved := c.advance s
    batchesFrom s size (movesLeft moved.2) [] moved

/-- All rows of an object. -/
def rows (s : Store) (r : RecordSet) : Result (List Row) :=
  let b := r.batches s defaultBatchSize
  match b.failure with
  | some f => .error f
  | none => .ok b.batches.flatten

end RecordSet

end SchemaOnRead
