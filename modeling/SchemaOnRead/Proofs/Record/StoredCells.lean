import SchemaOnRead.Proofs.Json.Surrogates
import SchemaOnRead.Proofs.Numeric.Quantized
import SchemaOnRead.Proofs.Record.Batching
import SchemaOnRead.Proofs.Record.Values

/-!
# What arrays hold

The values in a batch fit the types of their columns: an array holds an integer of its width, or a
decimal with 12 digits after the point and 38 in all (`batches_fit`). A value that was read and does not
fit ends the batches. Only a decimal with too many digits is reported as a defect of the object; an
integer that is too large and a decimal that is no number are refused by the array itself. When batches
fail is said of objects whose texts are made of characters (`HasWholeTexts`), since arrays hold no others.
-/

namespace SchemaOnRead

open Cursor

/-! ## The forms of cells -/

/-- The natural form of the values of a type. -/
inductive Cell.OfType : ColumnType → Cell → Prop where
  | boolean (b : Bool) : OfType .boolean (.boolean b)
  | integer (n : Int) : OfType .integer (.integer n)
  | bigint (n : Int) : OfType .bigint (.integer n)
  | timestamp (n : Int) : OfType .timestamp (.integer n)
  | date (d : Date) : OfType .date (.date d)
  | double (x : Binary64) : OfType .double (.double x)
  | decimal (d : Decimal) : OfType .decimal (.decimal d)
  | varchar (s : String) : OfType .varchar (.text s)
  | json (s : String) : OfType .json (.text s)
  | varbinary (bytes : List UInt8) : OfType .varbinary (.binary bytes)
  | textMap (entries : List (String × Option String)) : OfType .textMap (.textMap entries)
  | doubleMap (entries : List (String × Option Binary64)) : OfType .doubleMap (.doubleMap entries)

/-- A value is read in the natural form of its column's type. -/
theorem CellPlace.ofType_read {p : CellPlace} {v : Value} {cell : Cell}
    (found : p.read v = .ok cell) : Cell.OfType p.column.type cell := by
  have mapped {α : Type} {r : Result α} {form : α → Cell} (found : r.map form = .ok cell) :
      ∃ a, form a = cell := by
    cases r with
    | error f => cases found
    | ok a => exact ⟨a, Except.ok.inj found⟩
  rw [read] at found
  cases type : p.column.type <;> simp only [type] at found
  case date =>
    obtain ⟨n, -, found⟩ := ok_of_bind found
    obtain ⟨d, -, found⟩ := ok_of_bind found
    cases found
    exact .date d
  all_goals
    obtain ⟨a, rfl⟩ := mapped found
    constructor

namespace RecordSet

/-- What is handed to an array of a type for a cell; none if a decimal has too many digits. -/
def handed? (type : ColumnType) : Cell → Option Cell
  | .decimal d =>
    if type = .decimal then (d.quantize? decimalPrecision decimalScale).map .decimal
    else some (.decimal d)
  | cell => some cell

/-- An integer has a signed form of some bits. -/
def InBits (bits : Nat) (n : Int) : Prop := -2 ^ (bits - 1) ≤ n ∧ n < 2 ^ (bits - 1)

/-- A decimal has 12 digits after the point and no more than 38 in all. -/
def InDigits (d : Decimal) : Prop :=
  ∃ negative c, c < 10 ^ decimalPrecision ∧ d = .finite negative c (-decimalScale)

/-- An array of a type has room for a value in the form of the type. -/
def Holds (type : ColumnType) : Cell → Prop
  | .integer n => if type = .integer then InBits 32 n else InBits 64 n
  | .decimal d => InDigits d
  | _ => True

/-- What is handed to an array for a cell, if there is one, fits the array. -/
def Fits (type : ColumnType) (cell : Option Cell) : Prop :=
  ∀ c, cell = some c → ∃ value, handed? type c = some value ∧ Holds type value

/-- Why a cell is not stored, and what is reported. -/
inductive Misfit (path : String) (line : Nat) (column : Column) : Cell → Failure → Prop where
  | tooManyDigits {d : Decimal} (none : d.quantize? decimalPrecision decimalScale = none) :
    Misfit path line column (.decimal d) (.mk (.decimalTooLarge column.name d.text path line) [])
  | notNumber {negative : Bool} {payload : Nat} :
    Misfit path line column (.decimal (.nan negative false payload)) (.mk (.other .foreign) [])
  | tooLarge {n : Int} (outside : ¬ InBits 64 n) :
    Misfit path line column (.integer n) (.mk (.other .overflow) [])
  | tooWide {n : Int} (narrow : column.type = .integer) (outside : ¬ InBits 32 n) :
    Misfit path line column (.integer n) (.mk (.other .foreign) [])

/-- A value as an array holds it: zeros have no sign. -/
def held : Cell → Cell
  | .decimal (.finite _ 0 e) => .decimal (.finite false 0 e)
  | cell => cell

/-- What is stored for a cell that fits. -/
def storedCell (type : ColumnType) (cell : Option Cell) : Option Cell :=
  (cell.bind (handed? type)).map held

theorem fits_iff {bits : Nat} {n : Int} : fits bits n = true ↔ InBits bits n := by
  rw [fits, Bool.and_eq_true, decide_eq_true_eq, decide_eq_true_eq, InBits]
  simp

/-! ## Storing a cell -/

/-- A decimal that has the digits of an array is one, or it is no number. -/
theorem inDigits_of_quantize? {d d' : Decimal}
    (digits : d.quantize? decimalPrecision decimalScale = some d') :
    InDigits d' ∨ ∃ negative payload, d = .nan negative false payload ∧ d' = d := by
  cases d with
  | finite negative c e =>
    rcases Decimal.quantize?_finite decimalPrecision (by decide) decimalScale negative c
      e with ⟨-, none⟩ | ⟨few, same, -⟩
    · rw [none] at digits
      cases digits
    · rw [same] at digits
      cases digits
      exact .inl ⟨_, _, few, rfl⟩
  | infinite negative => cases digits
  | nan negative signaling payload =>
    cases signaling with
    | false =>
      cases digits
      exact .inr ⟨_, _, rfl, rfl⟩
    | true => cases digits

/-- What is handed to an array for a cell of a column, or the failure if there is nothing. -/
def handOver (path : String) (line : Nat) (column : Column) (cell : Option Cell) :
    Result (Option Cell) :=
  match cell with
  | some (.decimal d) =>
    if column.type = .decimal then (storeDecimal path line column d).map fun d => some (.decimal d)
    else .ok cell
  | cell => .ok cell

/-- What an array makes of a value that is handed to it. -/
def keep (type : ColumnType) : Option Cell → Result (Option Cell)
  | some c => (storeCell type c).map some
  | none => .ok none

/-- Stores one cell of a column. -/
def storeOne (path : String) (line : Nat) (column : Column) (cell : Option Cell) :
    Result (Option Cell) :=
  (handOver path line column cell).bind (keep column.type)

variable {path : String} {line : Nat} {column : Column} {cell : Cell}

/-- A cell fits and is stored. -/
def Stores (path : String) (line : Nat) (column : Column) (cell : Cell) : Prop :=
  Fits column.type (some cell) ∧
    storeOne path line column (some cell) = .ok (storedCell column.type (some cell))

theorem stores_of {value : Cell} (handed : handed? column.type cell = some value)
    (room : Holds column.type value)
    (stored : storeOne path line column (some cell) = .ok (some (held value))) :
    Stores path line column cell := by
  refine ⟨?_, ?_⟩
  · rintro c ⟨⟩
    exact ⟨value, handed, room⟩
  · rw [stored, storedCell, Option.bind_some, handed]
    rfl

/-- A cell is a misfit and fails. -/
def Refused (path : String) (line : Nat) (column : Column) (cell : Cell) : Prop :=
  ∃ f, Misfit path line column cell f ∧ storeOne path line column (some cell) = .error f

theorem store_integer (n : Int) :
    Stores path line column (.integer n) ∨ Refused path line column (.integer n) := by
  by_cases wide : fits 64 n = true
  · by_cases narrow : column.type = .integer
    · by_cases small : fits 32 n = true
      · refine .inl (stores_of rfl ?_ ?_)
        · rw [Holds, if_pos narrow, ← fits_iff]
          exact small
        · simp [storeOne, handOver, keep, storeCell, wide, small, Except.map, Except.bind, held]
      · refine .inr ⟨_, .tooWide narrow (mt fits_iff.mpr small), ?_⟩
        simp [storeOne, handOver, keep, storeCell, wide, small, narrow, Except.map, Except.bind, fail]
    · refine .inl (stores_of rfl ?_ ?_)
      · rw [Holds, if_neg narrow, ← fits_iff]
        exact wide
      · simp [storeOne, handOver, keep, storeCell, wide, narrow, Except.map, Except.bind, held]
  · refine .inr ⟨_, .tooLarge (mt fits_iff.mpr wide), ?_⟩
    simp [storeOne, handOver, keep, storeCell, wide, Except.map, Except.bind, fail]

theorem store_decimal (type : column.type = .decimal) (d : Decimal) :
    Stores path line column (.decimal d) ∨ Refused path line column (.decimal d) := by
  have handed : handed? column.type (.decimal d) =
      (d.quantize? decimalPrecision decimalScale).map .decimal := if_pos type
  cases digits : d.quantize? decimalPrecision decimalScale with
  | none =>
    refine .inr ⟨_, .tooManyDigits digits, ?_⟩
    simp [storeOne, handOver, type, storeDecimal, digits, Except.map, Except.bind, fail]
  | some d' =>
    have given : handOver path line column (some (.decimal d)) = .ok (some (.decimal d')) := by
      simp [handOver, type, storeDecimal, digits, Except.map]
    rw [digits] at handed
    rcases inDigits_of_quantize? digits with inside | ⟨negative, payload, rfl, rfl⟩
    · refine .inl (stores_of handed inside ?_)
      rw [storeOne, given]
      obtain ⟨negative, c, -, rfl⟩ := inside
      cases c <;> rfl
    · refine .inr ⟨_, .notNumber, ?_⟩
      rw [storeOne, given]
      rfl

/-- A cell in the form of its column's type is stored or refused. -/
theorem store_cases (path : String) (line : Nat) (ofType : Cell.OfType column.type cell) :
    Stores path line column cell ∨ Refused path line column cell := by
  generalize known : column.type = type at ofType
  cases ofType with
  | integer n | bigint n | timestamp n => exact store_integer n
  | decimal d => exact store_decimal known d
  | _ => exact .inl (stores_of rfl trivial rfl)

/-! ## Storing the cells of a column -/

/-- The cells that are not missing are in the form of a type. -/
def AreOfType (type : ColumnType) (cells : List (Option Cell)) : Prop :=
  ∀ c, some c ∈ cells → Cell.OfType type c

theorem storeColumn_eq (path : String) (line : Nat) (column : Column) (cells : List (Option Cell)) :
    storeColumn path line column cells =
      (cells.mapM (handOver path line column)).bind (·.mapM (keep column.type)) := rfl

/-- The cells of a column are stored if all of them fit; otherwise they fail as one of them does. -/
theorem storeColumn_cases (path : String) (line : Nat) {cells : List (Option Cell)}
    (areOfType : AreOfType column.type cells) :
    ((∀ cell ∈ cells, Fits column.type cell) ∧
        storeColumn path line column cells = .ok (cells.map (storedCell column.type))) ∨
      ∃ c f, some c ∈ cells ∧ Misfit path line column c f ∧
        storeColumn path line column cells = .error f := by
  rw [storeColumn_eq]
  cases stored : (cells.mapM (handOver path line column)).bind (·.mapM (keep column.type)) with
  | ok answers =>
    have each := ok_of_bind_mapM stored
    have stores (c : Cell) (member : some c ∈ cells) : Stores path line column c := by
      obtain ⟨value, one⟩ := each _ member
      refine (store_cases path line (areOfType c member)).resolve_right ?_
      rintro ⟨f, -, failed⟩
      cases failed.symm.trans one
    refine .inl ⟨fun cell member c same => ?_, stored.symm.trans (bind_mapM_eq_ok fun cell member => ?_)⟩
    · exact (stores c (same ▸ member)).1 c rfl
    · cases cell with
      | none => rfl
      | some c => exact (stores c member).2
  | error f =>
    obtain ⟨cell, member, failed⟩ := exists_of_bind_mapM_error stored
    cases cell with
    | none => cases failed
    | some c =>
      rcases store_cases path line (areOfType c member) with stores | ⟨g, misfit, refused⟩
      · cases stores.2.symm.trans failed
      · cases refused.symm.trans failed
        exact .inr ⟨c, f, member, misfit, rfl⟩

/-! ## Storing rows -/

/-- A row has a cell for each column, in the form of the column's type. -/
structure RowOf (columns : List Column) (row : Row) : Prop where
  length : row.length = columns.length
  ofType : ∀ column c, (column, some c) ∈ columns.zip row → Cell.OfType column.type c

/-- Every cell of a row fits. -/
def RowFits (columns : List Column) (row : Row) : Prop :=
  ∀ p ∈ columns.zip row, Fits p.1.type p.2

/-- What is stored for a row that fits. -/
def storedRow (columns : List Column) (row : Row) : Row :=
  (columns.zip row).map fun p => storedCell p.1.type p.2

/-- A cell of a row is misfit. -/
def RowMisfit (path : String) (line : Nat) (columns : List Column) (row : Row) (f : Failure) : Prop :=
  ∃ column c, (column, some c) ∈ columns.zip row ∧ Misfit path line column c f

/-- A row that is not empty is its first cell and the others. -/
theorem row_eq_cons {row : Row} {n : Nat} (length : row.length = n + 1) :
    row = row.headD none :: row.drop 1 := by
  cases row with
  | nil => cases length
  | cons x row => rfl

theorem length_drop_rows {rows : List Row} {n : Nat} (lengths : ∀ row ∈ rows, row.length = n + 1) :
    ∀ row ∈ rows.map (·.drop 1), row.length = n := by
  refine List.forall_mem_map.mpr fun row member => ?_
  rw [List.length_drop, lengths row member, Nat.add_sub_cancel]

/-- The cells by column are those by row. -/
theorem mem_byColumn_iff {columns : List Column} {rows : List Row}
    (lengths : ∀ row ∈ rows, row.length = columns.length) (c : Column) (cell : Option Cell) :
    (∃ cells, (c, cells) ∈ columns.zip (byColumn columns rows) ∧ cell ∈ cells) ↔
      ∃ row ∈ rows, (c, cell) ∈ columns.zip row := by
  induction columns generalizing rows with
  | nil => simp
  | cons d columns ih =>
    have split : ∀ row ∈ rows, row = row.headD none :: row.drop 1 := fun row member =>
      row_eq_cons (lengths row member)
    have later := ih (length_drop_rows lengths)
    simp only [byColumn, List.zip_cons_cons, List.mem_cons, Prod.mk.injEq]
    constructor
    · rintro ⟨cells, ⟨rfl, rfl⟩ | there, member⟩
      · obtain ⟨row, there, rfl⟩ := List.mem_map.mp member
        refine ⟨row, there, ?_⟩
        rw [split row there]
        exact .head _
      · obtain ⟨row', dropped, member⟩ := later.mp ⟨cells, there, member⟩
        obtain ⟨row, there, rfl⟩ := List.mem_map.mp dropped
        refine ⟨row, there, ?_⟩
        rw [split row there]
        exact .tail _ member
    · rintro ⟨row, there, member⟩
      rw [split row there, List.zip_cons_cons] at member
      rcases List.mem_cons.mp member with same | member
      · cases same
        exact ⟨_, .inl ⟨rfl, rfl⟩, List.mem_map_of_mem there⟩
      · obtain ⟨cells, there, member⟩ := later.mpr ⟨_, List.mem_map_of_mem there, member⟩
        exact ⟨cells, .inr there, member⟩

/-- The cells of rows by column, each of them changed. -/
def changedByColumn (change : Column → Option Cell → Option Cell) (columns : List Column)
    (rows : List Row) : List (List (Option Cell)) :=
  (columns.zip (byColumn columns rows)).map fun p => p.2.map (change p.1)

section

variable {change : Column → Option Cell → Option Cell} {columns : List Column}

/-- The first cells by column are those of the first row. -/
theorem headD_changedByColumn {row : Row} (length : row.length = columns.length) (rows : List Row) :
    (changedByColumn change columns (row :: rows)).map (·.headD none) =
      (columns.zip row).map fun p => change p.1 p.2 := by
  induction columns generalizing row rows with
  | nil => rfl
  | cons d columns ih =>
    cases row with
    | nil => cases length
    | cons x row =>
      have later := ih (Nat.succ.inj length) (rows.map (·.drop 1))
      simpa [changedByColumn, byColumn] using later

/-- The other cells by column are those of the other rows. -/
theorem drop_changedByColumn {row : Row} (length : row.length = columns.length) (rows : List Row) :
    (changedByColumn change columns (row :: rows)).map (·.drop 1) =
      changedByColumn change columns rows := by
  induction columns generalizing row rows with
  | nil => rfl
  | cons d columns ih =>
    cases row with
    | nil => cases length
    | cons x row =>
      have later := ih (Nat.succ.inj length) (rows.map (·.drop 1))
      simpa [changedByColumn, byColumn] using later

/-- Rows are made again from their cells by column, when these have been changed one by one. -/
theorem byRow_changedByColumn {rows : List Row}
    (lengths : ∀ row ∈ rows, row.length = columns.length) :
    byRow rows.length (changedByColumn change columns rows) =
      rows.map fun row => (columns.zip row).map fun p => change p.1 p.2 := by
  induction rows with
  | nil => rfl
  | cons row rows ih =>
    obtain ⟨length, others⟩ := List.forall_mem_cons.mp lengths
    rw [List.length_cons, byRow, headD_changedByColumn length, drop_changedByColumn length, ih others,
      List.map_cons]

end

theorem storeRows_eq (path : String) (line : Nat) (columns : List Column) (rows : List Row) :
    storeRows path line columns rows =
      ((columns.zip (byColumn columns rows)).mapM fun p => storeColumn path line p.1 p.2).map
        fun stored => if columns.isEmpty then [] else byRow rows.length stored := by
  rw [storeRows, bind_pure_comp]
  rfl

/-- What is stored for rows that fit; without columns, rows are not told from one another. -/
def storedRows (columns : List Column) (rows : List Row) : List Row :=
  if columns.isEmpty then [] else rows.map (storedRow columns)

/-- Rows are stored if all of them fit; otherwise they fail as one of their cells does. -/
theorem storeRows_cases (path : String) (line : Nat) {columns : List Column} {rows : List Row}
    (areRows : ∀ row ∈ rows, RowOf columns row) :
    ((∀ row ∈ rows, RowFits columns row) ∧
        storeRows path line columns rows = .ok (storedRows columns rows)) ∨
      ∃ row ∈ rows, ∃ f, RowMisfit path line columns row f ∧
        storeRows path line columns rows = .error f := by
  have lengths : ∀ row ∈ rows, row.length = columns.length := fun row member =>
    (areRows row member).length
  have byCell := mem_byColumn_iff lengths
  have areOfType (p : Column × List (Option Cell)) (member : p ∈ columns.zip (byColumn columns rows)) :
      AreOfType p.1.type p.2 := by
    intro c inside
    obtain ⟨row, there, inRow⟩ := (byCell _ _).mp ⟨p.2, member, inside⟩
    exact (areRows row there).ofType p.1 c inRow
  have cases_of (p : Column × List (Option Cell)) (member : p ∈ columns.zip (byColumn columns rows)) :=
    storeColumn_cases path line (areOfType p member)
  rw [storeRows_eq]
  cases stored : (columns.zip (byColumn columns rows)).mapM fun p => storeColumn path line p.1 p.2 with
  | ok answers =>
    have each (p : Column × List (Option Cell)) (member : p ∈ columns.zip (byColumn columns rows)) :
        (∀ cell ∈ p.2, Fits p.1.type cell) ∧
          storeColumn path line p.1 p.2 = .ok (p.2.map (storedCell p.1.type)) := by
      refine (cases_of p member).resolve_right ?_
      rintro ⟨c, f, -, -, failed⟩
      obtain ⟨answer, -, one⟩ := (exists_of_mem_mapM stored).2 p member
      cases failed.symm.trans one
    refine .inl ⟨fun row member p inRow => ?_, ?_⟩
    · obtain ⟨cells, there, inside⟩ := (byCell _ _).mpr ⟨row, member, inRow⟩
      exact (each _ there).1 p.2 inside
    · rw [mapM_eq_ok fun p member => (each p member).2] at stored
      cases stored
      have again : byRow rows.length (changedByColumn (fun c => storedCell c.type) columns rows) =
          rows.map (storedRow columns) := byRow_changedByColumn lengths
      rw [Except.map, storedRows, ← again]
      rfl
  | error f =>
    obtain ⟨p, member, failed⟩ := exists_of_mapM_error stored
    rcases cases_of p member with ⟨-, fine⟩ | ⟨c, g, inside, misfit, failed'⟩
    · cases fine.symm.trans failed
    · cases failed'.symm.trans failed
      obtain ⟨row, there, inRow⟩ := (byCell _ _).mp ⟨p.2, member, inside⟩
      exact .inr ⟨row, there, f, ⟨p.1, c, inRow, misfit⟩, rfl⟩

/-! ## Storing what was read -/

/-- The cells of a row that is read are the values of the columns. -/
theorem getValue_of_row {c : Cursor} {cells : Row} (read : row c = .ok cells) {i : Nat}
    {cell : Option Cell} (there : cells[i]? = some cell) : c.getValue i = .ok cell := by
  have related := forall₂_of_mapM read
  obtain ⟨inside, same⟩ := List.getElem?_eq_some_iff.mp there
  have more : i < (List.range c.columns.length).length := related.length_eq ▸ inside
  have one := related.get more inside
  simpa [same] using one

/-- A row that is read has cells in the forms of the columns' types. -/
theorem rowOf_row {c : Cursor} (onRecord : c.state = .positioned) {cells : Row}
    (read : row c = .ok cells) : RowOf c.columns cells := by
  have related := forall₂_of_mapM read
  refine ⟨by rw [← related.length_eq, List.length_range], fun column cell member => ?_⟩
  obtain ⟨i, there⟩ := List.mem_iff_getElem?.mp member
  obtain ⟨atColumn, atCell⟩ := List.getElem?_zip_eq_some.mp there
  have value := getValue_of_row read atCell
  have found : ∃ v, c.raw i = .ok (column, v) := by
    cases ofPath : column.isPartition with
    | true => exact ⟨_, raw_of_partition onRecord atColumn ofPath⟩
    | false => exact ⟨_, raw_of_data onRecord atColumn ofPath⟩
  obtain ⟨v, found⟩ := found
  rw [getValue_of_raw found] at value
  split at value
  · cases value
  · cases read : CellPlace.read ⟨column, c.line, c.path⟩ v with
    | error f =>
      rw [read] at value
      cases value
    | ok cell' =>
      rw [read] at value
      cases value
      exact CellPlace.ofType_read read

theorem rowOf_readRows (start : Cursor) (failure : Option Failure) (records : List Record) :
    ∀ q ∈ (readRows start failure records).rows, RowOf start.columns q.2 := by
  induction records with
  | nil => exact List.forall_mem_nil _
  | cons r later ih =>
    rw [readRows]
    cases read : row (start.on r) with
    | error f => exact List.forall_mem_nil _
    | ok cells => exact List.forall_mem_cons.mpr ⟨rowOf_row (c := start.on r) rfl read, ih⟩

theorem rowOf_reading (s : Store) (r : RecordSet) :
    ∀ q ∈ (r.reading s).rows, RowOf r.columns q.2 := by
  rw [reading]
  cases made : r.cursor with
  | error f => exact List.forall_mem_nil _
  | ok start =>
    obtain ⟨-, -, -, columns⟩ := fresh_of made
    simp only
    split
    · exact List.forall_mem_nil _
    · rw [← columns]
      exact rowOf_readRows start _ _

/-- What is stored for rows with their lines. -/
def storedChunk (columns : List Column) (chunk : List (Nat × Row)) : List Row :=
  storedRows columns (chunk.map (·.2))

/-- Chunks of rows are stored up to the first one that has a misfit, and end with the failure of the
misfit, or with the one they end with anyway. -/
structure StoredUpTo (path : String) (columns : List Column) (failure : Option Failure)
    (stored rest : List (List (Nat × Row))) (b : List (List Row) × Option Failure) : Prop where
  fits : ∀ chunk ∈ stored, ∀ q ∈ chunk, RowFits columns q.2
  batches : b.1 = stored.map (storedChunk columns)
  ends : rest = [] ∧ b.2 = failure ∨ ∃ chunk after f, rest = chunk :: after ∧ b.2 = some f ∧
    ∃ q ∈ chunk, RowMisfit path (lastLine chunk) columns q.2 f

theorem storedUpTo (path : String) {columns : List Column} (failure : Option Failure)
    {chunks : List (List (Nat × Row))}
    (areRows : ∀ chunk ∈ chunks, ∀ q ∈ chunk, RowOf columns q.2) :
    ∃ stored rest, chunks = stored ++ rest ∧
      StoredUpTo path columns failure stored rest (storeChunks path columns failure chunks) := by
  induction chunks with
  | nil => exact ⟨[], [], rfl, List.forall_mem_nil _, rfl, .inl ⟨rfl, rfl⟩⟩
  | cons chunk later ih =>
    obtain ⟨own, others⟩ := List.forall_mem_cons.mp areRows
    rw [storeChunks]
    rcases storeRows_cases path (lastLine chunk) (List.forall_mem_map.mpr own) with
      ⟨fits, kept⟩ | ⟨row, member, f, misfit, failed⟩
    · obtain ⟨stored, rest, rfl, allFit, batches, ends⟩ := ih others
      rw [kept]
      exact ⟨chunk :: stored, rest, rfl,
        List.forall_mem_cons.mpr ⟨List.forall_mem_map.mp fits, allFit⟩,
        congrArg (storedChunk columns chunk :: ·) batches, ends⟩
    · obtain ⟨q, there, rfl⟩ := List.mem_map.mp member
      rw [failed]
      exact ⟨[], chunk :: later, rfl, List.forall_mem_nil _, rfl,
        .inr ⟨chunk, later, f, rfl, rfl, q, there, misfit⟩⟩

/-! ## What is stored fits -/

/-- A value in a column is in the form of the column's type, and an array has room for it. -/
def InColumn (column : Column) (c : Cell) : Prop :=
  Cell.OfType column.type c ∧ Holds column.type c

theorem inColumn_held {column : Column} {cell value : Cell} (ofType : Cell.OfType column.type cell)
    (handed : handed? column.type cell = some value) (room : Holds column.type value) :
    InColumn column (held value) := by
  rw [InColumn]
  generalize column.type = type at *
  cases ofType with
  | decimal d =>
    obtain ⟨d', -, rfl⟩ := Option.map_eq_some_iff.mp handed
    obtain ⟨negative, c, few, rfl⟩ := room
    cases c with
    | zero => exact ⟨.decimal _, false, 0, few, rfl⟩
    | succ c => exact ⟨.decimal _, negative, c + 1, few, rfl⟩
  | _ =>
    cases handed
    exact ⟨by constructor, room⟩

theorem inColumn_stored {columns : List Column} {row : Row} (rowOf : RowOf columns row)
    (fits : RowFits columns row) {column : Column} {c : Cell}
    (member : (column, some c) ∈ columns.zip (storedRow columns row)) : InColumn column c := by
  obtain ⟨i, there⟩ := List.mem_iff_getElem?.mp member
  obtain ⟨atColumn, atCell⟩ := List.getElem?_zip_eq_some.mp there
  rw [storedRow, List.getElem?_map, Option.map_eq_some_iff] at atCell
  obtain ⟨⟨column', cell⟩, inRow, stored⟩ := atCell
  have sameColumn := (List.getElem?_zip_eq_some.mp inRow).1
  cases atColumn.symm.trans sameColumn
  replace inRow := List.mem_of_getElem? inRow
  rw [storedCell, Option.map_eq_some_iff] at stored
  obtain ⟨value, handed, rfl⟩ := stored
  obtain ⟨original, rfl, handed⟩ := Option.bind_eq_some_iff.mp handed
  obtain ⟨value', handed', room⟩ := fits _ inRow original rfl
  cases handed.symm.trans handed'
  exact inColumn_held (rowOf.ofType _ _ inRow) handed room

theorem inColumn_storedRows {columns : List Column} {rows : List Row}
    (areRows : ∀ row ∈ rows, RowOf columns row) (fits : ∀ row ∈ rows, RowFits columns row)
    {row : Row} (member : row ∈ storedRows columns rows) {column : Column} {c : Cell}
    (inRow : (column, some c) ∈ columns.zip row) : InColumn column c := by
  rw [storedRows] at member
  split at member
  · cases member
  · obtain ⟨original, there, rfl⟩ := List.mem_map.mp member
    exact inColumn_stored (areRows original there) (fits original there) inRow

theorem flatten_storedChunk (columns : List Column) (chunks : List (List (Nat × Row))) :
    (chunks.map (storedChunk columns)).flatten = storedChunk columns chunks.flatten := by
  induction chunks with
  | nil => simp [storedChunk, storedRows]
  | cons chunk later ih =>
    rw [List.map_cons, List.flatten_cons, ih, List.flatten_cons]
    simp only [storedChunk, storedRows, List.map_append]
    split <;> rfl

theorem exists_storedUpTo (s : Store) (r : RecordSet) (size : Int) :
    ∃ stored rest, (r.reading s).chunks size [] = stored ++ rest ∧
      StoredUpTo r.path r.columns (r.reading s).failure stored rest
        ((r.batches s size).batches, (r.batches s size).failure) := by
  rw [batches_eq]
  exact storedUpTo r.path _ fun chunk there q member =>
    rowOf_reading s r q (mem_of_mem_chunks there member)

/-- If the batches do not fail, reading does not fail either, and all rows are stored. -/
theorem batches_whole {s : Store} {r : RecordSet} {size : Int}
    (whole : (r.batches s size).failure = none) :
    (r.reading s).failure = none ∧ (∀ q ∈ (r.reading s).rows, RowFits r.columns q.2) ∧
      (r.batches s size).batches = ((r.reading s).chunks size []).map (storedChunk r.columns) := by
  obtain ⟨stored, rest, parted, fits, batches, ⟨rfl, ends⟩ | ⟨_, _, f, -, ends, -⟩⟩ :=
    exists_storedUpTo s r size
  · have read : (r.reading s).failure = none := ends.symm.trans whole
    rw [List.append_nil] at parted
    refine ⟨read, fun q member => ?_, parted ▸ batches⟩
    rw [← chunks_flatten size read, parted] at member
    obtain ⟨chunk, there, inside⟩ := List.mem_flatten.mp member
    exact fits chunk there q inside
  · cases whole.symm.trans ends

/-- If the batches do not fail, they hold all rows. -/
theorem batches_flatten {s : Store} {r : RecordSet} {size : Int}
    (whole : (r.batches s size).failure = none) :
    (r.reading s).failure = none ∧ (∀ q ∈ (r.reading s).rows, RowFits r.columns q.2) ∧
      (r.batches s size).batches.flatten = storedChunk r.columns (r.reading s).rows := by
  obtain ⟨read, fits, batches⟩ := batches_whole whole
  refine ⟨read, fits, ?_⟩
  rw [batches, flatten_storedChunk, chunks_flatten size read]

/-- A misfit does not fit. -/
theorem Misfit.not_fits {f : Failure} (misfit : Misfit path line column cell f)
    (ofType : Cell.OfType column.type cell) : ¬ Fits column.type (some cell) := by
  intro fits
  obtain ⟨value, handed, room⟩ := fits cell rfl
  cases misfit with
  | tooManyDigits none =>
    generalize column.type = type at *
    cases ofType
    simp [handed?, none] at handed
  | notNumber =>
    generalize column.type = type at *
    cases ofType
    cases handed
    obtain ⟨_, _, -, same⟩ := room
    cases same
  | tooLarge outside =>
    cases handed
    rw [Holds] at room
    split at room
    · obtain ⟨least, less⟩ := room
      exact outside ⟨by omega, by omega⟩
    · exact outside room
  | tooWide narrow outside =>
    cases handed
    rw [Holds, if_pos narrow] at room
    exact outside room

/-- Only a decimal that has too many digits is reported as a defect of the object. -/
theorem Misfit.kind_iff {f : Failure} (misfit : Misfit path line column cell f)
    (ofType : Cell.OfType column.type cell) :
    f.report.kind = .fileFormat ↔ handed? column.type cell = none := by
  generalize known : column.type = type at ofType
  cases misfit with
  | tooManyDigits none =>
    cases ofType
    exact iff_of_true rfl (by simp [handed?, none])
  | notNumber =>
    cases ofType
    exact iff_of_false (by decide) (by simp [handed?, Decimal.quantize?])
  | tooLarge outside | tooWide narrow outside =>
    exact iff_of_false (by decide) (by simp [handed?])

/-- The batches do not fail if and only if all rows can be read and all their values fit. -/
theorem batches_failure_eq_none {s : Store} {r : RecordSet} {size : Int} :
    (r.batches s size).failure = none ↔
      (r.reading s).failure = none ∧ ∀ q ∈ (r.reading s).rows, RowFits r.columns q.2 := by
  refine ⟨fun whole => ⟨(batches_whole whole).1, (batches_whole whole).2.1⟩, fun ⟨read, allFit⟩ => ?_⟩
  obtain ⟨stored, rest, parted, -, -, ends⟩ := exists_storedUpTo s r size
  rcases ends with ⟨-, same⟩ | ⟨chunk, after, f, rfl, -, q, member, column, c, inRow, misfit⟩
  · exact same.trans read
  · have inChunks : chunk ∈ (r.reading s).chunks size [] :=
      parted ▸ List.mem_append_right _ List.mem_cons_self
    have here := mem_of_mem_chunks inChunks member
    have ofType := (rowOf_reading s r q here).ofType _ _ inRow
    exact absurd (allFit q here _ inRow) (misfit.not_fits ofType)

/-- The batches fail as reading does, or as a value does that does not fit. -/
theorem batches_failure_cases {s : Store} {r : RecordSet} {size : Int} {f : Failure}
    (failed : (r.batches s size).failure = some f) :
    (r.reading s).failure = some f ∨
      ∃ q ∈ (r.reading s).rows, ∃ column c line, (column, some c) ∈ r.columns.zip q.2 ∧
        Misfit r.path line column c f ∧ Cell.OfType column.type c := by
  obtain ⟨stored, rest, parted, -, -, ends⟩ := exists_storedUpTo s r size
  rcases ends with ⟨-, same⟩ | ⟨chunk, after, g, rfl, same, q, member, column, c, inRow, misfit⟩
  · exact .inl (same.symm.trans failed)
  · have inChunks : chunk ∈ (r.reading s).chunks size [] :=
      parted ▸ List.mem_append_right _ List.mem_cons_self
    have here := mem_of_mem_chunks inChunks member
    have ofType := (rowOf_reading s r q here).ofType _ _ inRow
    cases same.symm.trans failed
    exact .inr ⟨q, here, column, c, _, inRow, misfit, ofType⟩

/-- What comes out in a batch is in the columns it is in. -/
theorem inColumn_batches {s : Store} {r : RecordSet} {size : Int} {batch : List Row}
    (there : batch ∈ (r.batches s size).batches) {row : Row} (inBatch : row ∈ batch)
    {column : Column} {c : Cell} (inRow : (column, some c) ∈ r.columns.zip row) :
    InColumn column c := by
  obtain ⟨stored, rest, parted, fits, batches, -⟩ := exists_storedUpTo s r size
  rw [show (r.batches s size).batches = _ from batches] at there
  obtain ⟨chunk, inStored, rfl⟩ := List.mem_map.mp there
  have inChunks : chunk ∈ (r.reading s).chunks size [] :=
    parted ▸ List.mem_append_left _ inStored
  have areRows : ∀ q ∈ chunk, RowOf r.columns q.2 := fun q member =>
    rowOf_reading s r q (mem_of_mem_chunks inChunks member)
  exact inColumn_storedRows (List.forall_mem_map.mpr areRows)
    (List.forall_mem_map.mpr (fits chunk inStored)) inBatch inRow

/-- No half of a surrogate pair stands alone in an object, as far as its lines can be read. An array
takes texts made of characters only and refuses one with such a half, for which the replacement character
is read here. -/
def HasWholeTexts (s : Store) (r : RecordSet) : Prop :=
  ∀ bytes, s.read r.path = .ok bytes →
    Json.Paired ((Lines.ofContents false (.ofObject r.path bytes.toList)).lines.flatMap Line.text)

/-- The batches of an object hold values that fit their columns only. If its texts are whole, they do
not fail if and only if all rows can be read and all their values fit. Otherwise they fail as reading
does, or as a value does that does not fit; this is reported as a defect of the object exactly if the
value is a decimal that has too many digits, and so is not even handed to an array. -/
theorem batches_fit (s : Store) (r : RecordSet) (size : Int) :
    let b := r.batches s size
    let rd := r.reading s
    (∀ batch ∈ b.batches, ∀ row ∈ batch, ∀ column c,
        (column, some c) ∈ r.columns.zip row → InColumn column c) ∧
      (HasWholeTexts s r →
        (b.failure = none ↔ rd.failure = none ∧ ∀ q ∈ rd.rows, RowFits r.columns q.2) ∧
        ∀ f, b.failure = some f → rd.failure = some f ∨
          ∃ q ∈ rd.rows, ∃ column c line, (column, some c) ∈ r.columns.zip q.2 ∧
            Misfit r.path line column c f ∧ ¬ Fits column.type (some c) ∧
            (f.report.kind = .fileFormat ↔ handed? column.type c = none)) := by
  intro b rd
  refine ⟨fun batch there row inBatch column c inRow => inColumn_batches there inBatch inRow,
    fun _ => ⟨batches_failure_eq_none, fun f failed => ?_⟩⟩
  rcases batches_failure_cases failed with unread | ⟨q, there, column, c, line, inRow, misfit, ofType⟩
  · exact .inl unread
  · exact .inr ⟨q, there, column, c, line, inRow, misfit, misfit.not_fits ofType, misfit.kind_iff ofType⟩

/-- A store with an object whose number has 33 bits. -/
def wideNumber : Store :=
  { tree := .directory [("a.json", .file (String.toUTF8 "\x7b\"x\": 2147483648\x7d\n"))]
    proper := by decide +kernel }

/-- The rows of the object, the number read as an integer. -/
def wideNumberRows : RecordSet :=
  { path := "/a.json", columns := [{ name := "x", type := .integer }] }

theorem hasWholeTexts_wideNumber : HasWholeTexts wideNumber wideNumberRows := by
  intro bytes stored
  have found : wideNumber.read "/a.json" = .ok (String.toUTF8 "\x7b\"x\": 2147483648\x7d\n") := rfl
  obtain rfl := Except.ok.inj (found.symm.trans stored)
  exact Json.paired_of_plain (by decide +kernel)

/-- The number is read, but it does not fit, and this is not reported as a defect of the object. -/
theorem batches_fit_wideNumber :
    HasWholeTexts wideNumber wideNumberRows ∧
    ∃ f, (wideNumberRows.batches wideNumber 10).failure = some f ∧ f.report.kind = .foreign ∧
      ∃ q ∈ (wideNumberRows.reading wideNumber).rows, ∃ column c,
        (column, some c) ∈ wideNumberRows.columns.zip q.2 ∧ ¬ Fits column.type (some c) := by
  have kind : (wideNumberRows.batches wideNumber 10).failure.map (·.report.kind) = some .foreign := by
    decide +kernel
  have read : (wideNumberRows.reading wideNumber).failure.isNone = true := by decide +kernel
  obtain ⟨f, failed, foreign⟩ := Option.map_eq_some_iff.mp kind
  refine ⟨hasWholeTexts_wideNumber, ?_⟩
  rcases ((batches_fit wideNumber wideNumberRows 10).2 hasWholeTexts_wideNumber).2 f failed with
    unread | ⟨q, member, column, c, line, inRow, -, unfit, -⟩
  · rw [unread] at read
    cases read
  · exact ⟨f, failed, foreign, q, member, column, c, inRow, unfit⟩

end RecordSet

end SchemaOnRead
