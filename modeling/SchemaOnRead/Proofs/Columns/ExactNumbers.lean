import SchemaOnRead.Proofs.Columns.Inferred
import SchemaOnRead.Proofs.Json.RoundTrip
import SchemaOnRead.Proofs.Record.StoredCells

/-!
# Numbers in the columns inferred from them

A column of an integer type, inferred from a number, has room for it in an array. The decimal type is
inferred from all other exact numbers, however many digits they have, and its arrays keep 12 digits
after the point and 38 in all: the number is rounded to these digits, or reported as a defect of the
object if it has too many (`exactNumbers_kept`).
-/

namespace SchemaOnRead

open RecordSet

/-- The number that a cell with an integer or a finite decimal stands for. -/
def Cell.amount? : Cell → Option ℚ
  | .integer n => some n
  | .decimal (.finite negative c e) => some (Decimal.amount negative c e)
  | _ => none

namespace Inference

/-- The types of exact numbers that are inferred. -/
def IsExact (type : ColumnType) : Prop := type = .integer ∨ type = .bigint ∨ type = .decimal

/-- What an array of a type of exact numbers keeps of a number: an integer type keeps all of it, and
the decimal type keeps 12 digits after the point, but nothing if that makes more than 38 digits. -/
def kept? (type : ColumnType) (x : ℚ) : Option ℚ :=
  if type = .decimal then
    let n := halfEven (x * 10 ^ decimalScale)
    if n.natAbs < 10 ^ decimalPrecision then some (n / 10 ^ decimalScale) else none
  else some x

/-- A number is kept unchanged by an integer type, and by the decimal type exactly if it has no more
than 12 digits after the point. -/
theorem kept_eq_self_iff {type : ColumnType} {x y : ℚ} (kept : kept? type x = some y) :
    y = x ↔ type ≠ .decimal ∨ ∃ n : Int, x = n / 10 ^ decimalScale := by
  by_cases decimal : type = .decimal
  · rw [kept?, if_pos decimal] at kept
    simp only at kept
    split at kept
    · cases kept
      constructor
      · exact fun same => .inr ⟨_, same.symm⟩
      · rintro (other | ⟨n, rfl⟩)
        · exact absurd decimal other
        · rw [div_mul_cancel₀ _ (by positivity), halfEven_int]
    · cases kept
  · rw [kept?, if_neg decimal] at kept
    cases kept
    exact iff_of_true rfl (.inl decimal)

/-! ## A number in its column -/

variable {name : String} {v w : Value} {x : ℚ}

/-- A number is a value of an exact type. -/
structure IsNumber (type : ColumnType) (w : Value) (x : ℚ) : Prop where
  amount : w.amount? = some x
  typed : numericType w = type

/-- A cell that a number is read as: it stands for the same number, and an integer type has room for
it. -/
structure IsRead (type : ColumnType) (w : Value) (x : ℚ) (cell : Cell) : Prop where
  ofType : Cell.OfType type cell
  amount : cell.amount? = some x
  room : type ≠ .decimal → Holds type cell
  digits : ∀ d, cell = .decimal d → Coercion.toDecimal w = .ok d

theorem column_type (number : v.amount? = some x) : (column name v).type = numericType v := by
  cases v with
  | integer n | decimal d => rfl
  | _ => cases number

theorem amount_ofInt (n : Int) : Cell.amount? (.decimal (.ofInt n)) = some (n : ℚ) := by
  have whole : Decimal.signed (decide (n < 0)) n.natAbs = n := by
    by_cases negative : n < 0
    · simp [Decimal.signed, negative, abs_of_neg]
    · simp [Decimal.signed, negative, abs_of_nonneg (Int.not_lt.mp negative)]
  rw [Decimal.ofInt, Cell.amount?, Decimal.amount, zpow_zero, mul_one, whole]

/-- An integer is read by a column of its type. -/
theorem isRead_integer {n : Int} {p : CellPlace}
    (typed : p.column.type = integerType n) :
    ∃ cell, p.read (.integer n) = .ok cell ∧ IsRead (integerType n) (.integer n) n cell := by
  by_cases narrow : hasBits 32 n = true
  · have type : integerType n = .integer := if_pos narrow
    rw [type] at typed ⊢
    have bits : InBits 32 n := by
      simp [hasBits] at narrow
      constructor <;> omega
    exact ⟨.integer n, CellPlace.read_integer (.inl typed), .integer n, rfl, fun _ => bits,
      by rintro d ⟨⟩⟩
  · by_cases wide : hasBits 64 n = true
    · have type : integerType n = .bigint := (if_neg narrow).trans (if_pos wide)
      rw [type] at typed ⊢
      have bits : InBits 64 n := by
        simp [hasBits] at wide
        constructor <;> omega
      exact ⟨.integer n, CellPlace.read_integer (.inr typed), .bigint n, rfl, fun _ => bits,
        by rintro d ⟨⟩⟩
    · have type : integerType n = .decimal := (if_neg narrow).trans (if_neg wide)
      rw [type] at typed ⊢
      refine ⟨.decimal (.ofInt n), CellPlace.read_decimal typed rfl, .decimal _, amount_ofInt n,
        fun other => absurd rfl other, ?_⟩
      rintro d ⟨⟩
      rfl

/-- A number is read by a column of its type. -/
theorem isRead_of_isNumber {type : ColumnType} (exact : IsExact type) (number : IsNumber type w x)
    {p : CellPlace} (typed : p.column.type = type) :
    ∃ cell, p.read w = .ok cell ∧ IsRead type w x cell := by
  obtain ⟨amount, rfl⟩ := number
  cases w with
  | integer n =>
    cases amount
    exact isRead_integer typed
  | decimal d =>
    have type : numericType (.decimal d) = .decimal := by
      simp only [numericType] at exact ⊢
      split
      · rename_i double
        rw [if_pos double] at exact
        simp [IsExact] at exact
      · rfl
    rw [type] at typed ⊢
    have sameAmount : Cell.amount? (.decimal d) = some x := by
      cases d with
      | finite negative c e => exact amount
      | _ => cases amount
    refine ⟨.decimal d, CellPlace.read_decimal typed rfl, .decimal d, sameAmount,
      fun other => absurd rfl other, ?_⟩
    rintro d ⟨⟩
    rfl
  | _ => cases amount

/-! ## A number in an array -/

theorem amount_held (cell : Cell) : (held cell).amount? = cell.amount? := by
  unfold held
  split
  · rename_i negative e
    cases negative <;> simp [Cell.amount?, Decimal.amount, Decimal.signed]
  · rfl

theorem kept_of_ne_decimal {type : ColumnType} (other : type ≠ .decimal) (x : ℚ) :
    kept? type x = some x := if_neg other

/-- What is kept of a number is stored for the cell it is read as, and if nothing is kept, there is
nothing to hand to an array. -/
theorem kept_cases {type : ColumnType} {cell : Cell} (exact : IsExact type)
    (read : IsRead type w x cell) :
    (kept? type x = none ∧ handed? type cell = none) ∨
      ∃ y c, kept? type x = some y ∧ Fits type (some cell) ∧
        storedCell type (some cell) = some c ∧ c.amount? = some y := by
  obtain ⟨ofType, amount, room, -⟩ := read
  have settle {value : Cell} {y : ℚ} (kept : kept? type x = some y)
      (handed : handed? type cell = some value) (holds : Holds type value)
      (same : value.amount? = some y) : ∃ y c, kept? type x = some y ∧ Fits type (some cell) ∧
        storedCell type (some cell) = some c ∧ c.amount? = some y := by
    refine ⟨y, held value, kept, ?_, ?_, by rw [amount_held, same]⟩
    · rintro c ⟨⟩
      exact ⟨value, handed, holds⟩
    · rw [storedCell, Option.bind_some, handed]
      rfl
  cases ofType with
  | integer n | bigint n =>
    have whole := room (by decide)
    exact .inr (settle (kept_of_ne_decimal (by decide) x) rfl whole amount)
  | decimal d =>
    cases d with
    | finite negative c e =>
      cases amount
      rcases Decimal.quantize?_finite decimalPrecision (by decide) decimalScale negative c
        e with ⟨many, none⟩ | ⟨few, same, back⟩
      · refine .inl ⟨?_, ?_⟩
        · rw [kept?, if_pos rfl]
          exact if_neg (Nat.not_lt.mpr many)
        · rw [handed?, if_pos rfl, none]
          rfl
      · have holds : Holds .decimal (.decimal _) := ⟨negative, _, few, rfl⟩
        refine .inr (settle ?_ ?_ holds (congrArg some back))
        · rw [kept?, if_pos rfl]
          exact if_pos few
        · rw [handed?, if_pos rfl, same]
          rfl
    | _ => cases amount
  | _ => rcases exact with same | same | same <;> cases same

/-! ## Numbers in an object -/

variable {s : Store} {r : RecordSet} {rs : Records}

theorem row_of_number {type : ColumnType} (exact : IsExact type) {column : Column} {start : Cursor}
    (columns : start.columns = [column]) (ofData : column.isPartition = false)
    (typed : column.type = type) {rec : Record}
    (number : IsNumber type (Value.fieldD rec.fields column.name) x) :
    ∃ cell, row (start.on rec) = .ok [some cell] ∧
      IsRead type (Value.fieldD rec.fields column.name) x cell := by
  have there : (start.on rec).columns[0]? = some column := by
    rw [show (start.on rec).columns = [column] from columns]
    rfl
  have found := Cursor.raw_of_data (c := start.on rec) rfl there ofData
  have present : (Value.fieldD rec.fields column.name).isNull = false := by
    have amount := number.amount
    cases known : Value.fieldD rec.fields column.name with
    | null =>
      rw [known] at amount
      cases amount
    | _ => rfl
  obtain ⟨cell, read, isRead⟩ := isRead_of_isNumber exact number
    (p := ⟨column, (start.on rec).line, (start.on rec).path⟩) typed
  have value : (start.on rec).getValue (0 : Nat) = .ok (some cell) := by
    rw [Cursor.getValue_of_raw found, show (start.on rec).fields = rec.fields from rfl, present, read]
    rfl
  refine ⟨cell, ?_, isRead⟩
  rw [row, show (start.on rec).columns = [column] from columns, List.length_singleton,
    List.range_one, List.mapM_cons, value]
  rfl

/-- A row is that of a number in a column of its type. -/
def IsReadAs (type : ColumnType) (w : Value) (cells : Row) : Prop :=
  ∃ x cell, w.amount? = some x ∧ cells = [some cell] ∧ IsRead type w x cell

/-- If all records have numbers of a column's type, all rows can be read. -/
theorem reading_of_numbers {type : ColumnType} (exact : IsExact type) {column : Column}
    (columns : r.columns = [column]) (ofData : column.isPartition = false)
    (typed : column.type = type) (opened : Cursor.openObject s r.path r.limit = .ok rs)
    (whole : rs.failure = none)
    (numbers : ∀ rec ∈ rs.records, ∃ x, IsNumber type (Value.fieldD rec.fields column.name) x) :
    (r.reading s).failure = none ∧
      List.Forall₂ (fun rec q => IsReadAs type (Value.fieldD rec.fields column.name) q.2)
        rs.records (r.reading s).rows := by
  have data : ∀ c ∈ r.columns, c.isPartition = false := by
    rw [columns]
    exact List.forall_mem_singleton.mpr ofData
  obtain ⟨start, made⟩ := Cursor.exists_of_data data r.path r.partition r.totalBytes r.limit
  obtain ⟨-, path, limit, sameColumns⟩ := Cursor.fresh_of made
  rw [reading, RecordSet.cursor, made]
  simp only [path, limit, opened]
  rw [whole]
  refine readRows_whole none fun rec member => ?_
  obtain ⟨x, number⟩ := numbers rec member
  obtain ⟨cell, read, isRead⟩ := row_of_number exact (sameColumns.trans columns) ofData typed number
  exact ⟨_, read, x, cell, number.amount, rfl, isRead⟩

/-- A number is in a batch as its type keeps it. -/
def IsKept (type : ColumnType) (w : Value) (stored : Row) : Prop :=
  ∃ x y c, w.amount? = some x ∧ kept? type x = some y ∧
    (y = x ↔ type ≠ .decimal ∨ ∃ n : Int, x = n / 10 ^ decimalScale) ∧
    stored = [some c] ∧ c.amount? = some y

/-- A number has too many digits for its type, and this is reported as a defect of the object. -/
def IsRefused (type : ColumnType) (name path : String) (w : Value) (f : Failure) : Prop :=
  ∃ x d line, w.amount? = some x ∧ kept? type x = none ∧ Coercion.toDecimal w = .ok d ∧
    f = .mk (.decimalTooLarge name d.text path line) [] ∧ f.report.kind = .fileFormat

theorem isKept_stored {type : ColumnType} (exact : IsExact type) {column : Column}
    (typed : column.type = type) {cells : Row} (read : IsReadAs type w cells)
    (fits : RowFits [column] cells) : IsKept type w (storedRow [column] cells) := by
  subst typed
  obtain ⟨x, cell, amount, rfl, isRead⟩ := read
  rcases kept_cases exact isRead with ⟨-, handed⟩ | ⟨y, c, kept, -, stored, same⟩
  · obtain ⟨value, handed', -⟩ := fits _ (.head _) cell rfl
    cases handed.symm.trans handed'
  · exact ⟨x, y, c, amount, kept, kept_eq_self_iff kept, congrArg ([·]) stored, same⟩

theorem isRefused_of_misfit {column : Column} (exact : IsExact column.type) {cells : Row}
    (read : IsReadAs column.type w cells) {cell : Cell} (member : some cell ∈ cells) {path : String}
    {line : Nat} {f : Failure} (misfit : Misfit path line column cell f)
    (ofType : Cell.OfType column.type cell) :
    IsRefused column.type column.name path w f := by
  obtain ⟨x, cell', amount, rfl, isRead⟩ := read
  cases List.mem_singleton.mp member
  rcases kept_cases exact isRead with ⟨kept, handed⟩ | ⟨y, c, -, fits, -, -⟩
  · have defect := (misfit.kind_iff ofType).mpr handed
    cases misfit with
    | tooManyDigits => exact ⟨x, _, line, amount, kept, isRead.digits _ rfl, rfl, rfl⟩
    | _ => exact absurd defect (by decide)
  · exact absurd fits (misfit.not_fits ofType)

/-- The numbers of an object are read through a column that is inferred from a number, where they have
the type of that number. In the batches each of them is as its type keeps it: unchanged if it is of an
integer type or has at most 12 digits after the point, and otherwise rounded. They fail only if a
number has too many digits when it is rounded, and then as a defect of the object. -/
theorem exactNumbers_kept (number : v.amount? = some x) (exact : IsExact (numericType v))
    (columns : r.columns = [column name v])
    (opened : Cursor.openObject s r.path r.limit = .ok rs) (whole : rs.failure = none)
    (numbers : ∀ rec ∈ rs.records, ∃ x, IsNumber (numericType v) (Value.fieldD rec.fields name) x)
    (size : Int) :
    let b := r.batches s size
    (b.failure = none ∧
        List.Forall₂ (fun rec row => IsKept (numericType v) (Value.fieldD rec.fields name) row)
          rs.records b.batches.flatten) ∨
      ∃ f, b.failure = some f ∧ ∃ rec ∈ rs.records,
        IsRefused (numericType v) name r.path (Value.fieldD rec.fields name) f := by
  have typed : (column name v).type = numericType v := column_type number
  have ofData : (column name v).isPartition = false :=
    isPartition_of_mem_inferred (show column name v ∈ columnsOf [(name, v)] from .head _)
  have named := column_name name v
  obtain ⟨read, rows⟩ := reading_of_numbers exact columns ofData typed opened whole (by rwa [named])
  rw [named] at rows
  intro b
  cases ended : b.failure with
  | none =>
    obtain ⟨-, fits, all⟩ := batches_flatten ended
    obtain ⟨length, related⟩ := List.forall₂_iff_zip.mp rows
    refine .inl ⟨rfl, ?_⟩
    rw [all, columns, storedChunk, storedRows, List.map_map, if_neg (by simp)]
    refine List.forall₂_map_right_iff.mpr (List.forall₂_iff_zip.mpr ⟨length, fun {rec q} there => ?_⟩)
    have own := fits q (List.of_mem_zip there).2
    rw [columns] at own
    exact isKept_stored exact typed (related there) own
  | some f =>
    refine .inr ⟨f, rfl, ?_⟩
    rcases batches_failure_cases ended with
      unread | ⟨q, member, c, cell, line, inRow, misfit, ofType⟩
    · cases read.symm.trans unread
    · obtain ⟨rec, there, isRead⟩ := (exists_of_mem_forall₂ rows).1 q member
      rw [columns] at inRow
      obtain ⟨ofColumn, inCells⟩ := List.of_mem_zip inRow
      cases List.mem_singleton.mp ofColumn
      rw [← typed] at exact isRead
      refine ⟨rec, there, ?_⟩
      have refused := isRefused_of_misfit exact isRead inCells misfit ofType
      rwa [named, typed] at refused

/-- A number with 19 digits after the point. -/
def longFraction : Value := .decimal (.finite false 1234567890123456789 (-19))

/-- A store with an object that holds the number, and one with an integer of 27 digits. -/
def exactStore : Store :=
  { tree := .directory [("huge.json", .file (String.toUTF8 "\x7b\"x\": 100000000000000000000000000\x7d\n")),
      ("long.json", .file (String.toUTF8 "\x7b\"x\": 0.1234567890123456789\x7d\n"))]
    proper := by decide +kernel }

def longRows : RecordSet := { path := "/long.json", columns := [column "x" longFraction] }

def hugeRows : RecordSet :=
  { path := "/huge.json", columns := [column "x" (.integer (10 ^ 26))] }

/-- The number is not handed out as it is written, but rounded to the twelve digits of its column. -/
theorem exactNumbers_kept_long :
    ∃ rs, Cursor.openObject exactStore longRows.path longRows.limit = .ok rs ∧
      List.Forall₂ (fun rec row => IsKept .decimal (Value.fieldD rec.fields "x") row) rs.records
        (longRows.batches exactStore 10).batches.flatten := by
  have type : numericType longFraction = .decimal := by decide +kernel
  have holds : (Cursor.openObject exactStore longRows.path longRows.limit).toOption.map (fun rs =>
      (rs.failure.isNone, rs.records.map fun rec =>
        (numericType (Value.fieldD rec.fields "x"), (Value.fieldD rec.fields "x").amount?))) =
      some (true, [(.decimal, some (1234567890123456789 / 10 ^ 19))]) := by decide +kernel
  have ends : (longRows.batches exactStore 10).failure.isNone = true := by decide +kernel
  obtain ⟨rs, opened, same⟩ := Option.map_eq_some_iff.mp holds
  obtain ⟨whole, each⟩ := Prod.mk.inj same
  have typed : ∀ rec ∈ rs.records,
      ∃ x, IsNumber (numericType longFraction) (Value.fieldD rec.fields "x") x := by
    intro rec member
    have own := List.mem_map_of_mem (f := fun rec : Record =>
      (numericType (Value.fieldD rec.fields "x"), (Value.fieldD rec.fields "x").amount?)) member
    rw [each, List.mem_singleton] at own
    obtain ⟨typed, amount⟩ := Prod.mk.inj own
    exact ⟨_, amount, typed.trans type.symm⟩
  rcases exactNumbers_kept (v := longFraction) rfl (.inr (.inr type)) rfl (ok_of_toOption opened)
    (Option.isNone_iff_eq_none.mp whole) typed 10 with ⟨-, kept⟩ | ⟨f, failed, -⟩
  · rw [type] at kept
    exact ⟨rs, ok_of_toOption opened, kept⟩
  · rw [failed] at ends
    cases ends

/-- Not all numbers are kept: one is rounded, and the other has too many digits for its column. -/
theorem exactNumbers_changed :
    numericType longFraction = .decimal ∧ numericType (.integer (10 ^ 26)) = .decimal ∧
      (longRows.batches exactStore 10).batches.map (·.map (·.map (·.bind Cell.amount?))) =
        [[[some (123456789012 / 10 ^ 12)]]] ∧
      longFraction.amount? ≠ some (123456789012 / 10 ^ 12) ∧
      (hugeRows.batches exactStore 10).batches = [] ∧
      ∃ f, (hugeRows.batches exactStore 10).failure = some f ∧ f.report.kind = .fileFormat := by
  have nothing : (hugeRows.batches exactStore 10).batches.isEmpty = true := by decide +kernel
  have kind : (hugeRows.batches exactStore 10).failure.map (·.report.kind) = some .fileFormat := by
    decide +kernel
  exact ⟨by decide +kernel, by decide +kernel, by decide +kernel, by decide +kernel,
    List.isEmpty_iff.mp nothing, Option.map_eq_some_iff.mp kind⟩

end Inference

end SchemaOnRead
