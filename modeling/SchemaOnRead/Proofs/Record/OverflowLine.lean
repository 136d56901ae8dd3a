import SchemaOnRead.Proofs.Record.BatchedRows
import SchemaOnRead.Proofs.Record.ReadFailures

/-!
# The line of a decimal with too many digits

A decimal that has too many digits is found when its batch is stored, and by then the cursor is on the
last record of the batch. So the failure tells the line of that record, and not that of the record with
the value, unless this is the last one of its batch (`overflow_line`). Which value it is about is decided
by columns first: in a batch, it is the first one in the first column that has any.
-/

namespace SchemaOnRead.RecordSet

open Cursor

/-! ## Columns -/

/-- A cell of a column holds a decimal with too many digits. -/
def Overflows (column : Column) (cell : Option Cell) (d : Decimal) : Prop :=
  cell = some (.decimal d) ∧ column.type = .decimal ∧
    d.quantize? decimalPrecision decimalScale = none

variable {path : String} {line : Nat} {column : Column} {f : Failure}

theorem not_overflows_of_handOver {cell given : Option Cell}
    (handed : handOver path line column cell = .ok given) (d : Decimal) :
    ¬ Overflows column cell d := by
  rintro ⟨rfl, type, tooLong⟩
  simp [handOver, type, storeDecimal, tooLong, fail, Except.map] at handed

theorem overflows_of_handOver {cell : Option Cell}
    (failed : handOver path line column cell = .error f) :
    ∃ d, Overflows column cell d ∧ f = .mk (.decimalTooLarge column.name d.text path line) [] := by
  unfold handOver at failed
  split at failed
  · rename_i d
    split at failed
    · rename_i type
      rw [storeDecimal] at failed
      cases digits : d.quantize? decimalPrecision decimalScale with
      | some d' =>
        rw [digits] at failed
        cases failed
      | none =>
        rw [digits] at failed
        cases failed
        exact ⟨d, ⟨rfl, type, digits⟩, rfl⟩
    · cases failed
  · cases failed

/-- What an array makes of a value never overflows. -/
theorem noOverflow_keep (type : ColumnType) (cell : Option Cell) : NoOverflow (keep type cell) := by
  cases cell with
  | none => exact .ok _
  | some c =>
    have stored : NoOverflow (storeCell type c) := by
      rw [storeCell.eq_def]
      split
      · split
        · exact .error rfl
        · split
          · exact .error rfl
          · exact .ok _
      · exact .error rfl
      · exact .ok _
      · exact .ok _
    exact stored.map some

/-- A column is not stored because of the first of its cells that overflows. -/
theorem first_of_storeColumn {cells : List (Option Cell)}
    (failed : storeColumn path line column cells = .error f) (overflow : f.cause.isOverflow = true) :
    ∃ (i : Nat) (cell : Option Cell) (d : Decimal), cells[i]? = some cell ∧ Overflows column cell d ∧
      f = .mk (.decimalTooLarge column.name d.text path line) [] ∧
      ∀ i' < i, ∀ cell', cells[i']? = some cell' → ∀ d', ¬ Overflows column cell' d' := by
  rw [storeColumn_eq] at failed
  cases handed : cells.mapM (handOver path line column) with
  | ok given =>
    -- What is handed over may still be refused by the array, but not for its digits.
    have kept : NoOverflow (given.mapM (keep column.type)) := .mapM fun cell _ => noOverflow_keep _ cell
    rw [handed] at failed
    rw [show given.mapM (keep column.type) = .error f from failed] at kept
    cases overflow.symm.trans kept.failure
  | error g =>
    rw [handed] at failed
    cases failed
    obtain ⟨before, cell, after, rfl, answered, first⟩ := first_of_mapM_error handed
    obtain ⟨d, overflows, same⟩ := overflows_of_handOver first
    refine ⟨before.length, cell, d, by simp, overflows, same, ?_⟩
    intro i' less cell' there
    rw [List.getElem?_append_left less] at there
    obtain ⟨given, handed'⟩ := answered cell' (List.mem_of_getElem? there)
    exact not_overflows_of_handOver handed'

theorem not_overflows_of_storeColumn {cells answers : List (Option Cell)}
    (stored : storeColumn path line column cells = .ok answers) {cell : Option Cell}
    (member : cell ∈ cells) (d : Decimal) : ¬ Overflows column cell d := by
  rw [storeColumn_eq] at stored
  obtain ⟨given, handed, -⟩ := ok_of_bind stored
  obtain ⟨one, -, first⟩ := (exists_of_mem_mapM handed).2 cell member
  exact not_overflows_of_handOver first d

/-! ## Rows -/

/-- The cells of a column are those of the rows at its place. -/
theorem getElem?_byColumn {columns : List Column} {rows : List Row}
    (lengths : ∀ row ∈ rows, row.length = columns.length) {j : Nat} {cells : List (Option Cell)}
    (there : (byColumn columns rows)[j]? = some cells) (i : Nat) :
    cells[i]? = rows[i]?.bind (·[j]?) := by
  induction columns generalizing rows j with
  | nil => cases there
  | cons column columns ih =>
    cases j with
    | zero =>
      cases there
      rw [List.getElem?_map]
      cases atRow : rows[i]? with
      | none => rfl
      | some row =>
        rw [row_eq_cons (lengths row (List.mem_of_getElem? atRow))]
        rfl
    | succ j =>
      have later := ih (length_drop_rows lengths) there
      rw [later, List.getElem?_map]
      cases rows[i]? with
      | none => rfl
      | some row => simp

/-- A row has a decimal with too many digits in a column. -/
def OverflowsIn (columns : List Column) (rows : List Row) (i j : Nat) (column : Column) (d : Decimal) :
    Prop :=
  columns[j]? = some column ∧ ∃ cell, rows[i]?.bind (·[j]?) = some cell ∧ Overflows column cell d

/-- Rows are not stored because of the first cell that overflows, looked for column by column. -/
theorem first_of_storeRows {columns : List Column} {rows : List Row}
    (lengths : ∀ row ∈ rows, row.length = columns.length)
    (failed : storeRows path line columns rows = .error f) (overflow : f.cause.isOverflow = true) :
    ∃ i j column d, OverflowsIn columns rows i j column d ∧
      f = .mk (.decimalTooLarge column.name d.text path line) [] ∧
      ∀ i' j' column' d', j' < j ∨ j' = j ∧ i' < i → ¬ OverflowsIn columns rows i' j' column' d' := by
  rw [storeRows_eq] at failed
  cases stored : (columns.zip (byColumn columns rows)).mapM fun p => storeColumn path line p.1 p.2 with
  | ok answers =>
    rw [stored] at failed
    cases failed
  | error g =>
    rw [stored] at failed
    cases failed
    obtain ⟨before, ⟨column, cells⟩, after, parted, answered, first⟩ := first_of_mapM_error stored
    obtain ⟨i, cell, d, atCell, overflows, same, minimal⟩ := first_of_storeColumn first overflow
    -- The place of the column in the list is the number of columns that were stored before it.
    have there : (columns.zip (byColumn columns rows))[before.length]? = some (column, cells) := by
      simp [parted]
    obtain ⟨atColumn, byColumn⟩ := List.getElem?_zip_eq_some.mp there
    have inRows := getElem?_byColumn lengths byColumn
    refine ⟨i, before.length, column, d, ⟨atColumn, cell, (inRows i).symm.trans atCell, overflows⟩, same,
      ?_⟩
    rintro i' j' column' d' (less | ⟨rfl, less⟩) ⟨atColumn', cell', atCell', overflows'⟩
    · obtain ⟨⟨column', cells'⟩, atPair⟩ : ∃ p, before[j']? = some p :=
        ⟨_, List.getElem?_eq_getElem less⟩
      have inside : (columns.zip (RecordSet.byColumn columns rows))[j']? = some (column', cells') := by
        rw [parted, List.getElem?_append_left less, atPair]
      obtain ⟨same, byColumn'⟩ := List.getElem?_zip_eq_some.mp inside
      cases same.symm.trans atColumn'
      obtain ⟨answer, stored'⟩ := answered _ (List.mem_of_getElem? atPair)
      rw [← getElem?_byColumn lengths byColumn'] at atCell'
      exact not_overflows_of_storeColumn stored' (List.mem_of_getElem? atCell') d' overflows'
    · cases atColumn.symm.trans atColumn'
      rw [← inRows] at atCell'
      exact minimal i' less cell' atCell' d' overflows'

/-! ## Batches -/

/-- Batches that end with a decimal that has too many digits end where the rows of one cannot be
stored, after all before it. -/
theorem first_of_storeChunks {columns : List Column} {failure : Option Failure}
    (other : EndsOtherwise failure) {chunks : List (List (Nat × Row))}
    (failed : (storeChunks path columns failure chunks).2 = some f)
    (overflow : f.cause.isOverflow = true) : ∃ before chunk after, chunks = before ++ chunk :: after ∧
      (storeChunks path columns failure chunks).1.length = before.length ∧
      storeRows path (lastLine chunk) columns (chunk.map (·.2)) = .error f := by
  induction chunks with
  | nil => cases overflow.symm.trans (other f failed)
  | cons chunk later ih =>
    rw [storeChunks] at failed ⊢
    cases stored : storeRows path (lastLine chunk) columns (chunk.map (·.2)) with
    | error g =>
      rw [stored] at failed
      cases failed
      exact ⟨[], chunk, later, rfl, rfl, stored⟩
    | ok batch =>
      rw [stored] at failed
      obtain ⟨before, chunk', after, rfl, length, fails⟩ := ih failed
      exact ⟨chunk :: before, chunk', after, rfl, congrArg (· + 1) length, fails⟩

/-- A chunk of rows is the one with a number among those that are stored together: it is full, or the
last one, and reading does not fail. -/
structure IsChunk (n : Nat) (rd : Reading) (number : Nat) (chunk : List (Nat × Row)) : Prop where
  rows : ∀ i < chunk.length, rd.rows[number * n + i]? = chunk[i]?
  positive : 0 < chunk.length
  most : chunk.length ≤ n
  ends : chunk.length = n ∨ rd.rows.length = number * n + chunk.length ∧ rd.failure = none

theorem isChunk_of_full {n : Nat} (positive : 1 ≤ n) {rd : Reading}
    {full before after : List (List (Nat × Row))} {chunk left : List (Nat × Row)}
    (lists : ∀ list ∈ full, list.length = n) (all : full.flatten ++ left = rd.rows)
    (parted : full = before ++ chunk :: after) : IsChunk n rd before.length chunk := by
  have size : chunk.length = n := lists chunk (by simp [parted])
  have base : before.flatten.length = before.length * n :=
    length_flatten_of_full fun list member => lists list (by simp [parted, member])
  refine ⟨?_, by omega, size.le, .inl size⟩
  intro i inside
  rw [← all, parted, List.flatten_append, List.flatten_cons, List.append_assoc, List.append_assoc, ← base,
    List.getElem?_append_right (Nat.le_add_right ..), Nat.add_sub_cancel_left,
    List.getElem?_append_left inside]

/-- Rows are stored in chunks one after another. -/
theorem isChunk_of_chunks {n : Nat} (positive : 1 ≤ n) {rd : Reading}
    {before after : List (List (Nat × Row))} {chunk : List (Nat × Row)}
    (parted : rd.chunks n [] = before ++ chunk :: after) : IsChunk n rd before.length chunk := by
  obtain ⟨full, left, all, lists, less, same | ⟨whole, nonempty, same⟩⟩ := chunks_parts positive rd
  · exact isChunk_of_full positive lists all (same.symm.trans parted)
  · replace parted : full ++ [left] = before ++ chunk :: after := same.symm.trans parted
    -- The last chunk is what is left over; the others are full as before.
    rcases List.eq_nil_or_concat after with rfl | ⟨after, list, rfl⟩
    · obtain ⟨rfl, same⟩ := List.append_inj' parted rfl
      cases same
      have base := length_flatten_of_full lists
      refine ⟨?_, List.length_pos_iff.mpr nonempty, less.le, .inr ⟨?_, whole⟩⟩
      · intro i inside
        rw [← all, ← base, List.getElem?_append_right (Nat.le_add_right ..), Nat.add_sub_cancel_left]
      · rw [← all, List.length_append, base]
    · have parted : full ++ [left] = (before ++ chunk :: after) ++ [list] := by simpa using parted
      exact isChunk_of_full positive lists all (List.append_inj' parted rfl).1

/-! ## Records -/

variable {start : Cursor} {failure : Option Failure} {records : List Record}

/-- A row that is read is that of the record at its place. -/
theorem record_of_row {k : Nat} {q : Nat × Row}
    (there : (readRows start failure records).rows[k]? = some q) :
    ∃ rec, records[k]? = some rec ∧ q.1 = rec.line ∧ row (start.on rec) = .ok q.2 := by
  obtain ⟨related, -⟩ := readRows_taken start failure records
  obtain ⟨inside, same⟩ := List.getElem?_eq_some_iff.mp there
  have more : k < (records.take (readRows start failure records).rows.length).length := by
    rw [related.length_eq]
    exact inside
  have one := related.get more inside
  simp only [List.get_eq_getElem, same, List.getElem_take] at one
  exact ⟨_, List.getElem?_eq_getElem _, one⟩

/-- A record has a decimal with too many digits in a column. -/
def OverflowsAt (start : Cursor) (records : List Record) (k j : Nat) (column : Column) (d : Decimal) :
    Prop :=
  ∃ rec cell, records[k]? = some rec ∧ start.columns[j]? = some column ∧
    (start.on rec).getValue j = .ok cell ∧ Overflows column cell d

/-- The number of the last record in the batch of a record, among some records in batches of a size. -/
def lastOfBatch (n count k : Nat) : Nat := min (k / n * n + n) count - 1

variable {n number : Nat} {chunk : List (Nat × Row)}

/-- The rows of a chunk are those of the records of its batch. -/
theorem IsChunk.record (isChunk : IsChunk n (readRows start failure records) number chunk) {i : Nat}
    (inside : i < chunk.length) : ∃ rec, records[number * n + i]? = some rec ∧
      chunk[i].1 = rec.line ∧ row (start.on rec) = .ok chunk[i].2 :=
  record_of_row ((isChunk.rows i inside).trans (List.getElem?_eq_getElem inside))

/-- The value of a record overflows exactly if the cell of its row does. -/
theorem IsChunk.overflowsAt_iff (isChunk : IsChunk n (readRows start failure records) number chunk)
    {i j : Nat} (inside : i < chunk.length) {d : Decimal} :
    OverflowsAt start records (number * n + i) j column d ↔
      OverflowsIn start.columns (chunk.map (·.2)) i j column d := by
  obtain ⟨rec, atRecord, -, read⟩ := isChunk.record inside
  have atRow : (chunk.map (·.2))[i]? = some chunk[i].2 := by simp [inside]
  have length := (rowOf_row (c := start.on rec) rfl read).length
  rw [OverflowsIn, atRow, Option.bind_some]
  constructor
  · rintro ⟨rec', cell, atRecord', atColumn, value, overflows⟩
    cases atRecord.symm.trans atRecord'
    have inRow : j < chunk[i].2.length := length ▸ (List.getElem?_eq_some_iff.mp atColumn).1
    have atCell : chunk[i].2[j]? = some chunk[i].2[j] := List.getElem?_eq_getElem inRow
    cases value.symm.trans (getValue_of_row read atCell)
    exact ⟨atColumn, _, atCell, overflows⟩
  · rintro ⟨atColumn, cell, atCell, overflows⟩
    exact ⟨rec, cell, atRecord, atColumn, getValue_of_row read atCell, overflows⟩

theorem IsChunk.div_eq {rd : Reading} (isChunk : IsChunk n rd number chunk) {i : Nat}
    (inside : i < chunk.length) : (number * n + i) / n = number := by
  have less : i < n := inside.trans_le isChunk.most
  rw [Nat.mul_comm, Nat.mul_add_div (by omega), Nat.div_eq_of_lt less, Nat.add_zero]

/-- The records of a chunk's batch are those of its rows. -/
theorem IsChunk.inside (isChunk : IsChunk n (readRows start failure records) number chunk)
    {k : Nat} (there : k < records.length) (batch : k / n = number) :
    ∃ i < chunk.length, k = number * n + i := by
  have parts := Nat.div_add_mod k n
  have less := Nat.mod_lt k (isChunk.positive.trans_le isChunk.most)
  rw [batch, Nat.mul_comm] at parts
  refine ⟨k % n, ?_, parts.symm⟩
  rcases isChunk.ends with full | ⟨all, whole⟩
  · omega
  · have count := ((readRows_taken ..).2 whole).2
    omega

/-- The last record of the batch is that of the last row. -/
theorem IsChunk.last (isChunk : IsChunk n (readRows start failure records) number chunk) {i : Nat}
    (inside : i < chunk.length) : ∃ last,
      records[lastOfBatch n records.length (number * n + i)]? = some last ∧
        lastLine chunk = last.line := by
  have lastInside : chunk.length - 1 < chunk.length := by omega
  obtain ⟨last, atLast, line, -⟩ := isChunk.record lastInside
  have most : number * n + chunk.length ≤ records.length := by
    have := (List.getElem?_eq_some_iff.mp atLast).1
    omega
  have ends : min (number * n + n) records.length = number * n + chunk.length := by
    rcases isChunk.ends with full | ⟨all, whole⟩
    · rw [full] at most ⊢
      exact Nat.min_eq_left most
    · have count := ((readRows_taken ..).2 whole).2
      rw [← count, all, Nat.min_eq_right (Nat.add_le_add_left isChunk.most _)]
  refine ⟨last, ?_, ?_⟩
  · rw [lastOfBatch, isChunk.div_eq inside, ends, Nat.add_sub_assoc isChunk.positive]
    exact atLast
  · rw [lastLine, List.getLast?_eq_getElem?, List.getElem?_eq_getElem lastInside]
    exact line

/-- A chunk that is not stored because a decimal has too many digits. -/
theorem IsChunk.overflow (isChunk : IsChunk n (readRows start failure records) number chunk)
    (failed : storeRows path (lastLine chunk) start.columns (chunk.map (·.2)) = .error f)
    (overflow : f.cause.isOverflow = true) : ∃ k j column d last, k / n = number ∧
      OverflowsAt start records k j column d ∧
      (∀ k' j' column' d', k' / n = k / n → j' < j ∨ j' = j ∧ k' < k →
        ¬ OverflowsAt start records k' j' column' d') ∧
      records[lastOfBatch n records.length k]? = some last ∧
      f = .mk (.decimalTooLarge column.name d.text path last.line) [] := by
  have lengths : ∀ row ∈ chunk.map (·.2), row.length = start.columns.length := by
    intro row member
    obtain ⟨q, there, rfl⟩ := List.mem_map.mp member
    obtain ⟨i, inside, rfl⟩ := List.mem_iff_getElem.mp there
    obtain ⟨rec, -, -, read⟩ := isChunk.record inside
    exact (rowOf_row (c := start.on rec) rfl read).length
  obtain ⟨i, j, column, d, overflows, same, minimal⟩ := first_of_storeRows lengths failed overflow
  have inside : i < chunk.length := by
    obtain ⟨-, cell, atCell, -⟩ := overflows
    obtain ⟨row, atRow, -⟩ := Option.bind_eq_some_iff.mp atCell
    simpa using (List.getElem?_eq_some_iff.mp atRow).1
  have batch := isChunk.div_eq inside
  obtain ⟨last, atLast, line⟩ := isChunk.last inside
  refine ⟨number * n + i, j, column, d, last, batch, (isChunk.overflowsAt_iff inside).mpr overflows, ?_,
    atLast, line ▸ same⟩
  intro k' j' column' d' sameBatch earlier overflowsAt
  have there : k' < records.length := by
    obtain ⟨rec', -, atRecord', -⟩ := overflowsAt
    exact (List.getElem?_eq_some_iff.mp atRecord').1
  obtain ⟨i', inside', rfl⟩ := isChunk.inside there (sameBatch.trans batch)
  exact minimal i' j' column' d' (by omega) ((isChunk.overflowsAt_iff inside').mp overflowsAt)

/-- A failure that tells of a decimal with too many digits is about a value of a record: there is none
in an earlier column of the batch, nor in the same column of an earlier record of the batch. It tells
the column, the value and the path, and the line of the last record of the batch. -/
theorem overflow_line (s : Store) (r : RecordSet) {n : Nat} (positive : 1 ≤ n) {f : Failure}
    (failed : (r.batches s n).failure = some f) {name input path : String} {line : Nat}
    (cause : f.cause = .decimalTooLarge name input path line) :
    ∃ start rs k j column d last, r.cursor = .ok start ∧ openObject s r.path r.limit = .ok rs ∧
      OverflowsAt start rs.records k j column d ∧
      (∀ k' j' column' d', k' / n = k / n → j' < j ∨ j' = j ∧ k' < k →
        ¬ OverflowsAt start rs.records k' j' column' d') ∧
      (r.batches s n).batches.length = k / n ∧
      rs.records[lastOfBatch n rs.records.length k]? = some last ∧
      name = column.name ∧ input = d.text ∧ path = r.path ∧ line = last.line := by
  have overflow : f.cause.isOverflow = true := by
    rw [cause]
    rfl
  have stored := batches_eq s r n
  rw [failed] at stored
  obtain ⟨before, chunk, after, parted, length, fails⟩ :=
    first_of_storeChunks (reading_noOverflow s r) (congrArg (·.2) stored.symm) overflow
  rw [← stored] at length
  have isChunk := isChunk_of_chunks positive parted
  rcases reading_cases s r with ⟨start, rs, made, opened⟩ | ⟨g, unread⟩
  · rw [reading_eq made opened] at isChunk
    rw [← show start.columns = r.columns from (fresh_of made).2.2.2] at fails
    obtain ⟨k, j, column, d, last, batch, overflows, minimal, atLast, same⟩ :=
      isChunk.overflow fails overflow
    rw [same] at cause
    cases cause
    exact ⟨start, rs, k, j, column, d, last, made, opened, overflows, minimal, length.trans batch.symm,
      atLast, rfl, rfl, rfl, rfl⟩
  · -- Without rows there is no chunk.
    have there := isChunk.rows 0 isChunk.positive
    rw [unread, List.getElem?_eq_getElem isChunk.positive] at there
    cases there

/-- A store with an object of two records, the number of the first one with 31 digits. -/
def longNumber : Store :=
  { tree := .directory [("a.json", .file (String.toUTF8 "\x7b\"x\": 1e30\x7d\n\x7b\"x\": 1\x7d\n"))]
    proper := by decide +kernel }

/-- The rows of the object, the numbers read as decimals. -/
def longNumberRows : RecordSet :=
  { path := "/a.json", columns := [{ name := "x", type := .decimal }] }

/-- A cursor over the object. -/
def longNumberCursor : Cursor :=
  { path := "/a.json", columns := longNumberRows.columns, limit := longNumberRows.limit,
    totalBytes := none, partitionValues := [] }

/-- The value of the first record is refused, on line 1, and the failure tells line 2. -/
theorem overflow_line_longNumber : 1 ≤ 10 ∧ ∃ f name input path line rs rec column d,
    (longNumberRows.batches longNumber 10).failure = some f ∧
      f.cause = .decimalTooLarge name input path line ∧
      openObject longNumber "/a.json" longNumberRows.limit = .ok rs ∧
      OverflowsAt longNumberCursor rs.records 0 0 column d ∧ rs.records[0]? = some rec ∧
      rec.line = 1 ∧ line = 2 := by
  have refused : (longNumberRows.batches longNumber 10).failure.any (·.cause.isOverflow) = true := by
    decide +kernel
  have lines : (openObject longNumber "/a.json" longNumberRows.limit).toOption.map
      (·.records.map (·.line)) = some [1, 2] := by decide +kernel
  have second : (openObject longNumber "/a.json" longNumberRows.limit).toOption.any (·.records[1]?.any
      fun rec => ((longNumberCursor.on rec).getValue (0 : Nat)).toOption.any
        (·.any fun c => (handed? .decimal c).isSome)) = true := by decide +kernel
  obtain ⟨f, failed, overflow⟩ := (Option.any_eq_true ..).mp refused
  obtain ⟨name, input, path, line, cause⟩ := Cause.exists_of_isOverflow overflow
  obtain ⟨start, rs, k, j, column, d, last, made, opened, overflows, -, length, atLast, -, -, -, told⟩ :=
    overflow_line longNumber longNumberRows (by decide : 1 ≤ 10) failed cause
  change openObject longNumber "/a.json" longNumberRows.limit = .ok rs at opened
  change Except.ok longNumberCursor = .ok start at made
  cases made
  rw [opened] at lines second
  have lines : rs.records.map (·.line) = [1, 2] := Option.some.inj lines
  have overflowing := overflows
  obtain ⟨rec, cell, atRecord, atColumn, value, rfl, -, tooLong⟩ := overflows
  have count : rs.records.length = 2 := by simpa using congrArg List.length lines
  have kInside : k < 2 := count ▸ (List.getElem?_eq_some_iff.mp atRecord).1
  have jZero : j = 0 := Nat.lt_one_iff.mp (List.getElem?_eq_some_iff.mp atColumn).1
  subst jZero
  have kZero : k = 0 := by
    by_contra other
    obtain rfl : k = 1 := by omega
    have kept : handed? .decimal (.decimal d) = none := by simp [handed?, tooLong]
    simp only [Except.toOption, Option.any_some, atRecord, value, kept] at second
    cases second
  subst kZero
  have lineFirst : rec.line = 1 := by
    have first := congrArg (·[0]?) lines
    simpa [atRecord] using first
  have lineLast : last.line = 2 := by
    have there : rs.records[1]? = some last := by
      rw [count] at atLast
      exact atLast
    have second := congrArg (·[1]?) lines
    simpa [there] using second
  exact ⟨by decide, f, name, input, path, line, rs, rec, column, d, failed, cause, opened, overflowing,
    atRecord, lineFirst, told.trans lineLast⟩

end SchemaOnRead.RecordSet
