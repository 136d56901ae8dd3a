import SchemaOnRead.Proofs.Record.StoredCells

/-!
# Batches and their rows

How many rows a batch holds makes no difference to the rows: one for each record, in order, with the
values that the cursor gives on the record and decimals rounded (`batches_rows`). All batches are full
except possibly the last one, and none is empty. Only where there is no column to read are the rows
lost, since arrays tell how many rows there are and there is none.
-/

namespace SchemaOnRead

open Cursor

/-! ## Lists in batches -/

/-- Batches of at most some items: all are full except possibly the last one, which is not empty
either. -/
structure InBatches {α : Type} (n : Nat) (batches : List (List α)) : Prop where
  nonempty : ∀ batch ∈ batches, batch ≠ []
  most : ∀ batch ∈ batches, batch.length ≤ n
  full : ∀ batch ∈ batches.dropLast, batch.length = n

theorem length_flatten_of_full {α : Type} {n : Nat} {lists : List (List α)}
    (full : ∀ list ∈ lists, list.length = n) : lists.flatten.length = lists.length * n := by
  rw [List.length_flatten, List.map_congr_left full]
  simp

namespace InBatches

variable {α β : Type} {n : Nat} {batches : List (List α)}

theorem of_full (positive : 1 ≤ n) (full : ∀ batch ∈ batches, batch.length = n) :
    InBatches n batches := by
  constructor
  · intro batch member empty
    have size := full batch member
    simp only [empty, List.length_nil] at size
    omega
  · intro batch member
    exact (full batch member).le
  · intro batch member
    exact full batch (List.dropLast_subset _ member)

theorem append_last (positive : 1 ≤ n) (full : ∀ batch ∈ batches, batch.length = n) {last : List α}
    (nonempty : last ≠ []) (most : last.length ≤ n) : InBatches n (batches ++ [last]) := by
  have front := of_full positive full
  constructor
  · intro batch member
    rcases List.mem_append.mp member with before | same
    · exact front.nonempty batch before
    · rw [List.mem_singleton.mp same]
      exact nonempty
  · intro batch member
    rcases List.mem_append.mp member with before | same
    · exact front.most batch before
    · rw [List.mem_singleton.mp same]
      exact most
  · rw [List.dropLast_concat]
    exact full

/-- Changing batches one by one leaves them in batches if it keeps how many items they have. -/
theorem map {change : List α → List β} (same : ∀ batch, (change batch).length = batch.length)
    (inBatches : InBatches n batches) : InBatches n (batches.map change) := by
  constructor
  · intro changed member empty
    obtain ⟨batch, there, rfl⟩ := List.mem_map.mp member
    apply inBatches.nonempty batch there
    rw [← List.length_eq_zero_iff, ← same, empty, List.length_nil]
  · intro changed member
    obtain ⟨batch, there, rfl⟩ := List.mem_map.mp member
    rw [same]
    exact inBatches.most batch there
  · rw [← List.map_dropLast]
    intro changed member
    obtain ⟨batch, there, rfl⟩ := List.mem_map.mp member
    rw [same]
    exact inBatches.full batch there

theorem tail {first second : List α} {later : List (List α)}
    (inBatches : InBatches n (first :: second :: later)) : InBatches n (second :: later) := by
  constructor
  · intro batch member
    exact inBatches.nonempty batch (.tail _ member)
  · intro batch member
    exact inBatches.most batch (.tail _ member)
  · intro batch member
    exact inBatches.full batch (.tail _ member)

/-- There are as many batches as it takes for the items. -/
theorem length_eq (positive : 1 ≤ n) (inBatches : InBatches n batches) :
    batches.length = (batches.flatten.length + n - 1) / n := by
  induction batches with
  | nil => exact (Nat.div_eq_of_lt (by simp; omega)).symm
  | cons first later ih =>
    have nonempty := List.length_pos_iff.mpr (inBatches.nonempty first (.head _))
    have most := inBatches.most first (.head _)
    cases later with
    | nil =>
      have parts : ([first].flatten.length + n - 1) = (first.length - 1) + n := by simp; omega
      rw [parts, Nat.add_div_right _ positive, Nat.div_eq_of_lt (by omega)]
      rfl
    | cons second later =>
      have full : first.length = n := inBatches.full first (.head _)
      have parts : (first :: second :: later).flatten.length + n - 1 =
          (second :: later).flatten.length + n - 1 + n := by
        rw [List.flatten_cons, List.length_append]
        omega
      rw [parts, Nat.add_div_right _ positive, ← ih inBatches.tail]
      rfl

end InBatches

namespace RecordSet

/-- All lists that items are divided into are full, and less than a full one is left over. -/
theorem divide_lengths {α : Type} {n : Nat} (pending items : List α) (room : pending.length < n) :
    (∀ list ∈ (divide n pending items).1, list.length = n) ∧ (divide n pending items).2.length < n := by
  -- The pending items are always fewer than a full list, whatever has been divided before them.
  induction items generalizing pending with
  | nil => simp [divide, room]
  | cons a later ih =>
    rw [divide]
    by_cases full : (n : Int) ≤ (a :: pending).length
    · obtain ⟨lists, left⟩ := ih [] (by simp; omega)
      simp only [if_pos full]
      constructor
      · intro list member
        rcases List.mem_cons.mp member with rfl | there
        · simp only [List.length_reverse, List.length_cons] at full ⊢
          omega
        · exact lists list there
      · exact left
    · rw [if_neg full]
      apply ih
      omega

/-- The chunks of rows are full ones, with those left over after them unless there are none or reading
fails. -/
theorem chunks_parts {n : Nat} (positive : 1 ≤ n) (rd : Reading) :
    ∃ full left, full.flatten ++ left = rd.rows ∧ (∀ list ∈ full, list.length = n) ∧ left.length < n ∧
      (rd.chunks n [] = full ∨ rd.failure = none ∧ left ≠ [] ∧ rd.chunks n [] = full ++ [left]) := by
  obtain ⟨lists, less⟩ := divide_lengths [] rd.rows positive
  have all := divide_flatten n [] rd.rows
  refine ⟨_, _, all, lists, less, ?_⟩
  rw [Reading.chunks]
  by_cases stops : (rd.failure.isSome || (divide n [] rd.rows).2.isEmpty) = true
  · exact .inl (if_pos stops)
  · right
    simp only [Bool.or_eq_true, not_or, Bool.not_eq_true, Option.isSome_eq_false_iff,
      Option.isNone_iff_eq_none, List.isEmpty_eq_false_iff] at stops
    simp [stops]

theorem inBatches_chunks {n : Nat} (positive : 1 ≤ n) (rd : Reading) :
    InBatches n (rd.chunks n []) := by
  obtain ⟨full, left, -, lists, less, same | ⟨-, nonempty, same⟩⟩ := chunks_parts positive rd
  · rw [same]
    exact .of_full positive lists
  · rw [same]
    exact .append_last positive lists nonempty less.le

/-! ## Reading records -/

/-- The rows that are read are those of the first records, with the lines of these; they are all the
rows unless reading fails. -/
theorem readRows_taken (start : Cursor) (failure : Option Failure) (records : List Record) :
    let rd := readRows start failure records
    List.Forall₂ (fun r q => q.1 = r.line ∧ row (start.on r) = .ok q.2)
        (records.take rd.rows.length) rd.rows ∧
      (rd.failure = none → failure = none ∧ rd.rows.length = records.length) := by
  induction records with
  | nil => exact ⟨.nil, fun whole => ⟨whole, rfl⟩⟩
  | cons r later ih =>
    rw [readRows]
    cases read : row (start.on r) with
    | error f => exact ⟨.nil, by simp⟩
    | ok cells =>
      obtain ⟨rows, ends⟩ := ih
      constructor
      · exact .cons ⟨rfl, read⟩ rows
      · intro whole
        obtain ⟨ended, all⟩ := ends whole
        exact ⟨ended, by simp [Reading.cons, all]⟩

/-- The rows of records that are all read. -/
theorem readRows_all {start : Cursor} {failure : Option Failure} {records : List Record}
    (whole : (readRows start failure records).failure = none) :
    List.Forall₂ (fun r q => q.1 = r.line ∧ row (start.on r) = .ok q.2) records
      (readRows start failure records).rows := by
  obtain ⟨rows, ends⟩ := readRows_taken start failure records
  rw [(ends whole).2, List.take_length] at rows
  exact rows

/-! ## Stored values -/

/-- A decimal is another one rounded to 12 digits after the point, halves going to the even one, and has
no more than 38 digits. -/
inductive IsRounded : Decimal → Decimal → Prop where
  | finite {negative negative' : Bool} {c c' : Nat} {e : Int} (few : c' < 10 ^ decimalPrecision)
    (amount : Decimal.amount negative' c' (-decimalScale) =
      halfEven (Decimal.amount negative c e * 10 ^ decimalScale) / 10 ^ decimalScale) :
    IsRounded (.finite negative c e) (.finite negative' c' (-decimalScale))

/-- A value of a column is stored as it is unless it is a decimal, which is rounded. -/
inductive IsStored : Option Cell → Option Cell → Prop where
  | null : IsStored none none
  | decimal {d d' : Decimal} (rounded : IsRounded d d') :
    IsStored (some (.decimal d)) (some (.decimal d'))
  | other {cell : Cell} (same : ∀ d, cell ≠ .decimal d) : IsStored (some cell) (some cell)

theorem isRounded_of_quantize? {d d' : Decimal}
    (digits : d.quantize? decimalPrecision decimalScale = some d') (inside : InDigits d') :
    ∃ d'', held (.decimal d') = .decimal d'' ∧ IsRounded d d'' := by
  cases d with
  | finite negative c e =>
    rcases Decimal.quantize?_finite decimalPrecision (by decide) decimalScale negative c e with
      ⟨-, tooLong⟩ | ⟨few, same, amount⟩
    · cases tooLong.symm.trans digits
    · cases same.symm.trans digits
      generalize (halfEven _).natAbs = n at few amount
      cases n with
      | zero =>
        refine ⟨_, rfl, .finite few ?_⟩
        rw [← amount]
        cases negative <;> simp [Decimal.amount, Decimal.signed]
      | succ n => exact ⟨_, rfl, .finite few amount⟩
  | infinite negative => cases digits
  | nan negative signaling payload =>
    obtain ⟨_, _, -, rfl⟩ := inside
    cases signaling <;> cases digits

/-- What is stored for a value that fits. -/
theorem isStored_of_fits {type : ColumnType} {cell : Option Cell}
    (ofType : ∀ c, cell = some c → Cell.OfType type c) (fits : Fits type cell) :
    IsStored cell (storedCell type cell) := by
  cases cell with
  | none => exact .null
  | some c =>
    obtain ⟨value, handed, room⟩ := fits c rfl
    have ofType := ofType c rfl
    rw [storedCell, Option.bind_some, handed, Option.map_some]
    cases ofType with
    | decimal d =>
      obtain ⟨d', digits, rfl⟩ := Option.map_eq_some_iff.mp handed
      obtain ⟨d'', same, rounded⟩ := isRounded_of_quantize? digits room
      rw [same]
      exact .decimal rounded
    | _ =>
      cases handed
      refine .other fun d same => ?_
      cases same

/-- A row is what is stored for the record that a cursor is on: the value of each column. -/
def IsRowOf (c : Cursor) (stored : Row) : Prop :=
  ∃ cells, row c = .ok cells ∧ List.Forall₂ IsStored cells stored

theorem forall₂_storedRow {columns : List Column} {cells : Row} (rowOf : RowOf columns cells)
    (fits : RowFits columns cells) : List.Forall₂ IsStored cells (storedRow columns cells) := by
  have length : (storedRow columns cells).length = cells.length := by
    rw [storedRow, List.length_map, List.length_zip, rowOf.length, Nat.min_self]
  apply List.forall₂_iff_get.mpr
  refine ⟨length.symm, ?_⟩
  intro i inside _
  have columnInside : i < columns.length := rowOf.length ▸ inside
  have member : (columns[i], cells[i]) ∈ columns.zip cells := by
    rw [← List.getElem_zip]
    exact List.getElem_mem (by rw [List.length_zip]; omega)
  have ofType (c : Cell) (same : cells[i] = some c) : Cell.OfType columns[i].type c :=
    rowOf.ofType columns[i] c (same ▸ member)
  have stored := isStored_of_fits ofType (fits _ member)
  simpa [storedRow] using stored

/-! ## Objects that can be read -/

/-- An object can be read as the columns of a record set: its path has the values of the partition
columns, it can be opened, its records end without a failure, and each record has values that can be
read and stored. -/
structure Readable (s : Store) (r : RecordSet) (start : Cursor) (rs : Records) : Prop where
  made : r.cursor = .ok start
  opened : openObject s r.path r.limit = .ok rs
  whole : rs.failure = none
  values : ∀ rec ∈ rs.records, ∃ cells, row (start.on rec) = .ok cells ∧ RowFits r.columns cells

variable {s : Store} {r : RecordSet} {start : Cursor} {rs : Records}

theorem reading_eq (made : r.cursor = .ok start) (opened : openObject s r.path r.limit = .ok rs) :
    r.reading s = readRows start rs.failure rs.records := by
  obtain ⟨-, path, limit, -⟩ := fresh_of made
  rw [reading, made]
  simp only [path, limit, opened]

/-- An object is opened and its records are read, or there are no rows. -/
theorem reading_cases (s : Store) (r : RecordSet) :
    (∃ start rs, r.cursor = .ok start ∧ openObject s r.path r.limit = .ok rs) ∨
      ∃ f, r.reading s = ⟨[], some f⟩ := by
  cases made : r.cursor with
  | error f => exact .inr ⟨f, by rw [reading, made]⟩
  | ok start =>
    obtain ⟨-, path, limit, -⟩ := fresh_of made
    cases opened : openObject s r.path r.limit with
    | error f =>
      refine .inr ⟨f, ?_⟩
      rw [reading, made]
      simp only [path, limit, opened]
    | ok rs => exact .inl ⟨start, rs, rfl, rfl⟩

theorem Readable.reading (readable : Readable s r start rs) :
    (r.reading s).failure = none ∧
      List.Forall₂ (fun rec q => row (start.on rec) = .ok q.2 ∧ RowFits r.columns q.2) rs.records
        (r.reading s).rows := by
  rw [reading_eq readable.made readable.opened, readable.whole]
  have each : ∀ rec ∈ rs.records, ∃ cells, row (start.on rec) = .ok cells ∧
      row (start.on rec) = .ok cells ∧ RowFits r.columns cells := by
    intro rec member
    obtain ⟨cells, read, fits⟩ := readable.values rec member
    exact ⟨cells, read, read, fits⟩
  exact readRows_whole none each

/-- An object can be read exactly if its batches do not fail. -/
theorem exists_readable_iff (size : Int) :
    (r.batches s size).failure = none ↔ ∃ start rs, Readable s r start rs := by
  rw [batches_failure_eq_none]
  constructor
  · rintro ⟨whole, fits⟩
    rcases reading_cases s r with ⟨start, rs, made, opened⟩ | ⟨f, failed⟩
    swap
    · rw [failed] at whole
      cases whole
    rw [reading_eq made opened] at whole fits
    have rows := readRows_all whole
    refine ⟨start, rs, made, opened, ((readRows_taken ..).2 whole).1, ?_⟩
    intro rec member
    obtain ⟨q, there, -, read⟩ := (exists_of_mem_forall₂ rows).2 rec member
    exact ⟨q.2, read, fits q there⟩
  · rintro ⟨start, rs, readable⟩
    obtain ⟨whole, rows⟩ := readable.reading
    refine ⟨whole, ?_⟩
    intro q member
    obtain ⟨rec, -, -, fits⟩ := (exists_of_mem_forall₂ rows).1 q member
    exact fits

theorem storedRows_nil {columns : List Column} (empty : columns = []) (rows : List Row) :
    storedRows columns rows = [] := by
  rw [storedRows, empty]
  rfl

theorem storedRows_eq_map {columns : List Column} (nonempty : columns ≠ []) (rows : List Row) :
    storedRows columns rows = rows.map (storedRow columns) := by
  rw [storedRows, if_neg (by simpa using nonempty)]

/-- How many rows a batch holds makes no difference to the rows. The batches of an object do not fail
if and only if it can be read, and then there are as many of them as it takes for the records. If there
are columns, none of the batches is empty, all but the last one are full, and their rows are those of the
records, in order. Without columns the batches have no rows. -/
theorem batches_rows (s : Store) (r : RecordSet) {n : Nat} (positive : 1 ≤ n) :
    ((r.batches s n).failure = none ↔ ∃ start rs, Readable s r start rs) ∧
      ∀ start rs, Readable s r start rs →
        (r.columns ≠ [] → InBatches n (r.batches s n).batches ∧
          List.Forall₂ (fun rec stored => IsRowOf (start.on rec) stored) rs.records
            (r.batches s n).batches.flatten) ∧
        (r.columns = [] → ∀ batch ∈ (r.batches s n).batches, batch = []) ∧
        (r.batches s n).batches.length = (rs.records.length + n - 1) / n ∧
        (rs.records = [] → (r.batches s n).batches = []) ∧
        ∀ m : Int, (r.batches s m).failure = none ∧
          (r.batches s m).batches.flatten = (r.batches s n).batches.flatten := by
  constructor
  · exact exists_readable_iff n
  intro start rs readable
  have fine (size : Int) : (r.batches s size).failure = none :=
    (exists_readable_iff size).mpr ⟨start, rs, readable⟩
  obtain ⟨whole, rows⟩ := readable.reading
  obtain ⟨-, -, batches⟩ := batches_whole (fine n)
  have inBatches := inBatches_chunks positive (r.reading s)
  have all := chunks_flatten n whole
  have length : (r.batches s n).batches.length = (rs.records.length + n - 1) / n := by
    rw [batches, List.length_map, inBatches.length_eq positive, all, rows.length_eq]
  have same (m : Int) : (r.batches s m).batches.flatten = (r.batches s n).batches.flatten := by
    rw [(batches_flatten (fine m)).2.2, (batches_flatten (fine n)).2.2]
  refine ⟨?_, ?_, length, ?_, fun m => ⟨fine m, same m⟩⟩
  · intro nonempty
    constructor
    · rw [batches]
      apply inBatches.map
      intro chunk
      rw [storedChunk, storedRows_eq_map nonempty, List.length_map, List.length_map]
    · rw [batches, flatten_storedChunk, all, storedChunk, storedRows_eq_map nonempty,
        List.forall₂_map_right_iff, List.forall₂_map_right_iff]
      apply rows.imp
      intro rec q readAndFits
      obtain ⟨read, fits⟩ := readAndFits
      have rowOf := rowOf_row (c := start.on rec) rfl read
      rw [show (start.on rec).columns = r.columns from (fresh_of readable.made).2.2.2] at rowOf
      exact ⟨q.2, read, forall₂_storedRow rowOf fits⟩
  · intro noColumns batch member
    rw [batches] at member
    obtain ⟨chunk, -, rfl⟩ := List.mem_map.mp member
    exact storedRows_nil noColumns _
  · intro empty
    rw [empty, List.length_nil, Nat.div_eq_of_lt (by omega)] at length
    exact List.length_eq_zero_iff.mp length

/-- A store with an object of three records, one of them empty. -/
def threeRecords : Store :=
  { tree := .directory [("a.json",
      .file (String.toUTF8 "\x7b\"x\": 1\x7d\n\x7b\"x\": 2.5\x7d\n\x7b\x7d\n"))]
    proper := by decide +kernel }

/-- The rows of the object, the numbers read as decimals. -/
def threeDecimals : RecordSet :=
  { path := "/a.json", columns := [{ name := "x", type := .decimal }] }

/-- Three records make a full batch and one that is not full. -/
theorem batches_rows_threeDecimals : 1 ≤ 2 ∧ ∃ start rs,
    Readable threeRecords threeDecimals start rs ∧ rs.records.length = 3 ∧
      InBatches 2 (threeDecimals.batches threeRecords 2).batches ∧
      (threeDecimals.batches threeRecords 2).batches.length = 2 ∧
      List.Forall₂ (fun rec stored => IsRowOf (start.on rec) stored) rs.records
        (threeDecimals.batches threeRecords 2).batches.flatten := by
  have fine : (threeDecimals.batches threeRecords 2).failure.isNone = true := by decide +kernel
  have count : (openObject threeRecords threeDecimals.path threeDecimals.limit).toOption.map
      (·.records.length) = some 3 := by decide +kernel
  obtain ⟨whole, rows⟩ := batches_rows threeRecords threeDecimals (n := 2) (by decide)
  obtain ⟨start, rs, readable⟩ := whole.mp (Option.isNone_iff_eq_none.mp fine)
  obtain ⟨inOrder, -, length, -⟩ := rows start rs readable
  obtain ⟨inBatches, related⟩ := inOrder (by simp [threeDecimals])
  rw [readable.opened] at count
  have three : rs.records.length = 3 := Option.some.inj count
  rw [three] at length
  exact ⟨by decide, start, rs, readable, three, inBatches, length, related⟩

/-- The rows of the object without columns. -/
def threeBlanks : RecordSet := { path := "/a.json", columns := [] }

/-- Without columns the object can be read, and its batches are empty. -/
theorem batches_without_columns :
    (∃ start rs, Readable threeRecords threeBlanks start rs ∧ rs.records.length = 3) ∧
      (threeBlanks.batches threeRecords 2).batches = [[], []] := by
  have fine : (threeBlanks.batches threeRecords 2).failure.isNone = true := by decide +kernel
  have count : (openObject threeRecords threeBlanks.path threeBlanks.limit).toOption.map
      (·.records.length) = some 3 := by decide +kernel
  have lengths : (threeBlanks.batches threeRecords 2).batches.map List.length = [0, 0] := by
    decide +kernel
  obtain ⟨start, rs, readable⟩ := (exists_readable_iff 2).mp (Option.isNone_iff_eq_none.mp fine)
  rw [readable.opened] at count
  refine ⟨⟨start, rs, readable, Option.some.inj count⟩, ?_⟩
  generalize (threeBlanks.batches threeRecords 2).batches = batches at lengths
  match batches, lengths with
  | [[], []], _ => rfl

end RecordSet

end SchemaOnRead
