import SchemaOnRead.Columns.Inference
import SchemaOnRead.Proofs.Calendar.Ordinals
import SchemaOnRead.Proofs.Columns.Listings
import SchemaOnRead.Proofs.Record.FirstRecord
import SchemaOnRead.Proofs.Record.Values

/-!
# Reading a record by the columns inferred from it

The columns that are inferred from a line read the record on that line (`columnsOfLine_read`): a type
is chosen so that it holds the value. Only a date is a guess, by the shape of its text; it is read if
the guessed pattern reads the text as a day of the calendar, and is reported otherwise, as for the 30th
of February (`columnsOfLine_misread`).
-/

namespace SchemaOnRead

open Text Coercion

/-! ## Dates that patterns read -/

namespace DatePattern

/-- A moment that is read is on a day of the calendar. -/
theorem isValid_of_moment? {p : DatePattern} {cs : List Char} {m : Moment}
    (read : p.moment? cs = some m) : m.date.isValid = true := by
  simp only [moment?, Option.bind_eq_bind, Option.bind_eq_some_iff] at read
  obtain ⟨fields, -, found, -, made⟩ := read
  unfold Found.moment? at made
  split at made
  · cases made
  · obtain ⟨d, -, made⟩ := Option.bind_eq_some_iff.mp made
    rw [Moment.of?] at made
    split at made
    · rename_i valid
      cases made
      simp only [Moment.isValid, Bool.and_eq_true] at valid
      exact valid.1.1.1.1.1
    · cases made

end DatePattern

namespace DateGuess

/-- The moment that a text denotes by a pattern, blanks around it aside. -/
def moment? (pattern text : String) : Option Moment :=
  (DatePattern.ofText? pattern).bind fun p => p.moment? (strip text.toList)

/-- The guessed patterns have each field once, and no column annotation has another meaning for them. -/
theorem shapes_patterns : ∀ shape ∈ shapes,
    ((DatePattern.ofText? shape.2).any (·.hasDistinctFields)) = true ∧
      TemporalFormat.ofName (some shape.2) = .pattern shape.2 := by decide +kernel

theorem toMoment_of_find? {name text pattern : String} (guessed : find? name text = some pattern) :
    TemporalFormat.ofName (some pattern) = .pattern pattern ∧
      toMoment text (.pattern pattern) = match moment? pattern text with
        | some m => .ok m
        | none => mismatch .unreadableDate := by
  rw [find?] at guessed
  split at guessed
  · obtain ⟨shape, found, rfl⟩ := Option.map_eq_some_iff.mp guessed
    obtain ⟨distinct, format⟩ := shapes_patterns shape (List.mem_of_find?_eq_some found)
    obtain ⟨p, read, distinct⟩ := (Option.any_eq_true _ _).mp distinct
    refine ⟨format, ?_⟩
    rw [toMoment, toMomentBy, moment?, read, Option.bind_some]
    cases made : p.moment? (strip text.toList) <;> simp [distinct, made]
  · cases guessed

end DateGuess

/-! ## Values that fit their column -/

namespace CellPlace

variable {p : CellPlace} {v : Value}

theorem read_integer {n : Int} (type : p.column.type = .integer ∨ p.column.type = .bigint) :
    p.read (.integer n) = .ok (.integer n) := by
  rcases type with type | type <;> simp [read, readInteger, type, coerce, toInteger, Except.map]

theorem read_decimal {d : Decimal} (type : p.column.type = .decimal) (found : toDecimal v = .ok d) :
    p.read v = .ok (.decimal d) := by
  simp [read, type, coerce_of_ok found, Except.map]

theorem read_double {x : Binary64} (type : p.column.type = .double) (found : toDouble v = .ok x) :
    p.read v = .ok (.double x) := by
  simp [read, type, coerce_of_ok found, Except.map]

theorem read_text (type : p.column.type = .varchar ∨ p.column.type = .json) :
    ∃ cell, p.read v = .ok cell := by
  rcases type with type | type
  · exact ⟨.text (toText v), by simp [read, readText, type, coerce, Except.map]⟩
  · exact ⟨.text (Json.compact v), by simp [read, readText, type, coerce, Except.map]⟩

/-- A text in a date column with a guessed pattern is read as the day of the moment it denotes. -/
theorem read_guess {name text pattern : String} (type : p.column.type = .date)
    (format : p.column.format = some pattern) (guessed : DateGuess.find? name text = some pattern) :
    p.read (.text text) = match DateGuess.moment? pattern text with
      | some m => .ok (.date m.date)
      | none => fail (p.misfit (.text text) .unreadableDate) := by
  obtain ⟨named, moment⟩ := DateGuess.toMoment_of_find? guessed
  have temporal : p.temporal = .pattern pattern := by rw [CellPlace.temporal, format, named]
  have days : toEpochDays (.pattern pattern) (.text text) =
      (toMoment text (.pattern pattern)).map fun m => m.date.epochDay := rfl
  cases found : DateGuess.moment? pattern text with
  | some m =>
    obtain ⟨q, -, read⟩ := Option.bind_eq_some_iff.mp found
    have valid := DatePattern.isValid_of_moment? read
    have date : toDate m.date.epochDay = .ok m.date := by
      rw [toDate, Date.ofEpochDay?_epochDay valid]
    rw [moment, found] at days
    simp only [CellPlace.read, readInteger, type, temporal, coerce_of_ok days]
    change (toDate _).bind _ = _
    rw [date]
    rfl
  | none =>
    rw [moment, found] at days
    have misfit : p.readInteger (.text text) = fail (p.misfit (.text text) .unreadableDate) := by
      simp only [readInteger, type, temporal]
      exact coerce_of_mismatch days
    simp only [CellPlace.read, type, misfit]
    rfl

end CellPlace

namespace Inference

/-! ## Inferred columns -/

theorem column_name (name : String) (v : Value) : (column name v).name = name := by
  cases v with
  | text s =>
    simp only [column]
    split <;> rfl
  | _ => rfl

/-- A date column is guessed from a text. -/
theorem guess_of_date {name : String} {v : Value} (type : (column name v).type = .date) :
    ∃ text pattern, v = .text text ∧ DateGuess.find? name text = some pattern ∧
      (column name v).format = some pattern := by
  cases v with
  | text s =>
    cases found : DateGuess.find? name s with
    | none => simp [column, found] at type
    | some pattern => exact ⟨s, pattern, rfl, found, by simp [column, found]⟩
  | integer n =>
    simp only [column, numericType, integerType] at type
    split at type
    · cases type
    · split at type <;> cases type
  | decimal d =>
    simp only [column, numericType] at type
    split at type <;> cases type
  | _ => cases type

/-- A value is read by the column inferred from it, unless that is a guess. -/
theorem read_column {name : String} {v : Value} (line : Nat) (path : String)
    (noGuess : (column name v).type ≠ .date) :
    ∃ cell, CellPlace.read ⟨column name v, line, path⟩ v = .ok cell := by
  cases v with
  | null => exact CellPlace.read_text (.inl rfl)
  | bool b => exact ⟨.boolean b, rfl⟩
  | integer n =>
    have type : (column name (.integer n)).type = integerType n := rfl
    rw [integerType] at type
    split at type
    · exact ⟨_, CellPlace.read_integer (.inl type)⟩
    · split at type
      · exact ⟨_, CellPlace.read_integer (.inr type)⟩
      · exact ⟨_, CellPlace.read_decimal type rfl⟩
  | decimal d =>
    have type : (column name (.decimal d)).type = if isDouble d then .double else .decimal := rfl
    split at type
    · rename_i exactly
      rw [isDouble] at exactly
      cases nearest : Binary64.ofDecimal? d with
      | none => simp [nearest] at exactly
      | some x => exact ⟨_, CellPlace.read_double type (by rw [toDouble, nearest])⟩
    · exact ⟨_, CellPlace.read_decimal type rfl⟩
  | double x => exact ⟨_, CellPlace.read_double rfl rfl⟩
  | text s =>
    cases found : DateGuess.find? name s with
    | some pattern => simp [column, found] at noGuess
    | none =>
      have type : (column name (.text s)).type = .varchar := by simp [column, found]
      exact CellPlace.read_text (.inl type)
  | list items => exact CellPlace.read_text (.inl rfl)
  | object fields => exact CellPlace.read_text (.inr rfl)

theorem columnsOfLine_eq_ok {path line : String} {columns : List Column}
    (accepted : columnsOfLine path line = .ok columns) :
    ∃ fields, Json.value (strip line.toList) = .ok (.object fields, []) ∧
      columns = columnsOf fields := by
  unfold columnsOfLine at accepted
  split at accepted
  · rename_i fields read
    cases accepted
    exact ⟨fields, Json.read_eq_ok_iff.mp read, rfl⟩
  · cases accepted
  · cases accepted
  · cases accepted

/-- A text that begins with a line, blanks before it aside, begins with what is on the line. -/
theorem exists_after_line {line before after : List Char} (blank : ∀ c ∈ before, isBlank c = true)
    (nonblank : strip line ≠ []) :
    ∃ rest, stripLeft (before ++ line ++ after) = strip line ++ rest := by
  have skipped : stripLeft before = [] := List.dropWhile_eq_nil_iff.mpr blank
  have some : stripLeft line ≠ [] := by
    intro none
    apply nonblank
    rw [strip, none]
    rfl
  obtain ⟨blanks, whole⟩ := exists_stripRight_append (stripLeft line)
  refine ⟨blanks ++ after, ?_⟩
  rw [List.append_assoc, stripLeft_append_of_blank skipped, stripLeft_append_of_nonblank some,
    ← List.append_assoc]
  exact congrArg (· ++ after) whole

variable {s : Store} {c : Cursor} {fields : Value.Fields} {i : Nat} {column : Column}

/-- A field of a record and the column inferred from it stand at the same place. -/
theorem raw_of_inferred (onRecord : c.state = .positioned) (record : c.fields = fields)
    (distinct : (Value.keys fields).Nodup) (columns : c.columns = columnsOf fields)
    (there : (columnsOf fields)[i]? = some column) :
    ∃ name v, column = Inference.column name v ∧ c.raw i = .ok (column, v) := by
  have ofData := isPartition_of_mem_inferred (List.mem_of_getElem? there)
  rw [columnsOf, List.getElem?_map, Option.map_eq_some_iff] at there
  obtain ⟨⟨name, v⟩, here, rfl⟩ := there
  have value : Value.fieldD fields name = v := by
    rw [Value.fieldD, Value.field?, lookup_of_mem distinct (List.mem_of_getElem? here)]
    rfl
  have there : c.columns[i]? = some (Inference.column name v) := by
    rw [columns, columnsOf, List.getElem?_map, here]
    rfl
  refine ⟨name, v, rfl, ?_⟩
  rw [Cursor.raw_of_data onRecord there ofData, record, column_name, value]

/-- A field is read by the column inferred from it, unless that is a guess. -/
theorem getValue_of_inferred {name : String} {v : Value}
    (found : c.raw i = .ok (Inference.column name v, v))
    (noGuess : (Inference.column name v).type ≠ .date) : ∃ cell?, c.getValue i = .ok cell? := by
  rw [Cursor.getValue_of_raw found]
  split
  · exact ⟨none, rfl⟩
  · obtain ⟨cell, read⟩ := read_column c.line c.path noGuess
    rw [read]
    exact ⟨some cell, rfl⟩

/-- What reading a text comes to when its column is a guess: the day that the pattern reads, or a
failure that tells the text and the pattern. -/
def ReadsGuess (c : Cursor) (i : Nat) (column : Column) : Prop :=
  ∃ text pattern, c.raw i = .ok (column, .text text) ∧ column.format = some pattern ∧
    DateGuess.find? column.name text = some pattern ∧
    match DateGuess.moment? pattern text with
    | some m => c.getValue i = .ok (some (.date m.date))
    | none => ∃ f, c.getValue i = .error f ∧ Cursor.TellsMisfit f column (.text text) c.line c.path

theorem readsGuess_of_inferred {name : String} {v : Value}
    (found : c.raw i = .ok (Inference.column name v, v))
    (guess : (Inference.column name v).type = .date) :
    ReadsGuess c i (Inference.column name v) := by
  obtain ⟨text, pattern, rfl, guessed, format⟩ := guess_of_date guess
  have read := @CellPlace.read_guess ⟨Inference.column name (.text text), c.line, c.path⟩ name text
    pattern guess format guessed
  refine ⟨text, pattern, found, format, ?_, ?_⟩
  · rw [column_name]
    exact guessed
  rw [Cursor.getValue_of_raw found, read]
  cases DateGuess.moment? pattern text with
  | some m => rfl
  | none => exact ⟨_, rfl, _, rfl⟩

/-- What a cursor over an object gives that begins with a line, blanks before it aside, when its
columns are those inferred from the line. It moves to the record on the line, whose fields are those
that the line holds, and every column has a value or none there, unless the column is a guess: that one
has the day that its pattern reads, and a failure tells the text and the pattern if it reads none. -/
theorem columnsOfLine_read {path line : String} {columns : List Column}
    (accepted : columnsOfLine path line = .ok columns) {object : String} {bytes : ByteArray}
    (stored : s.read object = .ok bytes)
    (intact : (Contents.ofObject object bytes.toList).failure = none) {before after : List Char}
    (holds : Utf8.text? (Contents.ofObject object bytes.toList).bytes =
      .ok (before ++ line.toList ++ after))
    (blank : ∀ c ∈ before, isBlank c = true) {limit : Int}
    (fits : (∀ c ∈ strip line.toList, isBreak c = false) ∨
      ((strip line.toList).length : Int) ≤ limit)
    (partition : Option PartitionDefinition) (totalBytes : Option Int) :
    ∃ start, Cursor.of object columns partition totalBytes limit = .ok start ∧
      (start.advance s).1 = .ok true ∧ (start.advance s).2.state = .positioned ∧
      Json.readText line = .ok (.object (start.advance s).2.fields) ∧
      ∀ (i : Nat) (column : Column), columns[i]? = some column →
        (column.type ≠ .date → ∃ cell?, (start.advance s).2.getValue i = .ok cell?) ∧
        (column.type = .date → ReadsGuess (start.advance s).2 i column) := by
  obtain ⟨fields, read, rfl⟩ := columnsOfLine_eq_ok accepted
  have ofData := fun c => @isPartition_of_mem_inferred fields c
  obtain ⟨start, made⟩ := Cursor.exists_of_data ofData object partition totalBytes limit
  obtain ⟨fresh, rfl, rfl, columns⟩ := Cursor.fresh_of made
  have nonblank : strip line.toList ≠ [] := by
    intro none
    rw [none] at read
    cases read
  obtain ⟨rest, begins⟩ := @exists_after_line _ _ after blank nonblank
  have opened : Cursor.openObject s start.path start.limit = .ok (Records.ofContents start.path
      start.limit (.ofObject start.path bytes.toList)) := by
    rw [Cursor.openObject, stored]
    rfl
  obtain ⟨moved, onRecord, record⟩ := Cursor.advance_first fresh opened
    (Records.ofContents_beginsWith intact holds begins read fits)
  have same := (Cursor.same_advance s start).columns.trans columns
  refine ⟨start, made, moved, onRecord, record ▸ Json.read_eq_ok_iff.mpr read, fun i column there => ?_⟩
  have distinct : (Value.keys fields).Nodup := by
    cases Json.decoded_value read
    assumption
  obtain ⟨name, v, rfl, found⟩ := raw_of_inferred onRecord record distinct same there
  exact ⟨getValue_of_inferred found, readsGuess_of_inferred found⟩

/-- A line with a number and a date. -/
def datedLine : String := "\x7b\"n\": 1, \"date\": \"2017-02-28\"\x7d"

def datedColumns : List Column :=
  [{ name := "n", type := .integer, comment := some "number" },
    { name := "date", type := .date, comment := some "date", format := some "%Y-%m-%d" }]

/-- A store with an object that holds the line. -/
def datedStore : Store :=
  { tree := .directory [("a.json", .file (String.toUTF8 (datedLine ++ "\n")))]
    proper := by decide +kernel }

/-- The first record of the object is the one of the line, and both of its columns are read on it: the
number outright, the date by the guess that was made for it. -/
theorem columnsOfLine_read_dated :
    columnsOfLine "/a.json" datedLine = .ok datedColumns ∧
      ∃ start, Cursor.of "/a.json" datedColumns none none 64 = .ok start ∧
        (start.advance datedStore).1 = .ok true ∧
        (start.advance datedStore).2.state = .positioned ∧
        Json.readText datedLine = .ok (.object (start.advance datedStore).2.fields) ∧
        (∃ cell?, (start.advance datedStore).2.getValue 0 = .ok cell?) ∧
        ∃ column, datedColumns[1]? = some column ∧
          ReadsGuess (start.advance datedStore).2 1 column := by
  have accepted : columnsOfLine "/a.json" datedLine = .ok datedColumns :=
    ok_of_toOption (by decide +kernel)
  have stored : datedStore.read "/a.json" = .ok (String.toUTF8 (datedLine ++ "\n")) := by rfl
  have holds : Utf8.text? (Contents.ofObject "/a.json" (String.toUTF8 (datedLine ++ "\n")).toList).bytes =
      .ok ([] ++ datedLine.toList ++ ['\n']) := by
    have bytes : (Contents.ofObject "/a.json" (String.toUTF8 (datedLine ++ "\n")).toList).bytes =
      ([] ++ datedLine.toList ++ ['\n']).flatMap String.utf8EncodeChar := by decide +kernel
    rw [bytes]
    exact Utf8.text?_utf8 _
  obtain ⟨start, made, moved, onRecord, record, each⟩ :=
    columnsOfLine_read accepted stored (by decide +kernel) holds
      (fun _ none => nomatch none) (.inl (by decide +kernel)) none none
  exact ⟨accepted, start, made, moved, onRecord, record, (each 0 _ rfl).1 (by decide), _, rfl, (each 1 _ rfl).2 rfl⟩

/-- The 30th of February has the shape of a date. -/
def misreadLine : String := "\x7b\"date\": \"2017-02-30\"\x7d"

def misreadCursor : Cursor :=
  { path := "/a.json", limit := 64, totalBytes := none, partitionValues := []
    columns := [{ name := "date", type := .date, comment := some "date", format := some "%Y-%m-%d" }] }

/-- A store with an object that holds the line. -/
def misreadStore : Store :=
  { tree := .directory [("a.json", .file (String.toUTF8 (misreadLine ++ "\n")))]
    proper := by decide +kernel }

/-- A column is guessed to hold dates by the shape of its text, and the text then fails to be read. -/
theorem columnsOfLine_misread :
    columnsOfLine "/a.json" misreadLine = .ok misreadCursor.columns ∧
      Cursor.of "/a.json" misreadCursor.columns none none 64 = .ok misreadCursor ∧
      (misreadCursor.advance misreadStore).1 = .ok true ∧
      ∃ f, (misreadCursor.advance misreadStore).2.getValue 0 = .error f ∧
        f.report.kind = .fileFormat := by
  have accepted : columnsOfLine "/a.json" misreadLine = .ok misreadCursor.columns :=
    ok_of_toOption (by decide +kernel)
  have moved : (misreadCursor.advance misreadStore).1 = .ok true :=
    ok_of_toOption (by decide +kernel)
  have fails : (match (misreadCursor.advance misreadStore).2.getValue 0 with
      | .ok _ => none
      | .error f => some f.report.kind) = some .fileFormat := by decide +kernel
  refine ⟨accepted, rfl, moved, ?_⟩
  split at fails
  · cases fails
  · rename_i f failed
    exact ⟨f, failed, Option.some.inj fails⟩

end Inference

end SchemaOnRead
