import SchemaOnRead.Proofs.Record.Coercions
import SchemaOnRead.Proofs.Record.Lifecycle

/-!
# Values that a cursor gives

A cursor is only ever on records that were read from text (`allDecoded_ofContents`). Reading a field of
one gives a value or none, or a failure that tells the column, the value, the format, the line and the
path, except for the values with which reading breaks off (`getValue_ends`).
-/

namespace SchemaOnRead

namespace Records

/-! ## Records are read from text -/

/-- A record is an object that was read. -/
def AllDecoded (rs : Records) : Prop := ∀ r ∈ rs.records, Json.Decoded (.object r.fields)

theorem decoded_drain (path : String) (fuel : Nat) (b : Buffer) :
    ∀ found ∈ (drain path fuel b).found, Json.Decoded (.object found.2) := by
  induction fuel generalizing b with
  | zero => exact List.forall_mem_nil _
  | succ fuel ih =>
    rw [drain]
    split
    · exact List.forall_mem_nil _
    · simp only
      split
      · exact List.forall_mem_nil _
      · split
        · split
          · exact List.forall_mem_nil _
          · exact List.forall_mem_nil _
        · exact List.forall_mem_nil _
        · exact List.forall_mem_nil _
        · rename_i read
          exact List.forall_mem_cons.mpr ⟨Json.decoded_value read, ih _⟩
        · exact List.forall_mem_nil _

theorem allDecoded_prepend {found : List (Nat × Value.Fields)} {bytesRead : Nat} {rs : Records}
    (first : ∀ p ∈ found, Json.Decoded (.object p.2)) (later : rs.AllDecoded) :
    (prepend found bytesRead rs).AllDecoded := by
  intro r member
  rcases List.mem_append.mp member with new | old
  · obtain ⟨p, there, rfl⟩ := List.mem_map.mp new
    exact first p there
  · exact later r old

theorem allDecoded_ofLinesFrom (path : String) (limit : Int) (ls : Lines) (count : Nat) (b : Buffer)
    (rest : List Line) : (ofLinesFrom path limit ls count b rest).AllDecoded := by
  induction rest generalizing count b with
  | nil => exact List.forall_mem_nil _
  | cons l rest ih =>
    rw [ofLinesFrom]
    simp only
    split
    · exact ih _ _
    · rename_i b' _
      have found := decoded_drain path (b'.text.length + 1) b'
      split
      · exact allDecoded_prepend found (List.forall_mem_nil _)
      · exact allDecoded_prepend found (ih _ _)

/-- The records of an object were read from text. -/
theorem allDecoded_ofContents (path : String) (limit : Int) (c : Contents) :
    (ofContents path limit c).AllDecoded := by
  unfold ofContents
  exact allDecoded_ofLinesFrom path limit _ 0 {} _

end Records

namespace Cursor

open Coercion

variable {s : Store} {start c : Cursor} {count : Nat}

/-- A cursor on a record is on one that was read from text. -/
theorem Phase.decoded (fresh : Fresh start) (phase : Phase s start count c)
    (onRecord : c.state = .positioned) : Json.Decoded (.object c.fields) := by
  cases phase with
  | unstarted => cases onRecord.symm.trans fresh.state
  | exhausted _ _ state _ _ _ => cases onRecord.symm.trans state
  | closed state _ _ => cases onRecord.symm.trans state
  | positioned opened here state ahead fields line once =>
    obtain ⟨bytes, -, same⟩ := openObject_eq_ok opened
    rw [same] at here
    rw [fields]
    exact Records.allDecoded_ofContents _ _ _ _ (List.mem_of_getElem? here)

theorem decoded_fieldD {fields : Value.Fields} (decoded : Json.Decoded (.object fields))
    (key : String) : Json.Decoded (Value.fieldD fields key) := by
  cases decoded with
  | object _ inner =>
    rw [Value.fieldD, Value.field?]
    cases found : fields.lookup key with
    | none => exact .null
    | some v => exact inner (key, v) (mem_of_lookup_eq_some found)

/-- The value of a field before it is read as the column's type was read from text, or is a text. -/
theorem raw_decoded (onRecord : c.state = .positioned) (decoded : Json.Decoded (.object c.fields))
    {i : Nat} {column : Column} (there : c.columns[i]? = some column) :
    ∃ v, c.raw i = .ok (column, v) ∧ Json.Decoded v := by
  cases ofPath : column.isPartition with
  | true =>
    refine ⟨_, raw_of_partition onRecord there ofPath, ?_⟩
    cases (c.partitionValues.lookup column.name).join with
    | none => exact .null
    | some text => exact .text text
  | false => exact ⟨_, raw_of_data onRecord there ofPath, decoded_fieldD decoded column.name⟩

/-- Reading a field whose value is null gives none, and otherwise the value in its place is read. -/
theorem getValue_of_raw {i : Nat} {column : Column} {v : Value} (found : c.raw i = .ok (column, v)) :
    c.getValue i =
      if v.isNull then .ok none else (CellPlace.read ⟨column, c.line, c.path⟩ v).map some := by
  rw [getValue, found]
  cases null : v.isNull with
  | true => simp [bind, Except.bind, null]; rfl
  | false => simp [bind, Except.bind, null]; rfl

theorem kind_of_breaks {f : TemporalFormat} {type : ColumnType} {v : Value} {kind : Kind}
    (breaks : Breaks f type v kind) : kind = .overflow ∨ kind = .badValue ∨ kind = .foreign := by
  cases breaks with
  | hugeInteger huge => exact .inl rfl
  | hugeEntry readable huge => exact .inl rfl
  | notAscii member outside => exact .inr (.inl rfl)
  | timestamp many => exact .inr (.inr rfl)
  | date many => exact .inr (.inr rfl)
  | notInCalendar read outside =>
    rw [dayFailure]
    split
    · exact .inr (.inl rfl)
    · exact .inl rfl

theorem isNull_of_breaks {f : TemporalFormat} {type : ColumnType} {v : Value} {kind : Kind}
    (breaks : Breaks f type v kind) : v.isNull = false := by
  cases v with
  | null =>
    cases breaks with
    | timestamp many =>
      obtain ⟨unit, d, -, read, -⟩ := many
      cases read
    | date many =>
      obtain ⟨unit, d, -, read, -⟩ := many
      cases read
    | notInCalendar read outside => cases read
  | _ => rfl

/-- What a failure tells about a value that does not fit: the column, the value, the format, the line,
the path and the reason. -/
def TellsMisfit (f : Failure) (column : Column) (v : Value) (line : Nat) (path : String) : Prop :=
  ∃ reason, f.report = ⟨.fileFormat, s!"Unable to read value as {column.type.name}",
    [("column", .text column.name), ("input", .text (toText v)),
      ("format", Cause.optionalText column.format), ("line", .integer line),
      ("object_path", .text path), ("reason", .text reason)]⟩

/-- Reading a value in its place gives it or tells what does not fit, or it breaks off. -/
theorem getValue_of_decoded {i : Nat} {column : Column} {v : Value}
    (found : c.raw i = .ok (column, v)) (decoded : Json.Decoded v)
    (accepted : IsAccepted (.ofName column.format)) :
    (∃ cell?, c.getValue i = .ok cell?) ∨
      (∃ f, c.getValue i = .error f ∧ TellsMisfit f column v c.line c.path) ∨
      ∃ kind, Breaks (.ofName column.format) column.type v kind ∧
        c.getValue i = fail (.other kind) := by
  rw [getValue_of_raw found]
  split
  · exact .inl ⟨none, rfl⟩
  · have ends := CellPlace.read_ends (p := ⟨column, c.line, c.path⟩) accepted decoded
    generalize CellPlace.read ⟨column, c.line, c.path⟩ v = r at ends
    cases ends with
    | ok cell => exact .inl ⟨some cell, rfl⟩
    | misfit m => exact .inr (.inl ⟨_, rfl, m.message, rfl⟩)
    | @broke kind how => exact .inr (.inr ⟨kind, how, rfl⟩)

theorem getValue_of_breaks {i : Nat} {column : Column} {v : Value}
    (found : c.raw i = .ok (column, v)) {kind : Kind}
    (breaks : Breaks (.ofName column.format) column.type v kind) :
    c.getValue i = fail (.other kind) := by
  have broken := CellPlace.read_of_breaks (p := ⟨column, c.line, c.path⟩) breaks
  rw [getValue_of_raw found, isNull_of_breaks breaks, broken]
  rfl

/-- Whatever has been asked of a cursor, on a record it has a value of every column that was read from
the text of the object or is a text of its path. Unless reading that value breaks off, the cursor gives
none or the value as the column's type, or fails with the column, the value, the format, the line, the
path and the reason. With the values that `Breaks` lists it fails in another way. -/
theorem getValue_ends {path : String} {columns : List Column} {partition : Option PartitionDefinition}
    {totalBytes : Option Int} {limit : Int}
    (made : Cursor.of path columns partition totalBytes limit = .ok start) {calls : List Call}
    (reached : start.afterAll s calls = c) (onRecord : c.state = .positioned) {i : Nat}
    {column : Column} (there : columns[i]? = some column)
    (accepted : IsAccepted (.ofName column.format)) :
    ∃ v, c.raw i = .ok (column, v) ∧
      ((¬ ∃ kind, Breaks (.ofName column.format) column.type v kind) →
        (∃ cell?, c.getValue i = .ok cell?) ∨
          ∃ f, c.getValue i = .error f ∧ TellsMisfit f column v c.line path) ∧
      ∀ kind, Breaks (.ofName column.format) column.type v kind →
        kind ≠ .fileFormat ∧ c.getValue i = fail (.other kind) := by
  obtain ⟨fresh, rfl, -, rfl⟩ := fresh_of made
  have same := same_afterAll s start calls
  have phase := phase_afterAll fresh (.unstarted (s := s)) calls
  rw [reached] at same phase
  rw [← same.columns] at there
  obtain ⟨v, found, decoded⟩ := raw_decoded onRecord (phase.decoded fresh onRecord) there
  refine ⟨v, found, fun whole => ?_, fun kind breaks => ⟨?_, getValue_of_breaks found breaks⟩⟩
  · rw [← same.path]
    rcases getValue_of_decoded found decoded accepted with given | misfit | ⟨kind, breaks, -⟩
    · exact .inl given
    · exact .inr misfit
    · exact absurd ⟨kind, breaks⟩ whole
  · rcases kind_of_breaks breaks with rfl | rfl | rfl <;> decide

/-- A store with an object of one record, whose text is not ASCII. -/
def oneWord : Store :=
  { tree := .directory [("a.json", .file (String.toUTF8 "\x7b\"x\": \"é\"\x7d\n"))]
    proper := by decide +kernel }

/-- A cursor that reads the text as binary data. -/
def oneWordCursor : Cursor :=
  { path := "/a.json", columns := [{ name := "x", type := .varbinary }], limit := 64
    totalBytes := none, partitionValues := [] }

/-- Reading the text as binary data breaks off. -/
theorem getValue_ends_oneWord : (oneWordCursor.afterAll oneWord [.advance]).raw 0 =
      .ok ({ name := "x", type := .varbinary }, .text "é") ∧
    (oneWordCursor.afterAll oneWord [.advance]).getValue 0 = fail (.other .badValue) := by
  have made : Cursor.of "/a.json" oneWordCursor.columns none none 64 = .ok oneWordCursor := rfl
  have onRecord : (oneWordCursor.afterAll oneWord [.advance]).state = .positioned := by
    decide +kernel
  have accepted : IsAccepted (.ofName none) := by rintro _ _ ⟨⟩
  have there : oneWordCursor.columns[0]? = some { name := "x", type := .varbinary } := rfl
  obtain ⟨v, found, -, breaks⟩ := getValue_ends made rfl onRecord there accepted
  rw [Int.ofNat_zero] at found breaks
  have isText : ((oneWordCursor.afterAll oneWord [.advance]).raw 0).toOption.any
      (·.2 == .text "é") = true := by decide +kernel
  rw [found] at isText
  cases v with
  | text s =>
    cases eq_of_beq (α := String) isText
    exact ⟨found, (breaks .badValue (.notAscii (c := 'é') (by decide) (by decide))).2⟩
  | _ => cases isText

end Cursor

end SchemaOnRead
