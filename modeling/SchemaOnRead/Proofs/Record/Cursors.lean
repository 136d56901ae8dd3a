import SchemaOnRead.Record.Cursor

/-!
# Where the values of a cursor come from

A cursor keeps its columns and the values of its partition columns wherever it moves
(`Reached.same`). On a record, a partition column has the value that the path of the object gives, and
any other column has the record's (`raw_of_partition`, `raw_of_data`).
-/

namespace SchemaOnRead.Cursor

/-- The cursors that a cursor becomes when it is moved and closed. -/
inductive Reached (s : Store) (start : Cursor) : Cursor → Prop where
  | start : Reached s start start
  | advance {c : Cursor} : Reached s start c → Reached s start (c.advance s).2
  | close {c : Cursor} : Reached s start c → Reached s start c.close

/-- What a cursor keeps wherever it moves. -/
structure Same (c d : Cursor) : Prop where
  path : d.path = c.path
  columns : d.columns = c.columns
  partitionValues : d.partitionValues = c.partitionValues

theorem Same.refl (c : Cursor) : Same c c := ⟨rfl, rfl, rfl⟩

theorem Same.trans {c d e : Cursor} (first : Same c d) (second : Same d e) : Same c e :=
  ⟨second.path.trans first.path, second.columns.trans first.columns,
    second.partitionValues.trans first.partitionValues⟩

theorem same_step (c : Cursor) (rs : Records) : Same c (c.step rs).2 := by
  rw [step]
  split
  · exact ⟨rfl, rfl, rfl⟩
  · simp only
    split
    · exact ⟨rfl, rfl, rfl⟩
    · exact ⟨rfl, rfl, rfl⟩

theorem same_advance (s : Store) (c : Cursor) : Same c (c.advance s).2 := by
  rw [advance]
  split
  · exact .refl c
  · exact .refl c
  · simp only
    split
    · exact ⟨rfl, rfl, rfl⟩
    · rename_i rs _
      have opened := same_step { c with opens := c.opens + 1 } rs
      exact ⟨opened.path, opened.columns, opened.partitionValues⟩
  · split
    · exact same_step c _
    · exact .refl c

theorem Reached.same {s : Store} {start c : Cursor} (reached : Reached s start c) : Same start c := by
  induction reached with
  | start => exact .refl start
  | advance _ ih => exact ih.trans (same_advance s _)
  | close _ ih => exact ih.trans ⟨rfl, rfl, rfl⟩

/-- The value that the text of a partition column is. -/
def textValue : Option String → Value
  | some s => .text s
  | none => .null

theorem column_of_getElem? {c : Cursor} {i : Nat} {column : Column} (there : c.columns[i]? = some column) :
    c.column i = .ok column := by
  rw [Cursor.column]
  have atNumber : (if (i : Int) < 0 then none else c.columns[(i : Int).toNat]?) = some column := by
    rw [if_neg (by omega), Int.toNat_natCast, there]
  simp only [atNumber]

/-- On a record, the value of a partition column is the one kept for its name. -/
theorem raw_of_partition {c : Cursor} (onRecord : c.state = .positioned) {i : Nat} {column : Column}
    (there : c.columns[i]? = some column) (ofPath : column.isPartition = true) :
    c.raw i = .ok (column, textValue (c.partitionValues.lookup column.name).join) := by
  rw [raw, column_of_getElem? there]
  simp only [onRecord, ofPath, bind, Except.bind, ne_eq, not_true_eq_false, if_false, if_true]
  cases (c.partitionValues.lookup column.name).join <;> rfl

/-- On a record, the value of any other column is that of the record's field. -/
theorem raw_of_data {c : Cursor} (onRecord : c.state = .positioned) {i : Nat} {column : Column}
    (there : c.columns[i]? = some column) (ofData : column.isPartition = false) :
    c.raw i = .ok (column, Value.fieldD c.fields column.name) := by
  rw [raw, column_of_getElem? there]
  simp only [onRecord, ofData, bind, Except.bind, ne_eq, not_true_eq_false, if_false]
  rfl

/-- A cursor is made unmoved, with the values that the path of the object gives if one of its columns
is a partition column. -/
theorem of_eq_new {path : String} {columns : List Column} {partition : Option PartitionDefinition}
    {totalBytes : Option Int} {limit : Int} {c : Cursor}
    (made : Cursor.of path columns partition totalBytes limit = .ok c) :
    ∃ values, c = { path, columns, limit, totalBytes, partitionValues := values } ∧
      ∀ d, partition = some d → (∃ column ∈ columns, column.isPartition = true) →
        d.values path = .ok values := by
  cases partition with
  | none => exact ⟨[], (Except.ok.inj made).symm, fun d same => nomatch same⟩
  | some d =>
    rw [Cursor.of] at made
    by_cases ofPath : columns.any (·.isPartition) = true
    · simp only [ofPath, if_true] at made
      cases valued : d.values path with
      | error f =>
        rw [valued] at made
        cases made
      | ok values =>
        rw [valued] at made
        refine ⟨values, (Except.ok.inj made).symm, fun e same _ => ?_⟩
        cases same
        exact valued
    · simp only [ofPath] at made
      refine ⟨[], (Except.ok.inj made).symm, fun e _ ⟨column, member, partition⟩ => ?_⟩
      exact absurd (List.any_eq_true.mpr ⟨column, member, partition⟩) ofPath

/-- A cursor has the columns it is made with, and if one of them is a partition column, the values
that the path of the object gives. -/
theorem of_eq_ok {path : String} {columns : List Column} {d : PartitionDefinition}
    {totalBytes : Option Int} {limit : Int} {c : Cursor}
    (made : Cursor.of path columns (some d) totalBytes limit = .ok c) :
    c.columns = columns ∧
      ((∃ column ∈ columns, column.isPartition = true) → d.values path = .ok c.partitionValues) := by
  obtain ⟨values, rfl, valued⟩ := of_eq_new made
  exact ⟨rfl, valued d rfl⟩

/-- A cursor without partition columns can always be made. -/
theorem exists_of_data {columns : List Column}
    (data : ∀ column ∈ columns, column.isPartition = false) (path : String)
    (partition : Option PartitionDefinition) (totalBytes : Option Int) (limit : Int) :
    ∃ c, Cursor.of path columns partition totalBytes limit = .ok c := by
  have none : columns.any (·.isPartition) = false := by
    rw [List.any_eq_false]
    intro column member
    simp [data column member]
  cases partition with
  | none => exact ⟨_, rfl⟩
  | some d =>
    rw [Cursor.of]
    simp only [none, Bool.false_eq_true, if_false]
    exact ⟨_, rfl⟩

end SchemaOnRead.Cursor
