import SchemaOnRead.Proofs.Catalog.RoundTrip
import SchemaOnRead.Proofs.Splits.Manifests

/-!
# Splits that are written and read again

A split is described by a value together with the predicates that chose it. What a table under constraints
yields are splits whose predicates have a value for each column, an expression if they have columns, and
columns that come from names of partitions (`IsMade`, `OfPartition`). Such a split is read again from its value
just if no constrained column has a blank name (`Split.ofValue_toValue_iff`), so every split of a table with
no blank name is (`TableLayout.splits_read_again`).
-/

namespace SchemaOnRead

open Text Value

theorem isBlankText_append (s t : String) : isBlankText (s ++ t) = (isBlankText s && isBlankText t) := by
  simp [isBlankText]

/-! ## Partition columns -/

namespace Column

/-- A column that a partition definition declares. -/
def OfPartition (c : Column) : Prop :=
  ∃ level source index name, c = PartitionDefinition.column level source index name

theorem ofPartition_of_mem {level : PartitionLevel} {r : Option PathRegex} {names : List String} {c : Column}
    (member : c ∈ PartitionDefinition.columnsOf level r names) : c.OfPartition ∧ c.name ∈ names := by
  cases r with
  | none => cases member
  | some r =>
    obtain ⟨⟨n, i⟩, there, rfl⟩ := List.mem_map.mp member
    exact ⟨⟨level, r.regex.source, i, n, rfl⟩, List.fst_mem_of_mem_zipIdx there⟩

theorem isStandard_data {c : Column} (declared : c.OfPartition) (named : NotBlank c.name) :
    IsStandard c.data := by
  obtain ⟨level, source, index, name, rfl⟩ := declared
  refine ⟨named, fun remark said => ?_, fun format said => (by cases said), rfl⟩
  obtain rfl := Option.some.inj said
  have word : isBlankText (toString level.word) = false := by cases level <;> decide
  simp [NotBlank, isBlankText_append, word]

/-- A partition column is what is read from its definition. -/
theorem partitionOfValue_toValue {c : Column} (declared : c.OfPartition) (named : NotBlank c.name) :
    partitionOfValue c.toValue = .ok c := by
  have readData := ofValue_data (isStandard_data declared named)
  obtain ⟨level, source, index, name, rfl⟩ := declared
  rw [toValue] at readData ⊢
  rw [partitionOfValue, readData]
  rfl

/-- No column is read from the definition of a column with a blank name. -/
theorem notBlank_of_partitionOfValue {c d : Column} (read : partitionOfValue c.toValue = .ok d) :
    NotBlank c.name := by
  obtain ⟨e, readData, -⟩ := ok_of_bind read
  rw [toValue, ofValue] at readData
  obtain ⟨name, readName, -⟩ := ok_of_bind readData
  obtain ⟨first, solid⟩ := requiredMember_eq_ok_iff.mp readName
  have same : Value.text c.name = .text name := first
  exact Value.text.inj same ▸ solid

end Column

/-! ## Predicates -/

namespace PathPredicate

/-- A predicate that could be made: it has a value for each column, and an expression if it has columns. -/
structure IsMade (p : PathPredicate) : Prop where
  values : p.columns.length = p.values.length
  regex : p.regex = none → p.columns = []

variable {p : PathPredicate} {columns : List Column} {constraints : Fields}

theorem isMade_always : always.IsMade := ⟨rfl, fun _ => rfl⟩

/-- The predicate of a level is made for columns of the level. -/
theorem isMade_of_ofConstraints {r : Option PathRegex} {closed : Bool}
    (made : ofConstraints (PartitionDefinition.regexText r) constraints columns closed = .ok p) :
    p.IsMade ∧ ∀ c ∈ p.columns, c ∈ columns := by
  cases r with
  | none =>
    cases made
    exact ⟨isMade_always, List.forall_mem_nil _⟩
  | some r =>
    rw [PartitionDefinition.regexText, Option.map_some, ofConstraints] at made
    obtain ⟨found, reads, made⟩ := ok_of_bind made
    have among : ∀ c ∈ found.map (·.1), c ∈ columns := by
      intro c member
      obtain ⟨pair, there, rfl⟩ := List.mem_map.mp member
      obtain ⟨own, inside, read⟩ := (exists_of_mem_mapM reads).1 pair there
      obtain ⟨text, -, same⟩ := ok_of_bind read
      cases same
      exact (List.mem_filter.mp inside).1
    split at made
    · cases made
      exact ⟨isMade_always, List.forall_mem_nil _⟩
    · rw [of_source (by simp) r closed] at made
      cases made
      exact ⟨⟨by simp, fun absent => by cases absent⟩, among⟩

/-- The predicates of a table constrain columns of its partitions. -/
theorem isMade_of_ofTable {t : LogicalTable} {closed : Bool} {directory file : PathPredicate}
    (made : ofTable t constraints closed = .ok (directory, file)) :
    directory.IsMade ∧ file.IsMade ∧
      ∀ c ∈ directory.columns ++ file.columns, c.OfPartition ∧
        ∃ d, t.partition = some d ∧ c.name ∈ d.directoryNames ++ d.fileNames := by
  rw [ofTable] at made
  split at made
  · cases made
    exact ⟨isMade_always, isMade_always, List.forall_mem_nil _⟩
  · rename_i d partitioned
    split at made
    · cases made
      exact ⟨isMade_always, isMade_always, List.forall_mem_nil _⟩
    · obtain ⟨own, first, made⟩ := ok_of_bind made
      obtain ⟨other, second, made⟩ := ok_of_bind made
      cases made
      obtain ⟨directoryMade, directoryColumns⟩ := isMade_of_ofConstraints first
      obtain ⟨fileMade, fileColumns⟩ := isMade_of_ofConstraints second
      refine ⟨directoryMade, fileMade, fun c member => ?_⟩
      rcases List.mem_append.mp member with inside | inside
      · obtain ⟨declared, named⟩ := Column.ofPartition_of_mem (directoryColumns c inside)
        exact ⟨declared, d, partitioned, List.mem_append_left _ named⟩
      · obtain ⟨declared, named⟩ := Column.ofPartition_of_mem (fileColumns c inside)
        exact ⟨declared, d, partitioned, List.mem_append_right _ named⟩

/-- A predicate is made of its own parts. -/
theorem of_parts (made : p.IsMade) :
    of p.columns p.values (match PartitionDefinition.regexText p.regex with
      | some s => .text s
      | none => .null) p.closed = .ok p := by
  obtain ⟨columns, values, regex, closed⟩ := p
  obtain ⟨count, needed⟩ := made
  cases regex with
  | none =>
    obtain rfl := needed rfl
    obtain rfl := List.eq_nil_of_length_eq_zero count.symm
    rfl
  | some r => exact of_source count r closed

/-- A predicate whose columns are columns of partitions is read again from the value that describes it, with
the expression that its text compiles to, just if no name of a column is blank. -/
theorem ofValue_toValue_iff (made : p.IsMade) (declared : ∀ c ∈ p.columns, c.OfPartition) :
    ofValue p.toValue = .ok p ↔ ∀ c ∈ p.columns, NotBlank c.name := by
  have steps : ofValue p.toValue = ((p.columns.map Column.toValue).mapM Column.partitionOfValue).bind
      fun columns => of columns p.values (match PartitionDefinition.regexText p.regex with
        | some s => .text s
        | none => .null) p.closed := rfl
  rw [steps]
  constructor
  · intro read c member
    obtain ⟨columns, reads, -⟩ := ok_of_bind read
    obtain ⟨d, -, own⟩ := (exists_of_mem_mapM reads).2 _ (List.mem_map_of_mem member)
    exact Column.notBlank_of_partitionOfValue own
  · intro named
    rw [mapM_of_forall fun c member => Column.partitionOfValue_toValue (declared c member) (named c member)]
    exact of_parts made

end PathPredicate

/-! ## Splits -/

namespace Split

variable {x : Split}

/-- What is read from the value of a split is the split with the predicates that are read. -/
theorem ofValue_toValue (x : Split) : ofValue x.toValue =
    (PathPredicate.ofValue x.directoryPredicate.toValue).bind fun directory =>
      (PathPredicate.ofValue x.filePredicate.toValue).bind fun file =>
        .ok { x with directoryPredicate := directory, filePredicate := file } := by
  obtain ⟨schemaName, tableName, path, fileType, size, directory, file⟩ := x
  cases fileType <;> cases size <;> rfl

/-- A split is read again from its value just if no column of its predicates has a blank name. -/
theorem ofValue_toValue_iff (directory : x.directoryPredicate.IsMade) (file : x.filePredicate.IsMade)
    (declared : ∀ c ∈ x.directoryPredicate.columns ++ x.filePredicate.columns, c.OfPartition) :
    ofValue x.toValue = .ok x ↔
      ∀ c ∈ x.directoryPredicate.columns ++ x.filePredicate.columns, NotBlank c.name := by
  rw [List.forall_mem_append] at declared ⊢
  rw [← PathPredicate.ofValue_toValue_iff directory declared.1,
    ← PathPredicate.ofValue_toValue_iff file declared.2, ofValue_toValue]
  constructor
  · intro read
    obtain ⟨d, first, read⟩ := ok_of_bind read
    obtain ⟨f, second, read⟩ := ok_of_bind read
    have whole := Except.ok.inj read
    rw [first, second, ← congrArg directoryPredicate whole, ← congrArg filePredicate whole]
    exact ⟨rfl, rfl⟩
  · rintro ⟨first, second⟩
    rw [first, second]
    rfl

end Split

namespace TableLayout

variable {s : Store} {now : Rat} {r : Registry} {l : TableLayout} {t : LogicalTable} {trace : SplitTrace}

/-- Every split of a table whose partitions have no blank names is read again from its value, whatever the
constraints. What is read is the split with both of its predicates: their columns, their values and their
expressions, so they keep the same paths and fail on the same paths. -/
theorem splits_read_again (declared : (r.table s now l.table.schemaName l.table.tableName).1.result = .ok t)
    (named : ∀ d, t.partition = some d → ∀ n ∈ d.directoryNames ++ d.fileNames, NotBlank n)
    (served : (l.splits s now r).1.result = .ok trace) :
    ∀ x ∈ trace.items, Split.ofValue x.toValue = .ok x := by
  intro x member
  obtain ⟨t', directory, file, declared', made, rfl⟩ := exists_of_splits served
  obtain rfl := Except.ok.inj (declared.symm.trans declared')
  obtain ⟨o, -, rfl⟩ := Split.exists_of_mem_generate member
  obtain ⟨directory, file, columns⟩ := PathPredicate.isMade_of_ofTable made
  refine (Split.ofValue_toValue_iff directory file fun c inside => (columns c inside).1).mpr ?_
  intro c inside
  obtain ⟨d, partitioned, own⟩ := (columns c inside).2
  exact named d partitioned c.name own

/-- The one split of the constrained folder keeps its column when it is read again. -/
theorem splits_read_again_folder :
    ∃ trace, ((of ⟨"s", "t"⟩ [("folder", .text "a")]).splits folders 0 folderRegistry).1.result = .ok trace ∧
      trace.items.map (fun x => (x.path, x.directoryPredicate.columns.map (·.name))) =
        [("/t/a/x.json", ["folder"])] ∧
      ∀ x ∈ trace.items, Split.ofValue x.toValue = .ok x := by
  have made := PathPredicate.ofTable_texts (t := byFolder) rfl [("folder", "a")] false
  have served := splits_eq (l := of ⟨"s", "t"⟩ [("folder", .text "a")]) table_folderRegistry made
  refine ⟨_, served, by decide +kernel, splits_read_again table_folderRegistry ?_ served⟩
  rintro d partitioned n member
  cases partitioned
  obtain rfl := List.mem_singleton.mp member
  decide

end TableLayout

end SchemaOnRead
