import SchemaOnRead.Columns.Router

/-!
# Where listed columns come from

A listing of a table has the columns of its data, and after them those partition columns whose names
no column of the data has (`columns_faithful`). A name of a partition column is therefore listed for a
partition column unless a column of the data has it (`isPartition_listed_iff`).
-/

namespace SchemaOnRead

/-! ## Partition columns of a table -/

namespace LogicalTable

/-- Columns gathered under different names are those gathered before, or new ones that are given under
other names. -/
theorem mem_gathered {cs found : List Column} {c : Column}
    (member : c ∈ cs.foldl (fun cs c => if cs.any (·.name == c.name) then cs else cs ++ [c]) found) :
    c ∈ found ∨ c ∈ cs ∧ c.name ∉ found.map (·.name) := by
  induction cs generalizing found with
  | nil => exact .inl member
  | cons d rest ih =>
    rw [List.foldl_cons] at member
    by_cases there : found.any (·.name == d.name) = true
    · rw [if_pos there] at member
      exact (ih member).imp_right (And.imp_left (List.mem_cons_of_mem _))
    · rw [if_neg there] at member
      rcases ih member with before | ⟨after, new⟩
      · rcases List.mem_append.mp before with earlier | here
        · exact .inl earlier
        · cases List.mem_singleton.mp here
          exact .inr ⟨List.mem_cons_self .., by simpa using there⟩
      · rw [List.map_append, List.mem_append, not_or] at new
        exact .inr ⟨List.mem_cons_of_mem _ after, new.1⟩

/-- Every name that is given, or was there before, is gathered. -/
theorem name_gathered {cs found : List Column} {n : String}
    (given : n ∈ found.map (·.name) ∨ n ∈ cs.map (·.name)) :
    n ∈ (cs.foldl (fun cs c => if cs.any (·.name == c.name) then cs else cs ++ [c]) found).map
      (·.name) := by
  induction cs generalizing found with
  | nil => exact given.resolve_right List.not_mem_nil
  | cons d rest ih =>
    rw [List.foldl_cons]
    refine ih ?_
    by_cases there : found.any (·.name == d.name) = true
    · rw [if_pos there]
      rcases given with before | here
      · exact .inl before
      · rcases List.mem_cons.mp here with rfl | later
        · obtain ⟨c, member, same⟩ := List.any_eq_true.mp there
          exact .inl (List.mem_map.mpr ⟨c, member, eq_of_beq same⟩)
        · exact .inr later
    · rw [if_neg there, List.map_append, List.mem_append]
      rcases given with before | here
      · exact .inl (.inl before)
      · rcases List.mem_cons.mp here with rfl | later
        · exact .inl (.inr (List.mem_singleton_self _))
        · exact .inr later

theorem isPartition_of_mem_columnsOf {level : PartitionLevel} {r : Option PathRegex}
    {names : List String} {c : Column} (member : c ∈ PartitionDefinition.columnsOf level r names) :
    c.isPartition = true := by
  cases r with
  | none => cases member
  | some r =>
    obtain ⟨p, -, rfl⟩ := List.mem_map.mp member
    rfl

/-- The partition columns of a table take their values from paths. -/
theorem isPartition_of_mem_partitionColumns {t : LogicalTable} {c : Column}
    (member : c ∈ t.partitionColumns) : c.isPartition = true := by
  rw [partitionColumns] at member
  cases partitioned : t.partition with
  | none =>
    rw [partitioned] at member
    cases member
  | some d =>
    rw [partitioned] at member
    rcases mem_gathered member with none | ⟨there, -⟩
    · cases none
    · rcases List.mem_append.mp there with directory | file
      · exact isPartition_of_mem_columnsOf directory
      · exact isPartition_of_mem_columnsOf file

end LogicalTable

/-! ## Columns of the data -/

/-- Columns that are found for the data of a table in some state of a store. -/
def DataColumns (schema : String) (t : LogicalTable) (cs : List Column) : Prop :=
  ∃ s settings source, ColumnSource.ofTable t = .ok source ∧
    (source.columns s settings schema t).result = .ok cs

theorem isPartition_of_mem_inferred {fields : Value.Fields} {c : Column}
    (member : c ∈ Inference.columnsOf fields) : c.isPartition = false := by
  obtain ⟨⟨name, v⟩, -, rfl⟩ := List.mem_map.mp member
  cases v with
  | text s =>
    simp only [Inference.column]
    split <;> rfl
  | _ => rfl

theorem isPartition_of_sampled {s : Store} {settings : Settings} {schema : String}
    {t : LogicalTable} {cs : List Column} (sampled : (Sample.columns s settings schema t).result = .ok cs)
    {c : Column} (member : c ∈ cs) : c.isPartition = false := by
  obtain ⟨o, -, more⟩ := Logged.bind_eq_ok.mp sampled
  obtain ⟨line, -, inferred⟩ := Logged.bind_eq_ok.mp more
  replace inferred : Inference.columnsOfLine o.path line = .ok cs := inferred
  rw [Inference.columnsOfLine] at inferred
  split at inferred
  · cases inferred
    exact isPartition_of_mem_inferred member
  · cases inferred
  · cases inferred
  · cases inferred

/-- Columns of the data take no values from paths, unless the table's definition declares some that
do. -/
theorem DataColumns.isPartition {schema : String} {t : LogicalTable} {cs : List Column}
    (found : DataColumns schema t cs)
    (declared : ∀ ds, t.columns = some ds → ∀ c ∈ ds, c.isPartition = false) {c : Column}
    (member : c ∈ cs) : c.isPartition = false := by
  obtain ⟨s, settings, source, -, listed⟩ := found
  cases source with
  | declared =>
    replace listed : ColumnSource.declaredColumns schema t = .ok cs := listed
    rw [ColumnSource.declaredColumns] at listed
    cases defined : t.columns with
    | none =>
      rw [defined] at listed
      cases listed
    | some ds =>
      rw [defined] at listed
      cases listed
      exact declared cs defined c member
  | sample => exact isPartition_of_sampled listed member
  | metrics =>
    cases listed
    revert c
    decide

/-! ## Listings -/

/-- The columns of a table are those of its data with the partition columns. -/
theorem LogicalTable.allColumns_eq_ok {t : LogicalTable} {s : Store} {settings : Settings}
    {schema : String} {cs : List Column} (listed : (t.allColumns s settings schema).result = .ok cs) :
    ∃ data, DataColumns schema t data ∧ cs = withPartitionColumns t data := by
  obtain ⟨source, chosen, more⟩ := Logged.bind_eq_ok.mp listed
  obtain ⟨data, found, same⟩ := Logged.bind_eq_ok.mp more
  cases same
  exact ⟨data, ⟨s, settings, source, chosen, found⟩, rfl⟩

theorem mem_withPartitionColumns {t : LogicalTable} {data : List Column} {c : Column} :
    c ∈ withPartitionColumns t data ↔
      c ∈ data ∨ c ∈ t.partitionColumns ∧ c.name ∉ data.map (·.name) := by
  rw [withPartitionColumns, List.mem_append, List.mem_filter]
  simp

/-- A name of a partition column is listed. -/
theorem exists_listed {t : LogicalTable} (data : List Column) {n : String}
    (named : n ∈ t.partitionColumns.map (·.name)) :
    ∃ c ∈ withPartitionColumns t data, c.name = n := by
  by_cases taken : n ∈ data.map (·.name)
  · obtain ⟨c, member, same⟩ := List.mem_map.mp taken
    exact ⟨c, mem_withPartitionColumns.mpr (.inl member), same⟩
  · obtain ⟨c, member, rfl⟩ := List.mem_map.mp named
    exact ⟨c, mem_withPartitionColumns.mpr (.inr ⟨member, taken⟩), rfl⟩

/-- All columns listed under a name take their values from paths exactly if those of the data do that
have the name. -/
theorem isPartition_listed_iff {t : LogicalTable} {data : List Column} {n : String} :
    (∀ c ∈ withPartitionColumns t data, c.name = n → c.isPartition = true) ↔
      ∀ c ∈ data, c.name = n → c.isPartition = true := by
  constructor
  · exact fun all c member => all c (mem_withPartitionColumns.mpr (.inl member))
  · intro all c member same
    rcases mem_withPartitionColumns.mp member with ofData | ⟨ofPaths, -⟩
    · exact all c ofData same
    · exact LogicalTable.isPartition_of_mem_partitionColumns ofPaths

/-! ## Listings that are kept -/

namespace ColumnListings

/-- What is kept for a table is a listing of the table. -/
def Faithful (kept : ColumnListings) : Prop :=
  ∀ schema t cs, ((schema, t), cs) ∈ kept.entries →
    ∃ data, DataColumns schema t data ∧ cs = withPartitionColumns t data

theorem faithful_empty (capacity : Int) : Faithful { capacity } := fun _ _ _ member => nomatch member

/-- A use keeps no other listings than there were. -/
theorem faithful_use {kept after : ColumnListings} (faithful : kept.Faithful)
    {key : String × LogicalTable} {cs : List Column} (used : kept.use? key = some (cs, after)) :
    (key, cs) ∈ kept.entries ∧ after.Faithful := by
  obtain ⟨there, before⟩ := Recent.mem_of_use? used
  refine ⟨there, fun schema t cs member => ?_⟩
  exact faithful schema t cs (before _ member)

theorem faithful_insert {kept : ColumnListings} (faithful : kept.Faithful) {schema : String}
    {t : LogicalTable} {data : List Column} (found : DataColumns schema t data) :
    Faithful (kept.insert (schema, t) (withPartitionColumns t data)) := by
  intro schema' t' cs member
  rcases Recent.mem_of_mem_insert member with before | new
  · exact faithful schema' t' cs before
  · cases new
    exact ⟨data, found, rfl⟩

/-- A listing has the columns of the table's data and the partition columns, also if it was kept, and
what is kept afterwards are listings again. -/
theorem columns_faithful {kept : ColumnListings} (faithful : kept.Faithful) (s : Store)
    (settings : Settings) (schema : String) (t : LogicalTable) :
    (kept.columns s settings schema t).2.Faithful ∧
      ∀ cs, (kept.columns s settings schema t).1.result = .ok cs →
        ∃ data, DataColumns schema t data ∧ cs = withPartitionColumns t data := by
  rw [columns]
  cases used : kept.use? (schema, t) with
  | some p =>
    obtain ⟨there, still⟩ := faithful_use faithful used
    refine ⟨still, fun cs same => ?_⟩
    cases same
    exact faithful schema t p.1 there
  | none =>
    cases listed : (t.allColumns s settings schema).result with
    | error f =>
      simp only [listed]
      exact ⟨faithful, fun cs same => nomatch same⟩
    | ok cs =>
      obtain ⟨data, found, rfl⟩ := LogicalTable.allColumns_eq_ok listed
      simp only [listed]
      refine ⟨faithful_insert faithful found, fun cs same => ?_⟩
      cases same
      exact ⟨data, found, rfl⟩

end ColumnListings

end SchemaOnRead
