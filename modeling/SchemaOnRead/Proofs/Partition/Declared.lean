import SchemaOnRead.Proofs.Columns.Listings
import SchemaOnRead.Proofs.Partition.FileLevel

/-!
# The level of a partition column and the values of a path

A name that both levels have is listed once, for the column of the directories
(`exists_isColumnAt`). The values of a path are filled in the other order: where the expression of the
files is found, it has the last word on its names. So a column has what its own level captures, unless
it is a column of the directories whose name the files capture otherwise (`partitionColumn_value_iff`).
-/

namespace SchemaOnRead

namespace PartitionDefinition

variable {d : PartitionDefinition} {path : String} {vs : Values} {c : Column}

/-! ## Levels -/

/-- The regular expression of a level. -/
def regexAt (d : PartitionDefinition) : PartitionLevel → Option PathRegex
  | .directory => d.directoryRegex
  | .file => d.fileRegex

/-- The names of a level. -/
def namesAt (d : PartitionDefinition) : PartitionLevel → List String
  | .directory => d.directoryNames
  | .file => d.fileNames

/-- The texts in which the expression of a level is looked for, until it is found. -/
def searchedAt (path : String) : PartitionLevel → List String
  | .directory => [path, parent path]
  | .file => [path]

/-- What the expression of a level finds for a path. -/
def matchAt (d : PartitionDefinition) (level : PartitionLevel) (path : String) : Option Regex.Match :=
  (d.regexAt level).bind fun r => (searchedAt path level).findSome? r.regex.search

/-- The text of the group that belongs to an index at a level; none if the expression is not found or
the group takes no part. -/
def captured (d : PartitionDefinition) (level : PartitionLevel) (path : String) (i : Nat) :
    Option String :=
  (d.matchAt level path).bind (·.group? (i + 1))

/-- A column is that of an index at a level, by its name and by its comment. -/
def IsColumnAt (d : PartitionDefinition) (level : PartitionLevel) (i : Nat) (c : Column) : Prop :=
  ∃ r, d.regexAt level = some r ∧ (c.name, i) ∈ (d.namesAt level).zipIdx ∧
    c = column level r.regex.source i c.name

theorem isColumnAt_of_mem (level : PartitionLevel)
    (member : c ∈ columnsOf level (d.regexAt level) (d.namesAt level)) :
    ∃ i, d.IsColumnAt level i c := by
  cases present : d.regexAt level with
  | none =>
    rw [present] at member
    cases member
  | some r =>
    rw [present] at member
    obtain ⟨⟨n, i⟩, named, rfl⟩ := List.mem_map.mp member
    exact ⟨i, r, present, named, rfl⟩

theorem nodup_namesAt (d : PartitionDefinition) (level : PartitionLevel) : (d.namesAt level).Nodup := by
  cases level with
  | directory => exact d.directoryNames_nodup
  | file => exact d.fileNames_nodup

/-- The names of a level are those of its columns, if it has an expression. -/
theorem name_mem_of_zipIdx {level : PartitionLevel} {r : PathRegex}
    (present : d.regexAt level = some r) {n : String} {i : Nat}
    (named : (n, i) ∈ (d.namesAt level).zipIdx) :
    n ∈ (columnsOf level (d.regexAt level) (d.namesAt level)).map (·.name) := by
  rw [present]
  exact List.mem_map.mpr ⟨_, List.mem_map.mpr ⟨(n, i), named, rfl⟩, rfl⟩

/-! ## One level -/

/-- A level gives a name that has no value yet what its group captures. -/
theorem lookup_addLevel_of_new (level : PartitionLevel) {before : Values} {r : PathRegex}
    (present : d.regexAt level = some r)
    (added : addLevel path (d.regexAt level) (d.namesAt level) (searchedAt path level) before = .ok vs)
    {n : String} {i : Nat} (named : (n, i) ∈ (d.namesAt level).zipIdx)
    (new : before.lookup n = none) : vs.lookup n = some (d.captured level path i) := by
  rw [captured, matchAt, present, Option.bind_some]
  rw [present] at added
  cases first : (searchedAt path level).findSome? r.regex.search with
  | none =>
    rw [lookup_addLevel_of_none first added, new, if_pos (List.fst_mem_of_mem_zipIdx named)]
    rfl
  | some m => exact ((lookup_addLevel_of_match (d.nodup_namesAt level) first added).1 n i named).2

/-- A level whose expression is found gives each of its names what its group captures, whatever value
the name had. -/
theorem lookup_addLevel_of_isSome (level : PartitionLevel) {before : Values}
    (added : addLevel path (d.regexAt level) (d.namesAt level) (searchedAt path level) before = .ok vs)
    (found : (d.matchAt level path).isSome = true) {n : String} {i : Nat}
    (named : (n, i) ∈ (d.namesAt level).zipIdx) : vs.lookup n = some (d.captured level path i) := by
  obtain ⟨m, found⟩ := Option.isSome_iff_exists.mp found
  obtain ⟨r, present, first⟩ := Option.bind_eq_some_iff.mp found
  rw [captured, found, Option.bind_some]
  rw [present] at added
  exact ((lookup_addLevel_of_match (d.nodup_namesAt level) first added).1 n i named).2

/-- A level keeps the values there are if its expression is not found. -/
theorem lookup_addLevel_of_isNone (level : PartitionLevel) {before : Values}
    (added : addLevel path (d.regexAt level) (d.namesAt level) (searchedAt path level) before = .ok vs)
    (missing : d.matchAt level path = none) {n : String} {v : Option String}
    (there : before.lookup n = some v) : vs.lookup n = some v := by
  rw [matchAt] at missing
  cases present : d.regexAt level with
  | none =>
    rw [present] at added
    cases added
    exact there
  | some r =>
    rw [present] at added missing
    rw [lookup_addLevel_of_none missing added, there, Option.some_or]

/-- The names that a level gives values to are those of its columns. -/
theorem lookup_addLevel_of_noColumn (level : PartitionLevel) {before : Values}
    (added : addLevel path (d.regexAt level) (d.namesAt level) (searchedAt path level) before = .ok vs)
    {n : String} (other : n ∉ (columnsOf level (d.regexAt level) (d.namesAt level)).map (·.name)) :
    vs.lookup n = before.lookup n := by
  cases present : d.regexAt level with
  | none =>
    rw [present] at added
    cases added
    rfl
  | some r =>
    refine lookup_addLevel_of_other (d.nodup_namesAt level) added fun member => ?_
    obtain ⟨i, named⟩ := PathPredicate.mem_zipIdx_of_mem member
    exact other (name_mem_of_zipIdx present named)

/-! ## Both levels -/

/-- The expression of the files is found in a path, and it has a group for a name. -/
def FileCaptures (d : PartitionDefinition) (path n : String) (j : Nat) : Prop :=
  (n, j) ∈ d.fileNames.zipIdx ∧ (d.matchAt .file path).isSome = true

/-- Where the expression of the files is found, its names have what it captures. -/
theorem lookup_of_fileCaptures (valued : d.values path = .ok vs) {n : String} {j : Nat}
    (captures : d.FileCaptures path n j) : vs.lookup n = some (d.captured .file path j) := by
  obtain ⟨before, -, added⟩ := values_eq_ok.mp valued
  exact lookup_addLevel_of_isSome .file added captures.2 captures.1

/-- A name of the directories has what they capture, unless the files capture it. -/
theorem lookup_of_directory (valued : d.values path = .ok vs) {i : Nat}
    (column : d.IsColumnAt .directory i c) (free : ∀ j, ¬ d.FileCaptures path c.name j) :
    vs.lookup c.name = some (d.captured .directory path i) := by
  obtain ⟨before, directories, files⟩ := values_eq_ok.mp valued
  obtain ⟨r, present, named, -⟩ := column
  have first : before.lookup c.name = some (d.captured .directory path i) :=
    lookup_addLevel_of_new .directory present directories named rfl
  cases found : d.matchAt .file path with
  | none => exact lookup_addLevel_of_isNone .file files found first
  | some m =>
    have other : c.name ∉ d.fileNames := by
      intro member
      obtain ⟨j, named⟩ := PathPredicate.mem_zipIdx_of_mem member
      exact free j ⟨named, by rw [found]; rfl⟩
    rw [lookup_addLevel_of_other d.fileNames_nodup files other, first]

/-- A name of the files alone has what they capture. -/
theorem lookup_of_file (valued : d.values path = .ok vs) {i : Nat} (column : d.IsColumnAt .file i c)
    (alone : c.name ∉ d.directoryColumns.map (·.name)) :
    vs.lookup c.name = some (d.captured .file path i) := by
  obtain ⟨before, directories, files⟩ := values_eq_ok.mp valued
  obtain ⟨r, present, named, -⟩ := column
  have new : before.lookup c.name = none :=
    lookup_addLevel_of_noColumn .directory directories alone
  exact lookup_addLevel_of_new .file present files named new

end PartitionDefinition

namespace LogicalTable

open PartitionDefinition (Values)

variable {t : LogicalTable} {d : PartitionDefinition} {path : String} {vs : Values} {c : Column}

/-- A column of a table is that of an index at a level, and at that of the files only if the directories
have no column of its name. -/
theorem exists_isColumnAt (partitioned : t.partition = some d) (listed : c ∈ t.partitionColumns) :
    ∃ level i, d.IsColumnAt level i c ∧
      (level = .file → c.name ∉ d.directoryColumns.map (·.name)) := by
  rw [partitionColumns, partitioned] at listed
  simp only [List.foldl_append] at listed
  rcases mem_gathered listed with before | ⟨ofFiles, new⟩
  · rcases mem_gathered before with none | ⟨ofDirectories, -⟩
    · cases none
    · obtain ⟨i, column⟩ := PartitionDefinition.isColumnAt_of_mem .directory ofDirectories
      exact ⟨.directory, i, column, by rintro ⟨⟩⟩
  · obtain ⟨i, column⟩ := PartitionDefinition.isColumnAt_of_mem .file ofFiles
    exact ⟨.file, i, column, fun _ taken => new (name_gathered (.inr taken))⟩

/-- The value of a partition column, for every path that has values. The column is that of an index at a
level, the directories coming first. A column of the directories whose name the files capture as well
has what the files capture; so a column has what its own level captures just if it is not one of these,
or both levels capture the same. -/
theorem partitionColumn_value_iff (partitioned : t.partition = some d)
    (valued : d.values path = .ok vs) (listed : c ∈ t.partitionColumns) :
    ∃ level i, d.IsColumnAt level i c ∧
      (level = .file → c.name ∉ d.directoryColumns.map (·.name)) ∧
      (∀ j, level = .directory → d.FileCaptures path c.name j →
        vs.lookup c.name = some (d.captured .file path j)) ∧
      (vs.lookup c.name = some (d.captured level path i) ↔
        ∀ j, level = .directory → d.FileCaptures path c.name j →
          d.captured .file path j = d.captured .directory path i) := by
  obtain ⟨level, i, column, alone⟩ := exists_isColumnAt partitioned listed
  have overwritten := fun j => @PartitionDefinition.lookup_of_fileCaptures d path vs valued c.name j
  refine ⟨level, i, column, alone, fun j _ captures => overwritten j captures, ?_⟩
  cases level with
  | file => exact iff_of_true (PartitionDefinition.lookup_of_file valued column (alone rfl)) (by simp)
  | directory =>
    constructor
    · intro own j _ captures
      exact Option.some.inj ((overwritten j captures).symm.trans own)
    · intro agree
      by_cases taken : ∃ j, d.FileCaptures path c.name j
      · obtain ⟨j, captures⟩ := taken
        rw [overwritten j captures, agree j rfl captures]
      · exact PartitionDefinition.lookup_of_directory valued column (not_exists.mp taken)

/-- A table that takes a name from both levels. -/
def bothLevels : PartitionDefinition :=
  { directoryRegex := (PathRegex.ofText "^/t/([^/]+)/.*$").toOption.join
    directoryNames := ["day"], directoryNames_nodup := by decide
    fileRegex := (PathRegex.ofText "([0-9]+)\\.json$").toOption.join
    fileNames := ["day"], fileNames_nodup := by decide }

def bothLevelsTable : LogicalTable :=
  { name := "t", rootPath := "/t", fileType := .ndjson, partition := some bothLevels }

/-- The only column is that of the directories, but the value is that of the file. -/
theorem partitionColumn_value_ofFile :
    bothLevels.values "/t/monday/12.json" = .ok [("day", some "12")] ∧
      ∃ c ∈ bothLevelsTable.partitionColumns, ∃ i, bothLevels.IsColumnAt .directory i c ∧
        bothLevels.captured .directory "/t/monday/12.json" i = some "monday" ∧
        List.lookup c.name [("day", some "12")] = some (some "12") := by
  have valued : bothLevels.values "/t/monday/12.json" = .ok [("day", some "12")] :=
    ok_of_toOption (by decide +kernel)
  have directories : bothLevels.captured .directory "/t/monday/12.json" 0 = some "monday" := by
    decide +kernel
  have files : bothLevels.captured .file "/t/monday/12.json" 0 = some "12" := by decide +kernel
  have captures : bothLevels.FileCaptures "/t/monday/12.json" "day" 0 := by
    rw [PartitionDefinition.FileCaptures]
    decide +kernel
  have columns : bothLevelsTable.partitionColumns =
      [PartitionDefinition.column .directory "^/t/([^/]+)/.*$" 0 "day"] := by decide +kernel
  have named : "day" ∈ bothLevels.directoryColumns.map (·.name) := by decide +kernel
  refine ⟨valued, _, columns ▸ List.mem_singleton_self _, ?_⟩
  obtain ⟨level, i, column, alone, overwritten, -⟩ :=
    partitionColumn_value_iff (t := bothLevelsTable) rfl valued (columns ▸ List.mem_singleton_self _)
  cases level with
  | file => exact absurd named (alone rfl)
  | directory =>
    obtain ⟨r, -, at0, -⟩ := id column
    cases List.mem_singleton.mp at0
    exact ⟨0, column, directories, (overwritten 0 rfl captures).trans (congrArg some files)⟩

end LogicalTable

end SchemaOnRead
