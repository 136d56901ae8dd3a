import SchemaOnRead.Catalog.FileType
import SchemaOnRead.Catalog.PartitionDefinition

/-!
# Logical tables

A table is made of the data objects below a root path. Its definition gives the path, the format of
the files, and perhaps a partition definition and a list of columns.
-/

namespace SchemaOnRead

open Text

/-- A table made of the objects below a path. -/
structure LogicalTable where
  name : String
  rootPath : String
  fileType : FileType
  partition : Option PartitionDefinition := none
  columns : Option (List Column) := none
  deriving BEq, ReflBEq, LawfulBEq

namespace LogicalTable

/-- Puts the home directory in place of two tildes at the start of a path. -/
def substituteHome (home : Option String) (path : String) : String :=
  match home with
  | none => path
  | some home =>
    match path.toList with
    | '~' :: '~' :: rest => String.ofList (Path.dropEndSlashes home.toList ++ rest)
    | _ => path

/-- A text that a table's definition must have. -/
def textMember (fields : Value.Fields) (field : String) : Result String :=
  match Value.fieldD fields field with
  | .null => fail (.tableFieldMissing field)
  | .text s => .ok s
  | v => fail (.tableFieldNotText field v)

/-- The partition definition of a table, if it says anything. -/
def partitionMember (fields : Value.Fields) : Result (Option PartitionDefinition) :=
  let raw := match Value.field? fields "partitionDefinition" with
    | some v => v
    | none => Value.fieldD fields "partitioning"
  match raw with
  | .null => .ok none
  | v => (PartitionDefinition.ofValue v).map fun d => if d.isEmpty then none else some d

/-- The columns of a table, if they are declared. -/
def columnsMember (fields : Value.Fields) : Result (Option (List Column)) :=
  match Value.fieldD fields "columnConfig" with
  | .null => .ok none
  | .list items => (items.mapM Column.ofValue).map some
  | v => fail (.columnsNotList v)

/-- A table whose name and root path are not blank; the root path is brought into standard form. -/
def of (name rootPath : String) (fileType : FileType) (partition : Option PartitionDefinition)
    (columns : Option (List Column)) : Result LogicalTable :=
  if isBlankText name then fail (.blankTableName name)
  else if isBlankText rootPath then fail (.blankRootPath rootPath)
  else .ok ⟨name, Path.format rootPath, fileType, partition, columns⟩

/-- The table that an entry of a manifest defines. -/
def ofValue (home : Option String) : Value → Result LogicalTable
  | .object fields => do
    let name ← textMember fields "name"
    let rootPath := substituteHome home (← textMember fields "rootPath")
    let fileType ← FileType.ofName (.text (← textMember fields "dataFileType"))
    let partition ← partitionMember fields
    let columns ← columnsMember fields
    of name rootPath fileType partition columns
  | v => fail (.tableNotObject v)

/-- The entry of a manifest that defines a table. -/
def toValue (t : LogicalTable) : Value :=
  .object ([("name", .text t.name), ("rootPath", .text t.rootPath),
    ("dataFileType", .text t.fileType.name)] ++
    (match t.partition with
      | some d => [("partitionDefinition", d.toValue)]
      | none => []) ++
    (match t.columns with
      | some cs => [("columnConfig", .list (cs.map Column.toValue))]
      | none => []))

/-- All partition columns, those of directories first; of columns with one name, the first. -/
def partitionColumns (t : LogicalTable) : List Column :=
  match t.partition with
  | none => []
  | some d =>
    (d.directoryColumns ++ d.fileColumns).foldl
      (fun cs c => if cs.any (·.name == c.name) then cs else cs ++ [c]) []

/-- A short text for a table. -/
def shown (t : LogicalTable) : String :=
  s!"LogicalTable({t.name}, {t.rootPath}, {t.fileType.name})"

end LogicalTable

end SchemaOnRead
