import SchemaOnRead.Catalog.Table
import SchemaOnRead.Storage.Store

/-!
# Data objects of a table

Of the objects below the root path of a table, those hold its rows whose name or media type is that
of a data file, or whose path the table's file expression is found in. Directories and manifests
hold none.
-/

namespace SchemaOnRead.LogicalTable

/-- Whether the file expression of a table is found in a path. -/
def fileRegexFinds (t : LogicalTable) (path : String) : Bool :=
  match t.partition.bind (·.fileRegex) with
  | some r => (r.regex.search path).isSome
  | none => false

/-- Whether an object holds rows of a table, when manifests have the given name. -/
def hasMember (t : LogicalTable) (manifestName : String) (o : StoredObject) : Bool :=
  !o.isDirectory && o.name != manifestName &&
    ((FileType.ofPath? o.path).isSome || (FileType.ofMediaType? o.contentType).isSome ||
      t.fileRegexFinds o.path)

end SchemaOnRead.LogicalTable
