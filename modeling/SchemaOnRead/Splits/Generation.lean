import SchemaOnRead.Catalog.Member
import SchemaOnRead.Catalog.Registry
import SchemaOnRead.Splits.Source
import SchemaOnRead.Splits.Split
import SchemaOnRead.Storage.Walk

/-!
# Generating splits

The splits of a table under constraints are the data objects found by a walk below its root path,
which leaves out directories and files whose paths contradict the constraints. The walk goes on only
as far as splits are asked for.
-/

namespace SchemaOnRead

/-- The splits of a table as they are found; the effects are the listings. -/
abbrev SplitTrace := Trace String Split

namespace Split

/-- The split that an object of a table is. -/
def ofObject (schema : String) (t : LogicalTable) (directory file : PathPredicate)
    (o : StoredObject) : Split :=
  { schemaName := schema, tableName := t.name, path := o.path, fileType := t.fileType,
    size := o.size.map (Int.ofNat ·), directoryPredicate := directory, filePredicate := file }

/-- The split of an object, if the object belongs to the table and the predicate keeps it. -/
def ofObject? (manifestName schema : String) (t : LogicalTable) (directory file : PathPredicate)
    (o : StoredObject) : Result (Option Split) :=
  if t.hasMember manifestName o then do
    if ← file.testObject o then return some (ofObject schema t directory file o)
    else return none
  else .ok none

/-- The splits of a table under a predicate on directories and one on files. -/
def generate (s : Store) (manifestName schema : String) (t : LogicalTable)
    (directory file : PathPredicate) : SplitTrace :=
  (Walk.start s t.rootPath directory.testObject).select
    (ofObject? manifestName schema t directory file)

/-- The splits of a table under constraints. -/
def ofTable (s : Store) (settings : Settings) (schema : String) (t : LogicalTable)
    (constraints : Value.Fields) : Result SplitTrace := do
  let (directory, file) ← PathPredicate.ofTable t constraints settings.closedFiles
  return generate s settings.manifestName schema t directory file

end Split

namespace TableLayout

/-- The splits of a layout, and the registry after the look-up of its table. -/
def splits (s : Store) (now : Rat) (r : Registry) (l : TableLayout) :
    Logged SplitTrace × Registry :=
  let (found, after) := r.table s now l.table.schemaName l.table.tableName
  (found.bind fun t => .of (Split.ofTable s r.settings l.table.schemaName t l.constraints), after)

end TableLayout

end SchemaOnRead
