import SchemaOnRead.Catalog.Member
import SchemaOnRead.Catalog.Settings
import SchemaOnRead.Columns.Inference
import SchemaOnRead.Record.Line
import SchemaOnRead.Storage.Access
import SchemaOnRead.Storage.Walk

/-!
# Sample objects

The columns of a table may be inferred from the first record of its smallest object. No more of the
object is read than a first line may take, unless it is compressed.
-/

namespace SchemaOnRead.Sample

/-- Whether an object is smaller than another; one of unknown size is not. -/
def isSmaller (o p : StoredObject) : Bool :=
  match o.size, p.size with
  | some m, some n => m < n
  | some _, none => true
  | none, _ => false

/-- The smallest of some objects; of equally small ones, the first. -/
def smallest? (os : List StoredObject) : Option StoredObject :=
  os.foldl (fun best o =>
    match best with
    | none => some o
    | some p => if isSmaller o p then some o else some p) none

/-- The smallest object that holds rows of a table. -/
def object (s : Store) (settings : Settings) (schema : String) (t : LogicalTable) :
    Logged StoredObject :=
  let walk := Walk.all s t.rootPath
  ⟨walk.effects.map .listing, do
    let os ← walk.toList
    match smallest? (os.filter (t.hasMember settings.manifestName)) with
    | some o => return o
    | none => fail (.noObjectsFound schema t.name t.rootPath)⟩

/-- The range of bytes to read of an object; none for all of it. -/
def range (settings : Settings) (path : String) : Option (Nat × Int) :=
  if (Compression.ofPath? path).isNone then some (0, settings.lineBytes - 1) else none

/-- The first line of an object that is not blank. -/
def firstLine (s : Store) (settings : Settings) (path : String) : Logged String :=
  let range := range settings path
  .access (.reading path range) do
    let bytes ← s.read path range
    Lines.first path (Contents.ofObject path bytes.toList)

/-- The columns of a table by the first record of its smallest object. -/
def columns (s : Store) (settings : Settings) (schema : String) (t : LogicalTable) :
    Logged (List Column) := do
  let o ← object s settings schema t
  let line ← firstLine s settings o.path
  Logged.of (Inference.columnsOfLine o.path line)

end SchemaOnRead.Sample
