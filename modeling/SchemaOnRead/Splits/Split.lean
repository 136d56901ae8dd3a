import SchemaOnRead.Partition.Predicate

/-!
# Handles and splits

A table handle names a table. A layout adds the constraints under which the table is read, and a
split is one data object of it, with the predicates that chose it.
-/

namespace SchemaOnRead

/-- The name of a table in a schema. -/
structure TableHandle where
  schemaName : String
  tableName : String
  deriving DecidableEq, Repr

/-- The text of a table handle. -/
def TableHandle.shown (h : TableHandle) : String := s!"{h.schemaName}.{h.tableName}"

/-- A table with the constraints under which it is read, in the order of the columns' names. -/
structure TableLayout where
  table : TableHandle
  constraints : Value.Fields

namespace TableLayout

/-- Puts a constraint in its place among others in the order of their names. -/
def insert (c : String × Value) : Value.Fields → Value.Fields
  | [] => [c]
  | d :: rest => if c.1 < d.1 then c :: d :: rest else d :: insert c rest

/-- The layout of a table under constraints. -/
def of (table : TableHandle) (constraints : Value.Fields) : TableLayout :=
  ⟨table, constraints.foldr insert []⟩

end TableLayout

/-- A data object to read. -/
structure Split where
  schemaName : String
  tableName : String
  path : String
  fileType : FileType
  size : Option Int := none
  directoryPredicate : PathPredicate := .always
  filePredicate : PathPredicate := .always
  deriving BEq

namespace Split

/-- Whether two splits are the same object of the same table. The predicates do not count. -/
def same (a b : Split) : Bool :=
  a.schemaName == b.schemaName && a.tableName == b.tableName && a.path == b.path &&
    a.fileType == b.fileType && a.size == b.size

/-- The value that describes a split. -/
def toValue (s : Split) : Value :=
  .object [("schemaName", .text s.schemaName), ("tableName", .text s.tableName),
    ("objectPath", .text s.path), ("dataFileType", .text s.fileType.name),
    ("contentLength", match s.size with
      | some n => .integer n
      | none => .null),
    ("directoryPredicate", s.directoryPredicate.toValue),
    ("filePredicate", s.filePredicate.toValue)]

/-- A member that must be there. -/
def required (fields : Value.Fields) (key : String) : Result Value :=
  match Value.field? fields key with
  | some v => .ok v
  | none => fail (.other .missingKey)

/-- A text that must be there. -/
def requiredText (fields : Value.Fields) (key : String) : Result String := do
  match ← required fields key with
  | .text s => return s
  | _ => fail (.other .wrongType)

/-- The predicate in a member; one that is absent keeps everything. -/
def predicateMember (fields : Value.Fields) (key : String) : Result PathPredicate :=
  PathPredicate.ofValue ((Value.field? fields key).getD (.object []))

/-- The split that a value describes. -/
def ofValue : Value → Result Split
  | .object fields => do
    let schemaName ← requiredText fields "schemaName"
    let tableName ← requiredText fields "tableName"
    let path ← requiredText fields "objectPath"
    let fileType ← FileType.ofName (← required fields "dataFileType")
    let size ← match Value.fieldD fields "contentLength" with
      | .null => .ok none
      | .integer n => .ok (some n)
      | _ => fail (.other .wrongType)
    let directoryPredicate ← predicateMember fields "directoryPredicate"
    let filePredicate ← predicateMember fields "filePredicate"
    return { schemaName, tableName, path, fileType, size, directoryPredicate, filePredicate }
  | _ => fail (.other .wrongType)

/-- A short text for a split. -/
def shown (s : Split) : String := s!"Split({s.schemaName}.{s.tableName}, {s.path})"

end Split

/-! ## Checking handles -/

/-- The kinds of handles. -/
inductive HandleKind where
  | table
  | layout
  | split
  deriving DecidableEq, Repr

namespace HandleKind

def all : List HandleKind := [table, layout, split]

/-- The name of a kind of handle. -/
def name : HandleKind → String
  | table => "TableHandle"
  | layout => "TableLayoutHandle"
  | split => "Split"

/-- The kind with a name. -/
def ofName (name : String) : Result HandleKind :=
  match all.find? (·.name == name) with
  | some k => .ok k
  | none => fail (.notHandleType name)

/-- Checks that something whose type has a name is a handle of a kind. -/
def check (expected : HandleKind) (actual : String) : Result Unit :=
  if expected.name = actual then .ok () else fail (.unexpectedHandle expected.name actual)

end HandleKind

end SchemaOnRead
