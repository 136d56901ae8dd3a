import SchemaOnRead.Catalog.Table
import SchemaOnRead.Storage.Store

/-!
# Partition predicates

A predicate tells from the path of an object whether the object may hold rows that satisfy
constraints on partition columns. Its regular expression is looked for in the path, with a final
slash in that of a directory. A path in which it is not found is kept, unless the predicate is
closed; a path in which it is found is kept if every constrained column has its value there.
-/

namespace SchemaOnRead

open Text

/-- A predicate on paths: columns with the values they must have, and the regular expression that
finds the values in a path. -/
structure PathPredicate where
  columns : List Column := []
  values : List Value := []
  regex : Option PathRegex := none
  closed : Bool := false
  deriving BEq

namespace PathPredicate

/-- The predicate that keeps every path. -/
def always : PathPredicate := {}

/-- Whether a predicate constrains nothing. -/
def isTrivial (p : PathPredicate) : Bool := p.columns.isEmpty

/-! ## Test -/

/-- Whether the text of a group is a value; a group that took no part is null. -/
def isValue (group : Option String) (v : Value) : Bool :=
  match group, v with
  | some s, .text t => s == t
  | none, .null => true
  | _, _ => false

/-- Whether constrained columns have their values in a match. -/
def holds (path : String) (r : Regex) (m : Regex.Match) : List (Column × Value) → Result Bool
  | [] => .ok true
  | (c, v) :: rest =>
    let group := c.index.getD 0 + 1
    if group < 1 ∨ (r.groupCount : Int) < group then
      fail (.noSuchGroup group r.source path r.groupCount)
    else if isValue (m.group? group.toNat) v then holds path r m rest
    else .ok false

/-- Whether a path is kept. -/
def test (p : PathPredicate) (path : String) (isDirectory : Bool := false) : Result Bool :=
  if p.columns.isEmpty then .ok true
  else
    let path := if isDirectory then path ++ "/" else path
    match p.regex with
    | none => .ok true
    | some r =>
      match r.regex.search path with
      | none => .ok !p.closed
      | some m => holds path r.regex m (p.columns.zip p.values)

/-- Whether an object is kept. -/
def testObject (p : PathPredicate) (o : StoredObject) : Result Bool := p.test o.path o.isDirectory

/-! ## Making predicates -/

/-- The regular expression of a predicate; blank text stands for none. -/
def compile : Value → Result (Option PathRegex)
  | .null => .ok none
  | .text s =>
    match PathRegex.ofText s with
    | .ok r => .ok r
    | .error .invalid => fail (.other .foreign)
    | .error .countTooLarge => fail (.other .overflow)
  | _ => fail (.other .missingAttribute)

/-- A predicate on columns and their values. -/
def of (columns : List Column) (values : List Value) (regex : Value) (closed : Bool) :
    Result PathPredicate := do
  if columns.length ≠ values.length then fail (.partitionSizes columns.length values.length)
  let hasNone := match regex with
    | .null => true
    | .text s => isBlankText s
    | _ => false
  if !columns.isEmpty && hasNone then fail (.regexRequired (columns.map (·.name)))
  return { columns, values, regex := ← compile regex, closed }

/-- The one text that a constraint requires of a column. -/
def singleText (c : Column) (domain : Value) : Result String := do
  let v ← match domain with
    | .list [v] => .ok v
    | .list _ => fail (.notSingleValue c.name domain)
    | v => .ok v
  match v with
  | .text s => if c.type = .varchar then return s else fail (.notVarchar c.name v)
  | v => fail (.notVarchar c.name v)

/-- The predicate of a level of a path under constraints: it is about the constrained columns of the
level, in their order. -/
def ofConstraints (regex : Option String) (constraints : Value.Fields) (columns : List Column)
    (closed : Bool := false) : Result PathPredicate :=
  match regex with
  | none => .ok always
  | some regex => do
    let found ← (columns.filter fun c => (Value.field? constraints c.name).isSome).mapM fun c => do
      return (c, Value.text (← singleText c (Value.fieldD constraints c.name)))
    if found.isEmpty then return always
    else of (found.map (·.1)) (found.map (·.2)) (.text regex) closed

/-- The predicates of the directories and of the files of a table under constraints. That of the
directories is never closed: the directories above those with values do not have them yet. -/
def ofTable (t : LogicalTable) (constraints : Value.Fields) (closedFiles : Bool := false) :
    Result (PathPredicate × PathPredicate) :=
  match t.partition with
  | none => .ok (always, always)
  | some d =>
    if constraints.isEmpty then .ok (always, always)
    else do
      let directory ← ofConstraints (PartitionDefinition.regexText d.directoryRegex) constraints
        d.directoryColumns
      let file ← ofConstraints (PartitionDefinition.regexText d.fileRegex) constraints
        d.fileColumns closedFiles
      return (directory, file)

/-! ## Predicates as values -/

/-- The value that describes a predicate. -/
def toValue (p : PathPredicate) : Value :=
  .object [("partitionColumns", .list (p.columns.map Column.toValue)),
    ("matchValues", .list p.values),
    ("partitionRegex", match PartitionDefinition.regexText p.regex with
      | some s => .text s
      | none => .null),
    ("failClosed", .bool p.closed)]

/-- The items of a member that is a list; one that is absent has none. A text counts as the list of
its characters and an object as that of its keys. -/
def items (fields : Value.Fields) (key : String) : Result (List Value) :=
  match Value.field? fields key with
  | none => .ok []
  | some (.list vs) => .ok vs
  | some (.text s) => .ok (s.toList.map fun c => .text (String.singleton c))
  | some (.object fs) => .ok (fs.map fun (k, _) => .text k)
  | some _ => fail (.other .wrongType)

/-- Whether a value counts as true: anything but null, false, zero and what is empty. -/
def isTruthy : Value → Bool
  | .null => false
  | .bool b => b
  | .integer n => n ≠ 0
  | .decimal d => !d.same (.ofInt 0)
  | .double (.finite _ m _) => m ≠ 0
  | .double _ => true
  | .text s => !s.isEmpty
  | .list vs => !vs.isEmpty
  | .object fs => !fs.isEmpty

/-- The predicate that a value describes. -/
def ofValue : Value → Result PathPredicate
  | .object fields => do
    let columns ← (← items fields "partitionColumns").mapM Column.partitionOfValue
    let values ← items fields "matchValues"
    of columns values (Value.fieldD fields "partitionRegex")
      (isTruthy (Value.fieldD fields "failClosed"))
  | _ => fail (.other .missingAttribute)

end PathPredicate

end SchemaOnRead
