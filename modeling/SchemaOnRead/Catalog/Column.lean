import SchemaOnRead.Catalog.ColumnType

/-!
# Columns

A column of a table: its name, its type, and how its values are written. A partition column takes
its value from the path of an object; it has an index, and its value is the text of the capture group
after that index.
-/

namespace SchemaOnRead

open Text

/-- A column. It is a partition column if it has an index. -/
structure Column where
  name : String
  type : ColumnType
  comment : Option String := none
  format : Option String := none
  hidden : Bool := false
  index : Option Int := none
  deriving DecidableEq, Repr, Inhabited

namespace Column

def isPartition (c : Column) : Bool := c.index.isSome

/-- The members of a column's definition. -/
def toFields (c : Column) : Value.Fields :=
  [("name", .text c.name), ("type", .text c.type.name)] ++
    (match c.comment with
      | some s => [("comment", .text s)]
      | none => []) ++
    (match c.format with
      | some s => [("format", .text s)]
      | none => []) ++
    (if c.hidden then [("hidden", .bool true)] else []) ++
    (match c.index with
      | some n => [("index", .integer n)]
      | none => [])

/-- The definition of a column. -/
def toValue (c : Column) : Value := .object c.toFields

/-- The text of the first of some members that is there; it must not be blank. -/
def textMember (fields : Value.Fields) : List String → Result (Option String)
  | [] => .ok none
  | key :: rest =>
    match Value.fieldD fields key with
    | .null => textMember fields rest
    | .text s => if isBlankText s then fail (.fieldBlank key s) else .ok (some s)
    | v => fail (.fieldNotText key v)

/-- The text of the first of some members that is there; one of them must be. -/
def requiredMember (fields : Value.Fields) (keys : List String) : Result String := do
  match ← textMember fields keys with
  | some s => return s
  | none => fail (.fieldMissing (keys.headD ""))

/-- The column of a definition. The name may also be called `column` and the comment
`displayName`. -/
def ofValue : Value → Result Column
  | .object fields => do
    let name ← requiredMember fields ["name", "column"]
    let comment ← textMember fields ["comment", "displayName"]
    let (type, implied) ← ColumnType.parse (.text (← requiredMember fields ["type"]))
    let format := (← textMember fields ["format"]).or implied
    match Value.field? fields "hidden" with
    | none => return { name, type, comment, format }
    | some (.bool hidden) => return { name, type, comment, format, hidden }
    | some v => fail (.hiddenNotBoolean v)
  | v => fail (.columnNotObject v)

/-- The partition column of a definition. -/
def partitionOfValue (v : Value) : Result Column := do
  let c ← ofValue v
  let fields := match v with
    | .object fields => fields
    | _ => []
  match Value.fieldD fields "index" with
  | .integer n => return { c with index := some n }
  | raw => fail (.indexNotInteger raw)

/-- A short text for a column. -/
def shown (c : Column) : String :=
  match c.index with
  | some n => s!"PartitionColumn({c.name}, index={n})"
  | none => s!"Column({c.name}, {c.type.name})"

end Column

end SchemaOnRead
