import SchemaOnRead.Record.Batch
import SchemaOnRead.Sql.Evaluation
import SchemaOnRead.Sql.Statement
import SchemaOnRead.Text.Lowercase

/-!
# Answers

The answer to a select from one table: of the rows on which its condition is true, in the order that
is asked for, the columns that it names, or how many they are. Missing values come last in any order,
and rows that are not told apart keep their order. What a select asks for beyond that has no answer.
-/

namespace SchemaOnRead.Sql

/-- A table that a select reads, or an answer: typed columns and rows. -/
structure Relation where
  columns : List (String × ColumnType)
  rows : List Row

namespace Relation

/-- The place of a name among others. A name that is there in other letters only counts as well. -/
def place? (names : List String) (n : String) : Option Nat :=
  match names.idxOf? n with
  | some i => some i
  | none => (names.map Text.lowercase).idxOf? (Text.lowercase n)

/-- The place of a column that is written with the names in front of its own. The table's alias is
the only one that may stand there. -/
def column? (aliasName : String) (r : Relation) (outer : List String) (n : String) : Result Nat :=
  let isOwn := match outer with
    | [] => true
    | [q] => (place? [aliasName] q).isSome
    | _ => false
  match if isOwn then place? (r.columns.map (·.1)) n else none with
  | some i => .ok i
  | none => fail .unanswerable

/-- What the cell of a row at a place is in a condition. -/
def scalar (r : Relation) (row : Row) (i : Nat) : Result (Option Scalar) :=
  match (r.columns[i]?).map (·.2), row.getD i none with
  | _, none => .ok none
  | some type, some c =>
    match Scalar.ofCell? type c with
    | some v => .ok (some v)
    | none => fail .unanswerable
  | none, some _ => fail .unanswerable

/-- What the columns of a row hold. -/
def look (aliasName : String) (r : Relation) (row : Row) : Lookup := fun outer n => do
  scalar r row (← r.column? aliasName outer n)

/-- A row in which everything is missing. -/
def missingRow (r : Relation) : Row := r.columns.map fun _ => none

/-- The rows on which a condition is true. A condition has to make sense even if there are no
rows. -/
def filter (aliasName : String) (r : Relation) (e : Expr) : Result Relation := do
  let _ ← e.isTrue (r.look aliasName r.missingRow)
  let kept ← r.rows.filterM fun row => e.isTrue (r.look aliasName row)
  return { r with rows := kept }

end Relation

/-! ## What is selected -/

/-- What a select shows: some columns under names, or the number of rows under a name. -/
inductive Selection where
  | columns (shown : List (String × Nat))
  | count (name : String)

namespace Selection

/-- The columns that an item of a select shows. -/
def ofItem (aliasName : String) (r : Relation) : Expr → Result (List (String × Nat))
  | .column outer n => do
    let i ← r.column? aliasName outer n
    return [(((r.columns[i]?).map (·.1)).getD n, i)]
  | .star [] => .ok ((r.columns.map (·.1)).zipIdx)
  | .star [q] =>
    if (Relation.place? [aliasName] q).isSome then .ok ((r.columns.map (·.1)).zipIdx)
    else fail .unanswerable
  | .paren e => ofItem aliasName r e
  | .named e n => do
    match ← ofItem aliasName r e with
    | [(_, i)] => return [(n, i)]
    | _ => fail .unanswerable
  | _ => fail .unanswerable

/-- The name under which an item shows the number of rows, if that is what it shows. -/
def countName? : Expr → Option String
  | .call f [.star []] => if Text.lowercase f == "count" then some "count_star()" else none
  | .paren e => countName? e
  | .named e n => (countName? e).map fun _ => n
  | _ => none

/-- What the items of a select show. -/
def ofItems (aliasName : String) (r : Relation) : List Expr → Result Selection
  | [] => fail .unanswerable
  | items =>
    match items with
    | [e] =>
      match countName? e with
      | some n => .ok (.count n)
      | none => (ofItem aliasName r e).map .columns
    | items => (items.mapM (ofItem aliasName r)).map fun shown => .columns shown.flatten

/-- What is shown of a relation. -/
def answer (r : Relation) : Selection → Relation
  | columns shown =>
    { columns := shown.map fun (n, i) => (n, ((r.columns[i]?).map (·.2)).getD .varchar),
      rows := r.rows.map fun row => shown.map fun (_, i) => row.getD i none }
  | count n => { columns := [(n, .bigint)], rows := [[some (.integer r.rows.length)]] }

end Selection

/-! ## Order -/

/-- How two values are ordered, where missing ones come last in either direction. -/
def orderValues (descends : Bool) : Option Scalar → Option Scalar → Ordering
  | none, none => .eq
  | none, some _ => .gt
  | some _, none => .lt
  | some a, some b =>
    let o := (Scalar.order? a b).getD .eq
    if descends then o.swap else o

/-- Keys by which rows are ordered: the place of a column and whether it descends, the most
significant one first. -/
abbrev OrderKeys := List (Nat × Bool)

/-- How two rows are ordered by their values at the keys. -/
def orderRows : OrderKeys → List (Option Scalar) → List (Option Scalar) → Ordering
  | [], _, _ => .eq
  | (_, descends) :: keys, a, b =>
    (orderValues descends (a.headD none) (b.headD none)).then (orderRows keys a.tail b.tail)

/-- The place of the column to order by. A number is the position of a column that is shown, and a
name may be one under which a column is shown. -/
def orderPlace (aliasName : String) (r : Relation) (shown : List (String × Nat)) : Expr → Result Nat
  | .number s =>
    match s.toNat? with
    | some n =>
      match if n = 0 then none else shown[n - 1]? with
      | some (_, i) => .ok i
      | none => fail .unanswerable
    | none => fail .unanswerable
  | .column outer n =>
    match if outer.isEmpty then Relation.place? (shown.map (·.1)) n else none with
    | some k => .ok ((shown.map (·.2)).getD k 0)
    | none => r.column? aliasName outer n
  | .paren e => orderPlace aliasName r shown e
  | _ => fail .unanswerable

/-- Puts the rows of a relation in the order of keys. -/
def Relation.sort (r : Relation) (keys : OrderKeys) : Result Relation := do
  let keyed ← r.rows.mapM fun row => do
    let key ← keys.mapM fun (i, _) => r.scalar row i
    return (key, row)
  let sorted := keyed.mergeSort fun a b => orderRows keys a.1 b.1 != .gt
  return { r with rows := sorted.map (·.2) }

/-! ## Selects -/

/-- The number of rows that a limit or an offset names; none for no bound. -/
def bound? : Option Expr → Result (Option Nat)
  | none => .ok none
  | some .null => .ok none
  | some (.number s) =>
    match s.toNat? with
    | some n => .ok (some n)
    | none => fail .unanswerable
  | some _ => fail .unanswerable

namespace Select

/-- Whether a select asks for no more than can be answered. -/
def isPlain (s : Select) : Bool :=
  !s.isDistinct && s.joins.isEmpty && s.grouping.isEmpty && s.having.isNone && s.definitions.isEmpty

/-- The keys to order by when some columns are shown. A number of rows is one row, and any order of
what is shown of it is fine. -/
def orderKeys (s : Select) (aliasName : String) (r : Relation) : Selection → Result OrderKeys
  | .columns shown => s.order.mapM fun (e, descends) => do
    return (← orderPlace aliasName r shown e, descends)
  | .count _ => if s.order.isEmpty then .ok [] else fail .unanswerable

/-- The part of an answer that a limit and an offset leave. -/
def part (s : Select) (r : Relation) : Result Relation := do
  let offset ← bound? s.offset
  let limit ← bound? s.limit
  let rest := r.rows.drop (offset.getD 0)
  return { r with rows := match limit with
    | some n => rest.take n
    | none => rest }

/-- The answer to a select from a table that is known under an alias. -/
def answer (s : Select) (aliasName : String) (r : Relation) : Result Relation :=
  if !s.isPlain then fail .unanswerable
  else do
    let selection ← Selection.ofItems aliasName r s.items
    let keys ← s.orderKeys aliasName r selection
    let kept ← match s.filter with
      | some e => r.filter aliasName e
      | none => .ok r
    let sorted ← kept.sort keys
    s.part (selection.answer sorted)

end Select

end SchemaOnRead.Sql
