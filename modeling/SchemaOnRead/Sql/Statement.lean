import SchemaOnRead.Sql.Expr

/-!
# Statements

The outer select of a statement is kept with its parts. Of all else only the tables that are read
matter.
-/

namespace SchemaOnRead.Sql

/-- What a select reads from: a table, or a subquery. -/
inductive Source where
  | table (t : TableName)
  | subquery (reading : Reading)
  deriving Repr

/-- What a source reads. -/
def Source.reading : Source → Reading
  | table t => .table t
  | subquery r => .part [r]

/-- A select with its clauses. -/
structure Select where
  items : List Expr := []
  isDistinct : Bool := false
  source : Option Source := none
  joins : List Reading := []
  filter : Option Expr := none
  grouping : List Expr := []
  having : Option Expr := none
  /-- The expressions to order by, each with whether it is descending. -/
  order : List (Expr × Bool) := []
  limit : Option Expr := none
  offset : Option Expr := none
  /-- What is defined in front of the select. -/
  definitions : List Reading := []
  deriving Repr

/-- What a select reads. -/
def Select.reading (s : Select) : Reading :=
  .part (s.items.map Expr.reading ++ (s.source.map fun r => Reading.part [r.reading]).toList ++
    s.joins ++ (s.filter.map fun e => Reading.part [e.reading]).toList ++
    [.part (s.grouping.map Expr.reading)] ++
    (s.having.map fun e => Reading.part [e.reading]).toList ++
    [.part (s.order.map fun o => .part [o.1.reading])] ++
    (s.limit.map fun e => Reading.part [e.reading]).toList ++
    (s.offset.map fun e => Reading.part [e.reading]).toList ++ [.part s.definitions])

/-- A statement: a select, another query such as a union, or an expression alone. -/
inductive Statement where
  | select (s : Select)
  | query (reading : Reading)
  | expr (e : Expr)
  deriving Repr

namespace Statement

/-- What a statement reads. -/
def reading : Statement → Reading
  | select s => s.reading
  | query r => r
  | expr e => e.reading

/-- Puts definitions in front of a query. -/
def define (definitions : List Reading) : Statement → Statement
  | select s => if definitions.isEmpty then select s else select { s with definitions := definitions }
  | query r => if definitions.isEmpty then query r else query (.part (r.parts ++ [.part definitions]))
  | expr e => expr e

/-- The tables that a statement reads, apart from those that it defines itself. -/
def tables (s : Statement) : List TableName :=
  let defined := s.reading.definedNames
  s.reading.tables.filter fun t => t.schema?.isSome || !defined.contains t.name

/-- The select that a statement is, if it reads from a table alone; what its conditions read does not
count. -/
def selectFrom? (t : TableName) : Statement → Option Select
  | select s =>
    match s.source, s.joins with
    | some (.table u), [] => if u = t then some s else none
    | _, _ => none
  | _ => none

end Statement

end SchemaOnRead.Sql
