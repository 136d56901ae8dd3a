import SchemaOnRead.Engine.Session
import SchemaOnRead.Sql.Answer
import SchemaOnRead.Sql.Constraints

/-!
# Queries

A query reads the tables that it references and is answered from their rows. If it references one
table only, the constraints that its condition puts on the partition columns of the table decide
which objects are read at all.
-/

namespace SchemaOnRead

namespace Session

open Sql

/-- A table that a statement references, and where it is defined. -/
abbrev Reference := TableName × TableHandle

/-- The handle of a table that a statement references. Without a schema it is one of the only
schema. -/
def resolve (s : Store) (t : TableName) : Session Reference := do
  match t.schema? with
  | some schema => return (t, ← handle s schema t.name)
  | none =>
    match ← schemas with
    | [schema] => return (t, ← handle s schema t.name)
    | _ => throw (Failure.mk (.unqualifiedTable t.name) [])

/-- The tables that a statement references; there has to be one. The text is that of the
statement. -/
def references (s : Store) (text : String) (statement : Statement) : Session (List Reference) := do
  let found ← statement.tables.mapM (resolve s)
  if found.isEmpty then throw (Failure.mk (.noTableReferenced text) [])
  return found

/-- The constraints that a statement puts on the partition columns of a table. Only the condition of a
select from the table alone tells of them. -/
def pushed (s : Store) (statement : Statement) (r : Reference) : Session Constraints := do
  match statement.selectFrom? r.1 with
  | some q =>
    let t ← table s r.2
    return Constraints.ofSelect (t.partitionColumns.map (·.name)) r.1 q
  | none => return []

/-- A scan that a query needs: the table, and its constraints if there is no other table. -/
structure PlannedScan where
  table : TableHandle
  constraints : Option Constraints

/-- Reads a table for a query. -/
def scanPlanned (s : Store) (p : PlannedScan) : Session Scan :=
  scan s p.table ((p.constraints.getD []).toFields) none

/-- The scans that the references of a statement need. -/
def plan (s : Store) (statement : Statement) (found : List Reference) :
    Session (List PlannedScan) := do
  match found with
  | [r] => return [⟨r.2, some (← pushed s statement r)⟩]
  | _ => return found.map fun r => ⟨r.2, none⟩

/-- The answer to a statement that reads one table, from what is read of the table. -/
def answerFrom (statement : Statement) : List Reference → List Scan → Result Relation
  | [r], [scanned] =>
    match statement.selectFrom? r.1 with
    | some q =>
      q.answer r.1.aliasName ⟨scanned.columns.map fun c => (c.name, c.type), scanned.rows⟩
    | none => fail .unanswerable
  | _, _ => fail .unanswerable

/-- The answer to a query, and the scans it needed. -/
def query (s : Store) (text : String) : Session (List PlannedScan × Relation) := do
  ensureOpen
  let statement ← of (Constraints.statement text)
  let found ← references s text statement
  let scans ← plan s statement found
  let read ← scans.mapM (scanPlanned s)
  let answer ← of (answerFrom statement found read)
  return (scans, answer)

/-- The columns of the answer to a query, found without reading a row. -/
def querySchema (s : Store) (text : String) : Session (List (String × ColumnType)) := do
  ensureOpen
  let statement ← of (Constraints.statement text)
  let found ← references s text statement
  let listed ← found.mapM fun r => return ⟨← columns s r.2, []⟩
  let answer ← of (answerFrom statement found listed)
  return answer.columns

end Session

end SchemaOnRead
