import SchemaOnRead.Failure
import SchemaOnRead.Sql.Parser

/-!
# Constraints in conditions

A condition that holds only where a column has one text constrains the column. Constraints are found
in the terms that are joined by `AND`; what other terms say is left to the query. Of several
constraints on a column the first one counts.
-/

namespace SchemaOnRead.Sql

namespace Expr

/-- The terms of a condition that all have to hold. -/
def conjuncts : Expr → List Expr
  | and a b => conjuncts a ++ conjuncts b
  | paren e => conjuncts e
  | e => [e]

/-- A column that a term requires to have a text: the names in front of its own, its name, and the
text. -/
structure Equality where
  outer : List String
  column : String
  text : String
  deriving DecidableEq, Repr

/-- The column that a term requires to have a text. -/
def equality? : Expr → Option Equality
  | compare .equal (column outer name) (text s) => some ⟨outer, name, s⟩
  | compare .equal (text s) (column outer name) => some ⟨outer, name, s⟩
  | member (column outer name) [text s] => some ⟨outer, name, s⟩
  | _ => none

/-- The name right before that of a column. -/
def Equality.qualifier? (q : Equality) : Option String :=
  match q.outer.getLast? with
  | some n => if n.isEmpty then none else some n
  | none => none

/-- Whether a column may be one of the table: it has no qualifier, or one that is allowed. Without a
list of qualifiers all are. -/
def Equality.isAllowed (allowed : Option (List String)) (q : Equality) : Bool :=
  match q.qualifier?, allowed with
  | some n, some names => names.contains n
  | _, _ => true

end Expr

/-- Columns with the texts they must have. -/
abbrev Constraints := List (String × String)

namespace Constraints

/-- Adds what a term requires, unless the column is constrained already. -/
def add (names : List String) (allowed : Option (List String)) (found : Constraints) (e : Expr) :
    Constraints :=
  match e.equality? with
  | some q =>
    if q.isAllowed allowed && names.contains q.column && (found.lookup q.column).isNone then
      found ++ [(q.column, q.text)]
    else found
  | none => found

/-- The constraints that a condition puts on columns. -/
def ofCondition (names : List String) (allowed : Option (List String)) (e : Expr) : Constraints :=
  e.conjuncts.foldl (add names allowed) []

/-- The failure that a fault of a statement is. -/
def failure : Fault → Failure
  | .badToken => .mk .unreadableTokens []
  | .badStatement => .mk .unreadableStatement []

/-- The statement in a text. -/
def statement (text : String) : Result Statement := (parse text).mapError failure

/-- The constraints that the text of a condition puts on columns. -/
def ofText (names : List String) (allowed : Option (List String)) (text : Option String) :
    Result Constraints :=
  match text with
  | none => .ok []
  | some s =>
    if Text.isBlankText s then .ok []
    else do
      match ← statement s with
      | .expr e => return ofCondition names allowed e
      | _ => return []

/-- The constraints that a select puts on columns of the table that it reads. -/
def ofSelect (names : List String) (t : TableName) (s : Select) : Constraints :=
  match s.filter with
  | some e => ofCondition names (some [t.name, t.aliasName]) e
  | none => []

/-- Constraints as the fields that a layout holds. -/
def toFields (cs : Constraints) : Value.Fields := cs.map fun (n, s) => (n, .text s)

end Constraints

end SchemaOnRead.Sql
