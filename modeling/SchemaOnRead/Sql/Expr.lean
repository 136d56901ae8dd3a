/-!
# Expressions and what they read

Expressions of statements. Of a subquery, an expression holds only which tables it reads: statements
are read to find out which objects they need.
-/

namespace SchemaOnRead.Sql

/-- A table in a statement: the names in front of its own, outermost first, and its alias. -/
structure TableName where
  outer : List String
  name : String
  aliasName? : Option String := none
  deriving DecidableEq, Repr

namespace TableName

/-- The schema that a table is qualified with. -/
def schema? (t : TableName) : Option String := t.outer.getLast?.filter (!·.isEmpty)

/-- The name by which columns refer to a table: its alias, or else its own name. -/
def aliasName (t : TableName) : String := t.aliasName?.getD t.name

end TableName

/-- The tables that a part of a statement reads, nested as the parts are. A definition gives a name
to what it reads. -/
inductive Reading where
  | table (t : TableName)
  | part (parts : List Reading)
  | defined (name : String) (body : List Reading)
  deriving Repr

namespace Reading

/-- What reads nothing. -/
def nothing : Reading := .part []

/-- The parts of a part. -/
def parts : Reading → List Reading
  | table _ => []
  | part ps => ps
  | defined _ ps => ps

mutual

/-- How many parts a part has, with itself. -/
def size : Reading → Nat
  | table _ => 1
  | part ps => sizes ps + 1
  | defined _ ps => sizes ps + 1

/-- How many parts some parts have together. -/
def sizes : List Reading → Nat
  | [] => 0
  | r :: rest => size r + sizes rest

end

/-- All parts of some parts, those that are less deep first. -/
def breadthFrom : Nat → List Reading → List Reading
  | 0, _ => []
  | _, [] => []
  | fuel + 1, r :: rest => r :: breadthFrom fuel (rest ++ r.parts)

/-- All parts of a part, those that are less deep first. -/
def breadth (r : Reading) : List Reading := breadthFrom r.size [r]

/-- All tables in a part, those that are less deep first. -/
def tables (r : Reading) : List TableName :=
  r.breadth.filterMap fun
    | table t => some t
    | _ => none

/-- All names that are defined in a part. -/
def definedNames (r : Reading) : List String :=
  r.breadth.filterMap fun
    | defined n _ => some n
    | _ => none

end Reading

/-- The ways to compare two values. -/
inductive Comparison where
  | equal
  | unequal
  | less
  | lessOrEqual
  | greater
  | greaterOrEqual
  deriving DecidableEq, Repr

/-- An expression. -/
inductive Expr where
  | column (outer : List String) (name : String)
  | star (outer : List String)
  | text (s : String)
  | number (s : String)
  | bool (b : Bool)
  | null
  | paren (e : Expr)
  | tuple (es : List Expr)
  | not (e : Expr)
  | and (a b : Expr)
  | or (a b : Expr)
  | compare (c : Comparison) (a b : Expr)
  | like (ignoringCase : Bool) (e pattern : Expr)
  | between (e low high : Expr)
  | is (e value : Expr)
  | member (e : Expr) (items : List Expr)
  | memberOf (e : Expr) (source : Expr)
  | concat (a b : Expr)
  | arithmetic (operator : String) (a b : Expr)
  | negative (e : Expr)
  | cast (e : Expr) (type : String)
  | call (name : String) (arguments : List Expr)
  | subquery (reading : Reading)
  | named (e : Expr) (name : String)
  deriving Repr

namespace Expr

mutual

/-- What an expression reads. -/
def reading : Expr → Reading
  | column .. | star _ | text _ | number _ | bool _ | null => .nothing
  | paren e | not e | negative e | cast e _ | named e _ => .part [reading e]
  | tuple es | call _ es => .part (readings es)
  | and a b | or a b | compare _ a b | like _ a b | is a b | concat a b | arithmetic _ a b =>
    .part [reading a, reading b]
  | memberOf a b => .part [reading a, reading b]
  | between a b c => .part [reading a, reading b, reading c]
  | member e es => .part (reading e :: readings es)
  | subquery r => .part [r]

/-- What each of some expressions reads. -/
def readings : List Expr → List Reading
  | [] => []
  | e :: rest => reading e :: readings rest

end

end Expr

end SchemaOnRead.Sql
