import SchemaOnRead.Command.Arguments
import SchemaOnRead.Configuration
import SchemaOnRead.Display.CellText
import SchemaOnRead.Engine.Query
import SchemaOnRead.Text.Blank

/-!
# Running commands

A command gives lines to print. Failures that tell what is wrong with a request are reported; all
others end the program.
-/

namespace SchemaOnRead

/-- What a command prints: lines, and the number of rows of an answer whose duration is of
interest. -/
structure Printed where
  lines : List String
  answered : Option Nat := none

/-- How a command line ends. -/
inductive Outcome where
  | printed (p : Printed)
  /-- The failure is reported to the user. -/
  | refused (f : Failure)
  /-- The failure ends the program. -/
  | broken (f : Failure)
  | misused (m : Misuse)

namespace Outcome

/-- Whether a failure is one that is reported to the user: one of this program, of a value, of a file
that is not there, or of a query. -/
def isReported (f : Failure) : Bool :=
  match f.cause with
  | .unanswerable | .unreadableStatement => true
  | _ =>
    match f.report.kind with
    | .coercion | .badValue | .malformedText | .badEncoding | .missingFile | .objectNotFound => true
    | kind => kind.isOwn

/-- How a command ends that gives a result. -/
def ofResult : Result Printed → Outcome
  | .ok p => printed p
  | .error f => if isReported f then refused f else broken f

/-- The status with which the program ends. -/
def exitCode : Outcome → Nat
  | printed _ => 0
  | refused _ | broken _ => 1
  | misused .helpWanted => 0
  | misused .malformed => 2

end Outcome

namespace Command

/-- A query without blanks around it and without semicolons at its end. -/
def trimQuery (text : String) : String :=
  let cs := Text.strip text.toList
  String.ofList ((cs.reverse.dropWhile (· == ';')).reverse)

/-- A column as a row of a grid. -/
def columnRow (c : Column) : List String :=
  [c.name, c.type.name, if c.hidden then "yes" else "", c.comment.getD Grid.missing]

/-- The line of a split: its path and its size. -/
def splitLine (s : Split) : String :=
  match s.size with
  | some n => s!"{s.path}\t{n}"
  | none => s.path

/-- The splits of a table under a condition. -/
def splitsWhere (s : Store) (schema table : String) (condition : Option String) :
    Session (List Split) := do
  let h ← Session.handle s schema table
  let t ← Session.table s h
  let constraints ← Session.of
    (Sql.Constraints.ofText (t.partitionColumns.map (·.name)) none condition)
  Session.splits s (TableLayout.of h constraints.toFields)

/-- What a command prints. -/
def session (s : Store) : Command → Session Printed
  | schemas => do return { lines := ← Session.schemas }
  | tables schema => do return { lines := ← Session.tables s schema }
  | columns schema table => do
    let cs ← Session.columns s (← Session.handle s schema table)
    let grid : Grid := ⟨["column", "type", "hidden", "comment"], cs.map columnRow⟩
    return { lines := ← Session.of grid.lines }
  | splits schema table condition => do
    let found ← splitsWhere s schema table condition
    return { lines := found.map splitLine }
  | query text => do
    let (_, answer) ← Session.query s (trimQuery text)
    return { lines := ← Session.of answer.grid.lines, answered := some answer.rows.length }

/-- Checks what a configuration says of logging: the level and the file have names. -/
def checkLogging (logging : Value.Fields) : Result Unit := do
  match Value.fieldD logging "level" with
  | .text _ => pure ()
  | _ => fail (.other .missingAttribute)
  match Value.fieldD logging "log_file" with
  | .text _ | .null | .bool false => pure ()
  | _ => fail (.other .wrongType)

end Command

namespace Invocation

/-- Runs an invocation over the store that its configuration names. -/
def run (i : Invocation) (store : String → Store) (configuration : Result Configuration) : Outcome :=
  match configuration.bind fun c => (Command.checkLogging c.logging).map fun _ => c with
  | .error f => .broken f
  | .ok c =>
    match Command.ofArguments i.command i.arguments with
    | .error m => .misused m
    | .ok command =>
      let engine : Engine := { registry := c.registry }
      .ofResult ((command.session (store c.store.root)).run.run engine).1

end Invocation

end SchemaOnRead
