/-!
# Arguments of the command line

The command line names a configuration, a command and what the command is about. Options of a command
may stand among its arguments; after two hyphens everything is an argument. Help may be asked for
instead.
-/

namespace SchemaOnRead

/-- What a command does. -/
inductive Command where
  /-- Lists the schemas. -/
  | schemas
  /-- Lists the tables of a schema. -/
  | tables (schema : String)
  /-- Shows the columns of a table. -/
  | columns (schema table : String)
  /-- Lists the objects of a table under a condition. -/
  | splits (schema table : String) (condition : Option String)
  /-- Answers a query. -/
  | query (text : String)
  deriving DecidableEq, Repr

/-- Why a command line makes no command: it is misused, or it asks for help. -/
inductive Misuse where
  | malformed
  | helpWanted
  deriving DecidableEq, Repr

namespace Command

/-- The names of the commands. -/
def names : List String := ["schemas", "tables", "columns", "splits", "query"]

/-- Whether an argument is written as an option. -/
def isOption (s : String) : Bool :=
  match s.toList with
  | '-' :: _ :: _ => true
  | _ => false

/-- The value in an option that is written with an equals sign. -/
def attached? (name s : String) : Option String :=
  let head := (name ++ "=").toList
  if head.isPrefixOf s.toList then some (String.ofList (s.toList.drop head.length)) else none

/-- Arguments and the last value of an option. -/
structure Sorted where
  plain : List String := []
  value : Option String := none

/-- Tells apart the arguments of a command and the values of its only option, if it has one. -/
def sort (option : Option String) : Sorted → List String → Except Misuse Sorted
  | found, [] => .ok found
  | found, "--" :: rest => .ok { found with plain := found.plain ++ rest }
  | found, s :: rest =>
    if !isOption s then sort option { found with plain := found.plain ++ [s] } rest
    else if s == "--help" then .error .helpWanted
    else
      match option with
      | none => .error .malformed
      | some name =>
        match attached? name s with
        | some v => sort option { found with value := some v } rest
        | none =>
          if s == name then
            match rest with
            | v :: rest => sort option { found with value := some v } rest
            | [] => .error .malformed
          else .error .malformed

/-- The command of a name with its arguments. -/
def ofArguments (name : String) (arguments : List String) : Except Misuse Command := do
  let found ← sort (if name == "splits" then some "--where" else none) {} arguments
  match name, found.plain with
  | "schemas", [] => return schemas
  | "tables", [schema] => return tables schema
  | "columns", [schema, table] => return columns schema table
  | "splits", [schema, table] => return splits schema table found.value
  | "query", [text] => return query text
  | _, _ => .error .malformed

end Command

/-- A command line before the command itself is read: the path of a configuration, the name of a
command and its arguments. -/
structure Invocation where
  configuration : Option String
  command : String
  arguments : List String
  deriving DecidableEq, Repr

namespace Invocation

/-- The invocation that starts with a command's name. -/
def ofCommand (configuration : Option String) : List String → Except Misuse Invocation
  | name :: arguments =>
    if Command.names.contains name then .ok ⟨configuration, name, arguments⟩ else .error .malformed
  | [] => .error .malformed

/-- The value in an option of one letter that is written without a blank. -/
def joined? (s : String) : Option String :=
  match s.toList with
  | '-' :: 'c' :: v => if v.isEmpty then none else some (String.ofList v)
  | _ => none

/-- Reads the options in front of a command. -/
def read (configuration : Option String) : List String → Except Misuse Invocation
  | [] => .error .malformed
  | "--" :: rest => ofCommand configuration rest
  | s :: rest =>
    if !Command.isOption s then ofCommand configuration (s :: rest)
    else if s == "--help" then .error .helpWanted
    else
      match Command.attached? "--config" s, joined? s with
      | some v, _ => read (some v) rest
      | none, some v => read (some v) rest
      | none, none =>
        if s == "-c" || s == "--config" then
          match rest with
          | v :: rest => read (some v) rest
          | [] => .error .malformed
        else .error .malformed

/-- The invocation that a command line is. -/
def ofArguments (arguments : List String) : Except Misuse Invocation := read none arguments

end Invocation

end SchemaOnRead
