import SchemaOnRead.Command.Run

/-!
# The program

Reads the command line, the configuration and the objects below the root of the store, runs the
command, and prints what it gives.
-/

namespace SchemaOnRead

/-- The tree of a file or a directory of the file system. -/
partial def Tree.load (entry : IO.FS.DirEntry) : IO Tree := do
  if ← entry.path.isDir then
    (← entry.path.readDir).foldlM
      (fun (t : Tree) e => return t.put (← Tree.load e) [e.fileName]) Tree.empty
  else return .file (← IO.FS.readBinFile entry.path)

/-- The objects below a directory of the file system; none if it is not there. -/
def Store.load (root : String) : IO Store := do
  try
    let directory ← IO.FS.realPath root
    let tree ← (← directory.readDir).foldlM
      (fun (t : Tree) e => return t.put (← Tree.load e) [e.fileName]) Tree.empty
    let place := (Path.segments directory.toString.toList).map String.ofList
    if whole : tree.isProper ∧ place.all Path.isName then
      return { tree, place, proper := whole.1, placed := whole.2 }
    else return {}
  catch _ => return {}

/-- The configuration of an invocation; none if its file cannot be read. -/
def Invocation.load (i : Invocation) : IO (Option (Result Configuration)) := do
  match i.configuration with
  | none => return some (.ok .usual)
  | some path =>
    try return some (Configuration.ofText (← IO.FS.readFile path))
    catch _ => return none

/-- How the program is used. -/
def usageText : String :=
  "Usage: [-c FILE] COMMAND\n\n" ++
  "Commands:\n" ++
  "  schemas                               list the schemas\n" ++
  "  tables SCHEMA                         list the tables of a schema\n" ++
  "  columns SCHEMA TABLE                  show the columns of a table\n" ++
  "  splits SCHEMA TABLE [--where TEXT]    list the objects that a scan reads\n" ++
  "  query TEXT                            answer a query"

/-- Prints how a command line ended that took some nanoseconds. -/
def Outcome.print (nanoseconds : Nat) : Outcome → IO Unit
  | .printed p => do
    p.lines.forM fun line => IO.println line
    if let some count := p.answered then
      IO.println (Grid.summary count (.ofRatio false nanoseconds 1000000))
  | .refused f => IO.eprintln s!"Error: {f.report.text}"
  | .broken f => IO.eprintln f.report.text
  | .misused .helpWanted => IO.println usageText
  | .misused .malformed => IO.eprintln usageText

/-- Runs a command line. -/
def execute (arguments : List String) : IO Outcome := do
  match Invocation.ofArguments arguments with
  | .error m => return .misused m
  | .ok i =>
    match ← i.load with
    | none => return .misused .malformed
    | some configuration =>
      let root := match configuration with
        | .ok c => c.store.root
        | .error _ => ""
      let store ← Store.load root
      return i.run (fun _ => store) configuration

end SchemaOnRead

def main (arguments : List String) : IO UInt32 := do
  let start ← IO.monoNanosNow
  let outcome ← SchemaOnRead.execute arguments
  let stop ← IO.monoNanosNow
  outcome.print (stop - start)
  return outcome.exitCode.toUInt32
