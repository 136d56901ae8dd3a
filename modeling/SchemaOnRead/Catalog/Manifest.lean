import SchemaOnRead.Catalog.Table
import SchemaOnRead.Json.Printer
import SchemaOnRead.Json5.Reader
import SchemaOnRead.Storage.Access
import SchemaOnRead.Storage.Store
import SchemaOnRead.Text.Utf8

/-!
# Manifests

A manifest is a JSON5 document that defines the tables of a schema: a list with one entry a table.
`Manifest.parse` and `Manifest.write` go from text to tables and back, and `Manifest.index` finds a
table by its name.
-/

namespace SchemaOnRead.Manifest

/-- The tables that a document defines, in their order. -/
def tables (home : Option String) : Value → Result (List LogicalTable)
  | .list entries => entries.mapM (LogicalTable.ofValue home)
  | v => fail (.manifestNotList v.kind)

/-- The tables that the text of a manifest defines, read by a reader of documents. -/
def parseBy (reader : String → Except String Value) (home : Option String) (text : String) :
    Result (List LogicalTable) :=
  match reader text with
  | .ok v => tables home v
  | .error problem => fail (.unreadableManifest problem)

/-- The tables that the text of a manifest defines. -/
def parse : Option String → String → Result (List LogicalTable) := parseBy Json5.readText

/-- Tables by name, in the order in which they are defined. -/
abbrev Index := List (String × LogicalTable)

/-- Adds tables to an index; no name may be there twice. -/
def indexFrom : Index → List LogicalTable → Result Index
  | found, [] => .ok found
  | found, t :: rest =>
    if (found.lookup t.name).isSome then fail (.duplicateTable t.name)
    else indexFrom (found ++ [(t.name, t)]) rest

/-- The index of tables whose names all differ. -/
def index (ts : List LogicalTable) : Result Index := indexFrom [] ts

/-- The index of the tables that a document defines. -/
def indexOf (home : Option String) (document : Value) : Result Index :=
  tables home document >>= index

/-- Puts a table in its place by name, before those of the same name. -/
def insertByName (t : LogicalTable) : List LogicalTable → List LogicalTable
  | [] => [t]
  | u :: rest => if u.name < t.name then u :: insertByName t rest else t :: u :: rest

/-- Tables in the order of their names; those of one name stay in their order. -/
def sortByName (ts : List LogicalTable) : List LogicalTable := ts.foldr insertByName []

/-- The text of a manifest that defines tables, sorted by name, written by a writer of documents. -/
def writeBy (writer : Value → String) (ts : List LogicalTable) : String :=
  writer (.list ((sortByName ts).map LogicalTable.toValue))

/-- The text of a manifest that defines tables, sorted by name. -/
def write : List LogicalTable → String := writeBy Json.pretty

/-- The tables that the bytes of a manifest define. -/
def ofBytes (home : Option String) (bytes : ByteArray) : Result Index :=
  match Utf8.text? bytes.toList with
  | .error _ => fail (.other .badEncoding)
  | .ok cs => parse home (String.ofList cs) >>= index

/-- Reads the manifest at a path. -/
def read (s : Store) (home : Option String) (path : String) : Logged Index :=
  .access (.reading path none) (s.read path >>= ofBytes home)

end SchemaOnRead.Manifest
