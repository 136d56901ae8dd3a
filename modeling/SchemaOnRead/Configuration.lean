import SchemaOnRead.Catalog.Registry
import SchemaOnRead.Yaml.Reader

/-!
# Configurations

A configuration tells where the objects are, which directories the schemas have, and how tables are
read and events logged. It is written as a YAML map with a section for each of these; a section or a
setting that is not there has its usual value. The sections on reading and logging allow no setting
but their own.
-/

namespace SchemaOnRead

open Yaml (Node)

/-- Where the objects are: the type of the store, its root, and further options. -/
structure StoreSettings where
  type : String := "local"
  root : String := "."
  options : Value.Fields := []

/-- A configuration. -/
structure Configuration where
  store : StoreSettings := {}
  schemas : List (String × String) := []
  /-- How tables are read, setting by setting. -/
  connector : Value.Fields
  /-- How events are logged, setting by setting. -/
  logging : Value.Fields

namespace Configuration

/-- The settings for reading tables with their usual values. -/
def usualConnector : Value.Fields :=
  [("manifest_filename", .text "object-tables.json"), ("home_directory", .null),
    ("max_bytes_per_line", .integer 65536),
    ("table_cache_ttl_seconds", .double (.ofRatio false 60 1)),
    ("split_batch_size", .integer 1000), ("split_workers", .integer 4),
    ("fail_closed_file_partitions", .bool false)]

/-- The settings for logging with their usual values. -/
def usualLogging : Value.Fields :=
  [("level", .text "INFO"), ("structured", .bool false), ("log_file", .null)]

/-- The configuration in which nothing is set. -/
def usual : Configuration := { connector := usualConnector, logging := usualLogging }

/-- The entries of a map. -/
abbrev Entries := List (Node × Node)

/-- Fails for something that has no place in a configuration. -/
def reject {α : Type} (kind : Kind) : Result α := fail (.other kind)

/-- The type of store that there is. -/
def storeType : String := "local"

/-- Refuses any other type of store. -/
def checkStoreType (type : String) : Result Unit :=
  if type = storeType then .ok () else fail (.unknownStoreType type)

/-- One entry that is written as two things after one another. -/
def pair : Node → Result (Node × Node)
  | .list [k, v] => if k.isKey then .ok (k, v) else reject .wrongType
  | .map [(k, _), (l, _)] => .ok (k, l)
  | .text s =>
    match s.toList with
    | [c, d] => .ok (.text (String.singleton c), .text (String.singleton d))
    | _ => reject .badValue
  | .list _ | .map _ => reject .badValue
  | _ => reject .wrongType

/-- The entries of the section on the store: those of a map, or pairs in a list. -/
def storeEntries : Option Node → Result Entries
  | none => .ok []
  | some (.map entries) => .ok entries
  | some (.list items) => do
    let entries ← items.mapM pair
    return entries.foldl (fun found (k, v) => Node.setEntry k v found) []
  | some (.text s) => if s.isEmpty then .ok [] else reject .badValue
  | some _ => reject .wrongType

/-- The section on the store. -/
def storeSettings (section? : Option Node) : Result StoreSettings := do
  let entries ← storeEntries section?
  match Node.entry? entries "type" with
  | some (.text t) => checkStoreType t
  | some other => fail (.unknownStoreType other.shown)
  | none => pure ()
  let root := ((Node.entry? entries "root").map Node.shown).getD "."
  let isOwn (e : Node × Node) : Bool :=
    Node.sameKey e.1 (.text "type") || Node.sameKey e.1 (.text "root")
  return { root := root, options := Node.toFields (entries.filter (!isOwn ·)) }

/-- The section on the schemas: directories by the schemas' names. -/
def schemaDirectories (section? : Option Node) : Result (List (String × String)) :=
  match section? with
  | none => .ok []
  | some (.map entries) =>
    .ok ((Value.ofPairs (entries.map fun (k, v) => (k.shown, .text v.shown))).map
      fun (k, v) => (k, v.shown))
  | some node => if node.isEmpty then .ok [] else reject .missingAttribute

/-- Changes a setting that there is. -/
def change (settings : Value.Fields) (entry : Node × Node) : Result Value.Fields :=
  match entry.1 with
  | .text name =>
    if (settings.lookup name).isSome then .ok (Value.setField settings name entry.2.toValue)
    else reject .wrongType
  | _ => reject .wrongType

/-- A section of settings, of which each has a usual value. -/
def settingsSection (usual : Value.Fields) : Option Node → Result Value.Fields
  | none => .ok usual
  | some (.map entries) => entries.foldlM change usual
  | some _ => reject .wrongType

/-- The configuration that a document describes. -/
def ofNode : Node → Result Configuration
  | .map entries => do
    let store ← storeSettings (Node.entry? entries "store")
    let schemas ← schemaDirectories (Node.entry? entries "schemas")
    let connector ← settingsSection usualConnector (Node.entry? entries "connector")
    let logging ← settingsSection usualLogging (Node.entry? entries "logging")
    return { store, schemas, connector, logging }
  | node => if node.isEmpty then .ok usual else reject .missingAttribute

/-- The configuration in a text. -/
def ofText (text : String) : Result Configuration :=
  match Yaml.read text with
  | some node => ofNode node
  | none => reject .foreign

/-- The configuration in a file, of which the text is given if the file is there. -/
def ofFile (path : String) : Option String → Result Configuration
  | some text => ofText text
  | none => fail (.missingConfig path)

/-- A registry of the tables that a configuration tells of. -/
def registry (c : Configuration) : Registry :=
  { schemas := c.schemas, settings := .ofFields c.connector }

end Configuration

end SchemaOnRead
