import SchemaOnRead.Catalog.Manifest
import SchemaOnRead.Catalog.Settings

/-!
# Registries

A registry finds tables by schema and name. Each schema has a directory with a manifest. The tables
of a schema are kept for a while after they are read; what fails is not kept. A look-up gives the
registry as it is afterwards, whether it succeeds or fails.
-/

namespace SchemaOnRead

/-- The tables of a schema and the time at which they are no longer kept. -/
structure KeptTables where
  tables : Manifest.Index
  expiry : Rat

/-- A registry: the directories of schemas, the settings, what is kept, and the schemas whose tables
are being loaded. -/
structure Registry where
  schemas : List (String × String)
  settings : Settings := {}
  kept : List (String × KeptTables) := []
  loading : List String := []

namespace Registry

/-- Puts a text in its place among others in order. -/
def insertText (s : String) : List String → List String
  | [] => [s]
  | t :: rest => if t < s then t :: insertText s rest else s :: t :: rest

/-- Texts in order. -/
def sortTexts (ss : List String) : List String := ss.foldr insertText []

/-- The names of all schemas, in order. -/
def schemaNames (r : Registry) : List String := sortTexts (r.schemas.map (·.1))

/-- The path of the manifest of a schema. -/
def manifestPath (r : Registry) (schema : String) : Result String :=
  match r.schemas.lookup schema with
  | some directory => .ok (Path.join directory r.settings.manifestName)
  | none => fail (.unknownSchema schema)

/-- What a manifest that cannot be read means for a schema: one that is not there makes the schema
unavailable. -/
def unavailable (schema path : String) (f : Failure) : Failure :=
  match f.cause with
  | .objectNotFound _ => .mk (.manifestUnavailable schema path) []
  | _ => f

/-- Reads the tables of a schema. -/
def load (s : Store) (r : Registry) (schema : String) : Logged Manifest.Index := do
  let path ← Logged.of (r.manifestPath schema)
  (Manifest.read s r.settings.home path).mapFailure (unavailable schema path)

/-- The tables of a schema that are kept at a time. -/
def current? (r : Registry) (now : Rat) (schema : String) : Option Manifest.Index :=
  match r.kept.lookup schema with
  | some k => if now < k.expiry then some k.tables else none
  | none => none

/-- Keeps the tables of a schema. -/
def keep (r : Registry) (schema : String) (k : KeptTables) : Registry :=
  { r with kept := (schema, k) :: r.kept.filter (·.1 ≠ schema) }

/-- Marks a schema whose tables are going to be loaded. -/
def beginLoad (r : Registry) (schema : String) : Registry :=
  { r with loading := schema :: r.loading }

/-- Takes the mark from a schema. -/
def endLoad (r : Registry) (schema : String) : Registry :=
  { r with loading := r.loading.filter (· ≠ schema) }

/-- Loads the tables of a schema that is marked: they are kept if they can be read, and the mark is
taken away in either case. -/
def loadMarked (s : Store) (now : Rat) (r : Registry) (schema : String) :
    Logged Manifest.Index × Registry :=
  let loaded := r.load s schema
  match loaded.result with
  | .ok ts => (loaded, (r.keep schema ⟨ts, now + r.settings.keepSeconds⟩).endLoad schema)
  | .error _ => (loaded, r.endLoad schema)

/-- The tables of a schema at a time, and the registry afterwards. A schema that is marked is left to
whoever loads it. Look-ups that come one after another never meet such a mark. -/
def tables (s : Store) (now : Rat) (r : Registry) (schema : String) :
    Logged Manifest.Index × Registry :=
  match r.current? now schema with
  | some ts => (.of (.ok ts), r)
  | none =>
    if r.loading.contains schema then (.of (fail (.other .foreign)), r)
    else (r.beginLoad schema).loadMarked s now schema

/-- A table by its name. -/
def table (s : Store) (now : Rat) (r : Registry) (schema name : String) :
    Logged LogicalTable × Registry :=
  let (found, r) := r.tables s now schema
  (found.bind fun ts => .of (match ts.lookup name with
    | some t => .ok t
    | none => fail (.tableNotFound schema name)), r)

/-- The names of a schema's tables, in order. -/
def tableNames (s : Store) (now : Rat) (r : Registry) (schema : String) :
    Logged (List String) × Registry :=
  let (found, r) := r.tables s now schema
  (found.bind fun ts => .of (.ok (sortTexts (ts.map (·.1)))), r)

/-- Forgets the tables of a schema, or those of all. -/
def invalidate (r : Registry) : Option String → Registry
  | some schema => { r with kept := r.kept.filter (·.1 ≠ schema) }
  | none => { r with kept := [] }

end Registry

end SchemaOnRead
