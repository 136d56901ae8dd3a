import SchemaOnRead.Catalog.Registry

/-!
# Registries over time

A registry is asked for tables while its clock goes on, its store changes and what it keeps is
forgotten. Each answer is told by the last load of the schema that succeeded (`lookUp_answers`): as
long as it is in force, the answer comes from what it gave, and nothing is read; otherwise the manifest
is read once, as it is at that moment. A load that fails leaves no trace, and what is asked of one
schema makes no difference to the others.
-/

namespace SchemaOnRead.Registry

/-! ## What is asked of a registry -/

/-- A look-up: of all tables of a schema, of one of them, or of their names. -/
inductive LookUp where
  | tables (schema : String)
  | table (schema name : String)
  | names (schema : String)
  deriving DecidableEq, Repr

namespace LookUp

/-- The schema that is looked up. -/
def schema : LookUp → String
  | tables schema => schema
  | table schema _ => schema
  | names schema => schema

/-- What a look-up gives. -/
def Answer : LookUp → Type
  | tables _ => Manifest.Index
  | table .. => LogicalTable
  | names _ => List String

/-- What a look-up gives when the tables of its schema are known. -/
def answer : (l : LookUp) → Manifest.Index → Result l.Answer
  | tables _, ts => .ok ts
  | table schema name, ts =>
    match ts.lookup name with
    | some t => .ok t
    | none => fail (.tableNotFound schema name)
  | names _, ts => .ok (sortTexts (ts.map (·.1)))

end LookUp

/-- The outcome of a look-up at a time, and the registry afterwards. -/
def lookUp (s : Store) (now : Rat) (r : Registry) : (l : LookUp) → Logged l.Answer × Registry
  | .tables schema => r.tables s now schema
  | .table schema name => r.table s now schema name
  | .names schema => r.tableNames s now schema

/-- A registry with the store that its manifests are in, and the time. -/
structure Situation where
  store : Store
  now : Rat
  registry : Registry

/-- What happens to a registry: manifests are written or deleted in its store, time passes, tables are
looked up, and those of a schema or of all are forgotten. -/
inductive Event where
  | change (s : Store)
  | tick (seconds : Rat)
  | lookUp (l : LookUp)
  | invalidate (schema : Option String)

/-- Whether an event makes a registry forget a schema. -/
def Event.forgets (schema : String) : Event → Bool
  | invalidate none => true
  | invalidate (some other) => other = schema
  | _ => false

/-- Whether an event is more than a look-up or an invalidation of another schema. -/
def Event.concerns (schema : String) : Event → Bool
  | lookUp l => l.schema = schema
  | invalidate (some other) => other = schema
  | _ => true

/-- A load that succeeded: when it was, and what it gave. -/
structure Load where
  time : Rat
  tables : Manifest.Index

namespace Situation

/-- The outcome of a look-up. -/
def answer (w : Situation) (l : LookUp) : Logged l.Answer := (w.registry.lookUp w.store w.now l).1

/-- The situation after an event. -/
def after (w : Situation) : Event → Situation
  | .change s => { w with store := s }
  | .tick seconds => { w with now := w.now + seconds }
  | .lookUp l => { w with registry := (w.registry.lookUp w.store w.now l).2 }
  | .invalidate schema => { w with registry := w.registry.invalidate schema }

/-- The situation after events one after another. -/
def afterAll (w : Situation) : List Event → Situation
  | [] => w
  | e :: later => (w.after e).afterAll later

/-- The load of a schema that an event brings about: it is a look-up of the schema for which the store
is read, and the manifest that is there can be read. -/
def load? (w : Situation) (schema : String) : Event → Option Load
  | .lookUp l =>
    if l.schema = schema ∧ (w.answer l).accesses ≠ [] then
      (w.registry.load w.store schema).result.toOption.map fun ts => ⟨w.now, ts⟩
    else none
  | _ => none

/-- The last load of a schema that is not forgotten, given the one before an event. -/
def nextLoad (w : Situation) (schema : String) (last : Option Load) (e : Event) : Option Load :=
  if e.forgets schema then none else (w.load? schema e).or last

/-- The last load of a schema that succeeded and was not forgotten since, given the one before some
events. -/
def lastLoad (w : Situation) (schema : String) (last : Option Load) : List Event → Option Load
  | [] => last
  | e :: later => (w.after e).lastLoad schema (w.nextLoad schema last e) later

end Situation

/-! ## One look-up -/

section

variable {s : Store} {now : Rat} {r : Registry} {schema : String}

theorem loadMarked_fst : (r.loadMarked s now schema).1 = r.load s schema := by
  rw [loadMarked]
  cases (r.load s schema).result <;> rfl

theorem loadMarked_snd {ts : Manifest.Index} (loaded : (r.load s schema).result = .ok ts) :
    (r.loadMarked s now schema).2 =
      (r.keep schema ⟨ts, now + r.settings.keepSeconds⟩).endLoad schema := by
  rw [loadMarked]
  simp only [loaded]

theorem tables_of_current {ts : Manifest.Index} (current : r.current? now schema = some ts) :
    r.tables s now schema = (.of (.ok ts), r) := by
  rw [tables, current]

theorem tables_of_unmarked (current : r.current? now schema = none)
    (unmarked : r.loading.contains schema = false) :
    r.tables s now schema = (r.beginLoad schema).loadMarked s now schema := by
  rw [tables, current]
  exact if_neg (by simp only [unmarked, Bool.false_eq_true, not_false_eq_true])

theorem tables_of_marked (current : r.current? now schema = none)
    (marked : r.loading.contains schema = true) :
    r.tables s now schema = (.of (fail (.other .foreign)), r) := by
  rw [tables, current]
  exact if_pos marked

/-- The tables of a schema that has a directory are those of the manifest in it, which is read once. -/
theorem load_of_directory {directory : String} (configured : r.schemas.lookup schema = some directory) :
    r.load s schema = ⟨[.reading (Path.join directory r.settings.manifestName) none],
      (Manifest.read s r.settings.home (Path.join directory r.settings.manifestName)).result.mapError
        (unavailable schema (Path.join directory r.settings.manifestName))⟩ := by
  have path : r.manifestPath schema = .ok (Path.join directory r.settings.manifestName) := by
    rw [manifestPath, configured]
  rw [load, path, Logged.of_ok_bind, Logged.mapFailure, Manifest.read, Logged.access]

/-- A schema without a directory cannot be loaded, and nothing is read. -/
theorem load_of_unknown (unknown : r.schemas.lookup schema = none) :
    r.load s schema = .of (fail (.unknownSchema schema)) := by
  have path : r.manifestPath schema = fail (.unknownSchema schema) := by rw [manifestPath, unknown]
  rw [load, path]
  rfl

/-! ## A registry that nobody else is using -/

/-- No schema is marked. -/
def IsIdle (r : Registry) : Prop := r.loading = []

/-- What becomes of an idle registry when tables are looked up. -/
inductive LookedUp (s : Store) (now : Rat) (r : Registry) (schema : String) :
    Logged Manifest.Index × Registry → Prop where
  | kept {ts : Manifest.Index} (current : r.current? now schema = some ts) :
      LookedUp s now r schema (.of (.ok ts), r)
  | loaded {ts : Manifest.Index} (none : r.current? now schema = none)
      (read : (r.load s schema).result = .ok ts) :
      LookedUp s now r schema (r.load s schema, r.keep schema ⟨ts, now + r.settings.keepSeconds⟩)
  | failed {f : Failure} (none : r.current? now schema = none)
      (unread : (r.load s schema).result = .error f) : LookedUp s now r schema (r.load s schema, r)

theorem lookedUp_tables (s : Store) (now : Rat) (schema : String) (idle : r.IsIdle) :
    LookedUp s now r schema (r.tables s now schema) := by
  cases current : r.current? now schema with
  | some ts =>
    rw [tables_of_current current]
    exact .kept current
  | none =>
    have unmarked : (schema :: r.loading).filter (· ≠ schema) = r.loading := by
      rw [idle]
      simp
    have same : (r.beginLoad schema).load s schema = r.load s schema := rfl
    rw [tables_of_unmarked current (by rw [idle]; rfl), loadMarked]
    simp only [same]
    cases read : (r.load s schema).result with
    | ok ts =>
      simp only [beginLoad, endLoad, keep, unmarked]
      exact .loaded current read
    | error f =>
      simp only [beginLoad, endLoad, unmarked]
      exact .failed current read

/-! ## What is kept -/

theorem lookup_filter_ne {α : Type} (entries : List (String × α)) (left key : String) :
    (entries.filter (·.1 ≠ left)).lookup key = if key = left then none else entries.lookup key := by
  induction entries with
  | nil => simp
  | cons entry rest ih =>
    obtain ⟨k, v⟩ := entry
    by_cases dropped : k = left
    · rw [List.filter_cons_of_neg (by simp [dropped]), ih]
      by_cases same : key = left
      · simp [same]
      · rw [if_neg same, if_neg same, List.lookup_cons, beq_false_of_ne (dropped ▸ same)]
    · rw [List.filter_cons_of_pos (by simp [dropped]), List.lookup_cons, List.lookup_cons, ih]
      by_cases here : key = k
      · simp [here, dropped]
      · rw [beq_false_of_ne here]

theorem lookup_keep (k : KeptTables) (key : String) :
    (r.keep schema k).kept.lookup key = if key = schema then some k else r.kept.lookup key := by
  rw [keep]
  simp only
  rw [List.lookup_cons, lookup_filter_ne]
  by_cases same : key = schema
  · simp [same]
  · simp [beq_false_of_ne same, same]

/-- Every look-up goes by the tables of its schema. -/
theorem lookUp_eq (l : LookUp) : r.lookUp s now l =
    (⟨(r.tables s now l.schema).1.accesses, (r.tables s now l.schema).1.result.bind l.answer⟩,
      (r.tables s now l.schema).2) := by
  cases l with
  | tables schema =>
    rw [lookUp, LookUp.schema]
    generalize r.tables s now schema = found
    obtain ⟨⟨accesses, result⟩, after⟩ := found
    cases result <;> rfl
  | table schema name =>
    rw [lookUp, table, LookUp.schema]
    generalize r.tables s now schema = found
    obtain ⟨⟨accesses, result⟩, after⟩ := found
    cases result with
    | error f => rfl
    | ok ts => exact Prod.ext (congrArg (Logged.mk · _) (List.append_nil accesses)) rfl
  | names schema =>
    rw [lookUp, tableNames, LookUp.schema]
    generalize r.tables s now schema = found
    obtain ⟨⟨accesses, result⟩, after⟩ := found
    cases result with
    | error f => rfl
    | ok ts => exact Prod.ext (congrArg (Logged.mk · _) (List.append_nil accesses)) rfl

end

namespace Situation

/-! ## Runs -/

variable {w : Situation} {l : LookUp} {schema : String} {ts : Manifest.Index}

theorem answer_eq (w : Situation) (l : LookUp) :
    w.answer l = ⟨(w.registry.tables w.store w.now l.schema).1.accesses,
      (w.registry.tables w.store w.now l.schema).1.result.bind l.answer⟩ := by
  rw [answer, lookUp_eq]

theorem registry_after_lookUp (w : Situation) (l : LookUp) :
    (w.after (.lookUp l)).registry = (w.registry.tables w.store w.now l.schema).2 := by
  rw [after, lookUp_eq]

theorem load?_of_other (other : l.schema ≠ schema) : w.load? schema (.lookUp l) = none := by
  rw [load?]
  exact if_neg fun both => other both.1

/-- A look-up that finds kept tables is no load. -/
theorem load?_of_current (current : w.registry.current? w.now l.schema = some ts) :
    w.load? schema (.lookUp l) = none := by
  have unread : (w.answer l).accesses = [] := by rw [answer_eq, tables_of_current current]; rfl
  rw [load?, unread]
  exact if_neg fun both => both.2 rfl

theorem load?_of_failed {f : Failure} (unread : (w.registry.load w.store l.schema).result = .error f) :
    w.load? schema (.lookUp l) = none := by
  rw [load?]
  split
  · rename_i both
    rw [← both.1, unread]
    rfl
  · rfl

/-- A look-up that finds no kept tables and can read the manifest is a load of its schema, and of no
other. -/
theorem load?_of_loaded (idle : w.registry.IsIdle)
    (none : w.registry.current? w.now l.schema = none)
    (read : (w.registry.load w.store l.schema).result = .ok ts) :
    w.load? schema (.lookUp l) = if l.schema = schema then some ⟨w.now, ts⟩ else Option.none := by
  have accesses : (w.answer l).accesses ≠ [] := by
    rw [answer_eq, tables_of_unmarked none (by rw [idle]; rfl), loadMarked_fst]
    cases configured : w.registry.schemas.lookup l.schema with
    | none =>
      rw [load_of_unknown configured] at read
      cases read
    | some directory =>
      change (w.registry.load w.store l.schema).accesses ≠ []
      rw [load_of_directory configured]
      exact List.cons_ne_nil _ _
  by_cases same : l.schema = schema
  · rw [load?, if_pos ⟨same, accesses⟩, if_pos same, ← same, read]
    rfl
  · rw [load?_of_other same, if_neg same]

/-- An idle registry keeps for each schema what its last load gave, for as long as the settings say. -/
structure Keeps (schemas : List (String × String)) (settings : Settings)
    (last : String → Option Load) (w : Situation) : Prop where
  idle : w.registry.IsIdle
  configured : w.registry.schemas = schemas
  set : w.registry.settings = settings
  kept : ∀ schema, w.registry.kept.lookup schema =
    (last schema).map fun load => ⟨load.tables, load.time + settings.keepSeconds⟩

variable {schemas : List (String × String)} {settings : Settings} {last : String → Option Load}

/-- No event changes what a registry keeps but for the loads that it brings about and the schemas that
it makes the registry forget. -/
theorem Keeps.after (keeps : Keeps schemas settings last w) (e : Event) :
    Keeps schemas settings (fun schema => w.nextLoad schema (last schema) e) (w.after e) := by
  cases e with
  | change s => exact ⟨keeps.idle, keeps.configured, keeps.set, keeps.kept⟩
  | tick seconds => exact ⟨keeps.idle, keeps.configured, keeps.set, keeps.kept⟩
  | invalidate forgotten =>
    cases forgotten with
    | none => exact ⟨keeps.idle, keeps.configured, keeps.set, fun schema => rfl⟩
    | some other =>
      refine ⟨keeps.idle, keeps.configured, keeps.set, fun schema => ?_⟩
      refine (lookup_filter_ne _ other schema).trans ?_
      rw [keeps.kept schema, nextLoad, Event.forgets]
      by_cases same : schema = other
      · simp [same]
      · simp [same, Ne.symm same, load?]
  | lookUp l =>
    have registry := registry_after_lookUp w l
    have looked := lookedUp_tables w.store w.now l.schema keeps.idle
    generalize w.registry.tables w.store w.now l.schema = found at registry looked
    cases looked with
    | kept current =>
      have still : ∀ schema, w.nextLoad schema (last schema) (.lookUp l) = last schema := fun schema => by
        rw [nextLoad, load?_of_current current]
        rfl
      simp only [still]
      exact ⟨registry ▸ keeps.idle, registry ▸ keeps.configured, registry ▸ keeps.set, registry ▸ keeps.kept⟩
    | failed none unread =>
      have still : ∀ schema, w.nextLoad schema (last schema) (.lookUp l) = last schema := fun schema => by
        rw [nextLoad, load?_of_failed unread]
        rfl
      simp only [still]
      exact ⟨registry ▸ keeps.idle, registry ▸ keeps.configured, registry ▸ keeps.set, registry ▸ keeps.kept⟩
    | @loaded ts none read =>
      have next : ∀ schema, w.nextLoad schema (last schema) (.lookUp l) =
          if l.schema = schema then some ⟨w.now, ts⟩ else last schema := fun schema => by
        rw [nextLoad, load?_of_loaded keeps.idle none read]
        by_cases same : l.schema = schema
        · simp [same, Event.forgets]
        · simp [same, Event.forgets]
      refine ⟨registry ▸ keeps.idle, registry ▸ keeps.configured, registry ▸ keeps.set, fun schema => ?_⟩
      rw [registry, lookup_keep, next, keeps.kept]
      by_cases same : l.schema = schema
      · simp [same, keeps.set]
      · simp [same, Ne.symm same]

theorem Keeps.afterAll (keeps : Keeps schemas settings last w) (events : List Event) :
    Keeps schemas settings (fun schema => w.lastLoad schema (last schema) events)
      (w.afterAll events) := by
  induction events generalizing w last with
  | nil => exact keeps
  | cons e later ih => exact ih (keeps.after e)

/-- Kept tables are those of the last load, while it is in force. -/
theorem Keeps.current? (keeps : Keeps schemas settings last w) (schema : String) :
    w.registry.current? w.now schema = (last schema).bind fun load =>
      if w.now < load.time + settings.keepSeconds then some load.tables else none := by
  rw [Registry.current?, keeps.kept schema]
  cases last schema <;> rfl

/-! ## One schema apart from the others -/

/-- What is asked of other schemas brings about no load of a schema and does not make it forgotten. -/
theorem nextLoad_of_not_concerns {e : Event} (other : e.concerns schema = false) (last : Option Load) :
    w.nextLoad schema last e = last := by
  cases e with
  | change s => cases other
  | tick seconds => cases other
  | lookUp l =>
    have differs : l.schema ≠ schema := by simpa [Event.concerns] using other
    rw [nextLoad, load?_of_other differs]
    rfl
  | invalidate forgotten =>
    cases forgotten with
    | none => cases other
    | some name =>
      have differs : name ≠ schema := by simpa [Event.concerns] using other
      simp [nextLoad, Event.forgets, load?, differs]

/-- Two situations that differ at most in what is kept of other schemas. -/
structure Alike (schemas : List (String × String)) (settings : Settings) (schema : String)
    (last last' : String → Option Load) (w v : Situation) : Prop where
  keeps : Keeps schemas settings last w
  keeps' : Keeps schemas settings last' v
  store : v.store = w.store
  now : v.now = w.now
  load : last' schema = last schema

variable {last' : String → Option Load} {v : Situation}

theorem load_congr {s : Store} {r r' : Registry} (configured : r'.schemas = r.schemas)
    (set : r'.settings = r.settings) : r'.load s schema = r.load s schema := by
  obtain ⟨schemas, settings, kept, loading⟩ := r
  obtain ⟨schemas', settings', kept', loading'⟩ := r'
  cases configured
  cases set
  rfl

namespace Alike

theorem loaded (alike : Alike schemas settings schema last last' w v) :
    v.registry.load v.store schema = w.registry.load w.store schema := by
  rw [alike.store]
  exact load_congr (alike.keeps'.configured.trans alike.keeps.configured.symm)
    (alike.keeps'.set.trans alike.keeps.set.symm)

/-- Look-ups of the schema have the same outcome. -/
theorem answer (alike : Alike schemas settings schema last last' w v) (l : LookUp)
    (here : l.schema = schema) : v.answer l = w.answer l := by
  have current : v.registry.current? v.now schema = w.registry.current? w.now schema := by
    rw [alike.keeps'.current?, alike.keeps.current?, alike.load, alike.now]
  have tables : (v.registry.tables v.store v.now schema).1 =
      (w.registry.tables w.store w.now schema).1 := by
    cases kept : w.registry.current? w.now schema with
    | some ts => rw [tables_of_current kept, tables_of_current (current.trans kept)]
    | none =>
      rw [tables_of_unmarked kept (by rw [alike.keeps.idle]; rfl),
        tables_of_unmarked (current.trans kept) (by rw [alike.keeps'.idle]; rfl), loadMarked_fst,
        loadMarked_fst]
      exact alike.loaded
  rw [answer_eq, answer_eq, here, tables]

theorem nextLoad (alike : Alike schemas settings schema last last' w v) (e : Event) :
    v.nextLoad schema (last' schema) e = w.nextLoad schema (last schema) e := by
  have loads : v.load? schema e = w.load? schema e := by
    cases e with
    | lookUp l =>
      by_cases here : l.schema = schema
      · rw [load?, load?, alike.answer l here, alike.loaded, alike.now]
      · rw [load?_of_other here, load?_of_other here]
    | _ => rfl
  rw [Situation.nextLoad, Situation.nextLoad, loads, alike.load]

/-- The same event keeps two situations alike. -/
theorem after (alike : Alike schemas settings schema last last' w v) (e : Event) :
    Alike schemas settings schema (fun other => w.nextLoad other (last other) e)
      (fun other => v.nextLoad other (last' other) e) (w.after e) (v.after e) := by
  refine ⟨alike.keeps.after e, alike.keeps'.after e, ?_, ?_, alike.nextLoad e⟩
  · cases e with
    | change s => rfl
    | _ => exact alike.store
  · cases e with
    | tick seconds => exact congrArg (· + seconds) alike.now
    | _ => exact alike.now

/-- What is asked of another schema in one of two situations keeps them alike. -/
theorem skip (alike : Alike schemas settings schema last last' w v) {e : Event}
    (other : e.concerns schema = false) :
    Alike schemas settings schema (fun other => w.nextLoad other (last other) e) last' (w.after e)
      v := by
  refine ⟨alike.keeps.after e, alike.keeps', ?_, ?_, ?_⟩
  · cases e with
    | change s => cases other
    | _ => exact alike.store
  · cases e with
    | tick seconds => cases other
    | _ => exact alike.now
  · rw [alike.load, nextLoad_of_not_concerns other]

theorem afterAll (alike : Alike schemas settings schema last last' w v) (events : List Event) :
    ∃ last last', Alike schemas settings schema last last' (w.afterAll events)
      (v.afterAll (events.filter (Event.concerns schema))) := by
  induction events generalizing w v last last' with
  | nil => exact ⟨last, last', alike⟩
  | cons e later ih =>
    by_cases concerns : e.concerns schema = true
    · rw [List.filter_cons_of_pos concerns]
      exact ih (alike.after e)
    · rw [List.filter_cons_of_neg concerns]
      exact ih (alike.skip (eq_false_of_ne_true concerns))

end Alike

/-! ## All answers -/

/-- A registry of which nothing has been asked keeps nothing. -/
theorem keeps_start (s : Store) (now : Rat) (schemas : List (String × String)) (settings : Settings) :
    Keeps schemas settings (fun _ => none) ⟨s, now, { schemas, settings }⟩ :=
  ⟨rfl, rfl, rfl, fun _ => rfl⟩

end Situation

open Situation

/-- What a look-up gives after any events. If the last load of its schema that succeeded and was not
forgotten since is not too old, the answer comes from what that load gave, and nothing is read;
otherwise the manifest of the schema is read once, and the answer comes from what it says at that
moment or is its failure. A look-up that cannot load its tables leaves the registry as it is, and no
schema is left marked, so that the next one loads them again. What is asked of other schemas makes no
difference. -/
theorem lookUp_answers (schemas : List (String × String)) (settings : Settings) (s : Store)
    (now : Rat) (events : List Event) (l : LookUp) :
    let start : Situation := ⟨s, now, { schemas, settings }⟩
    let w := start.afterAll events
    let last := start.lastLoad l.schema none events
    (∀ load, last = some load → w.now < load.time + settings.keepSeconds →
        w.answer l = ⟨[], l.answer load.tables⟩) ∧
      ((∀ load, last = some load → ¬ w.now < load.time + settings.keepSeconds) →
        ∀ directory, schemas.lookup l.schema = some directory →
          w.answer l = ⟨[.reading (Path.join directory settings.manifestName) none],
            ((Manifest.read w.store settings.home
              (Path.join directory settings.manifestName)).result.mapError
              (unavailable l.schema (Path.join directory settings.manifestName))).bind l.answer⟩) ∧
      (∀ f, (w.answer (.tables l.schema)).result = .error f →
        (w.after (.lookUp l)).registry = w.registry) ∧
      w.registry.loading = [] ∧
      (start.afterAll (events.filter (Event.concerns l.schema))).answer l = w.answer l := by
  intro start w last
  have fresh := keeps_start s now schemas settings
  have keeps : Keeps schemas settings _ w := fresh.afterAll events
  have current : w.registry.current? w.now l.schema = last.bind fun load =>
      if w.now < load.time + settings.keepSeconds then some load.tables else none :=
    keeps.current? l.schema
  have alike : Alike schemas settings l.schema (fun _ => none) (fun _ => none) start start :=
    ⟨fresh, fresh, rfl, rfl, rfl⟩
  refine ⟨?_, ?_, ?_, keeps.idle, ?_⟩
  · intro load loaded inForce
    rw [loaded, Option.bind_some, if_pos inForce] at current
    rw [answer_eq, tables_of_current current]
    rfl
  · intro expired directory configured
    have none : w.registry.current? w.now l.schema = none := by
      rw [current, Option.bind_eq_none_iff]
      exact fun load loaded => if_neg (expired load loaded)
    rw [answer_eq, tables_of_unmarked none (by rw [keeps.idle]; rfl), loadMarked_fst]
    change Logged.mk (w.registry.load w.store l.schema).accesses
      ((w.registry.load w.store l.schema).result.bind l.answer) = _
    rw [load_of_directory (keeps.configured ▸ configured), keeps.set]
  · intro f fails
    rw [registry_after_lookUp]
    rw [answer_eq] at fails
    have looked := lookedUp_tables w.store w.now l.schema keeps.idle
    change ((w.registry.tables w.store w.now l.schema).1.result.bind _) = _ at fails
    generalize w.registry.tables w.store w.now l.schema = found at fails looked
    cases looked with
    | kept current => rfl
    | failed none unread => rfl
    | loaded none read =>
      rw [read] at fails
      cases fails
  · obtain ⟨_, _, same⟩ := alike.afterAll events
    exact same.answer l rfl

/-- A store with a manifest that defines one table. -/
def oneTable (manifest : String) : Store :=
  { tree := .directory [("m", .directory [("object-tables.json", .file manifest.toUTF8)])]
    proper := by simp [Tree.isProper, Tree.areProper, Path.isName] }

/-- The first definition, which is replaced by the second one after it was read. -/
def firstTable : Store :=
  oneTable "[\x7bname: 'a', rootPath: '/a', dataFileType: 'NDJSON'\x7d]"

def secondTable : Store :=
  oneTable "[\x7bname: 'b', rootPath: '/b', dataFileType: 'NDJSON'\x7d]"

/-- The definition that was read first is in force for a minute; then the manifest is read again. -/
theorem lookUp_rewritten :
    let start : Situation := ⟨firstTable, 5, { schemas := [("s", "/m")] }⟩
    let rewritten : List Event := [.lookUp (.tables "s"), .change secondTable, .tick 59]
    (start.afterAll rewritten).answer (.names "s") = ⟨[], .ok ["a"]⟩ ∧
      (start.afterAll (rewritten ++ [.tick 1])).answer (.names "s") =
        ⟨[.reading "/m/object-tables.json" none], .ok ["b"]⟩ := by
  intro start rewritten
  obtain ⟨inForce, -⟩ := lookUp_answers [("s", "/m")] {} firstTable 5 rewritten (.names "s")
  obtain ⟨-, expired, -⟩ :=
    lookUp_answers [("s", "/m")] {} firstTable 5 (rewritten ++ [.tick 1]) (.names "s")
  have last : ∀ events ∈ [rewritten, rewritten ++ [.tick 1]],
      (start.lastLoad "s" none events).map (fun load => (load.time, load.tables.map (·.1))) =
        some (5, ["a"]) := by decide +kernel
  refine ⟨?_, ?_⟩
  · obtain ⟨load, loaded, first⟩ := Option.map_eq_some_iff.mp (last _ List.mem_cons_self)
    obtain ⟨time, names⟩ := Prod.mk.inj first
    have early : (start.afterAll rewritten).now < load.time + 60 := by
      rw [time]
      decide +kernel
    refine (inForce load loaded early).trans ?_
    rw [LookUp.answer, names]
    rfl
  · obtain ⟨load, loaded, first⟩ :=
      Option.map_eq_some_iff.mp (last _ (List.mem_cons_of_mem _ List.mem_cons_self))
    obtain ⟨time, names⟩ := Prod.mk.inj first
    have late : ¬ (start.afterAll (rewritten ++ [.tick 1])).now < load.time + 60 := by
      rw [time]
      decide +kernel
    have once := expired (fun other same => by cases loaded.symm.trans same; exact late) "/m" rfl
    have path : Path.join "/m" ({} : Settings).manifestName = "/m/object-tables.json" := by
      decide +kernel
    have read : (Manifest.read secondTable none "/m/object-tables.json").result.toOption.map
        (fun ts => ts.map (·.1)) = some ["b"] := by decide +kernel
    obtain ⟨ts, found, second⟩ := Option.map_eq_some_iff.mp read
    have store : (start.afterAll (rewritten ++ [.tick 1])).store = secondTable := rfl
    rw [path, store, ok_of_toOption found] at once
    refine once.trans ?_
    change Logged.mk _ (LookUp.answer (.names "s") ts) = _
    rw [LookUp.answer, second]
    rfl

end SchemaOnRead.Registry
