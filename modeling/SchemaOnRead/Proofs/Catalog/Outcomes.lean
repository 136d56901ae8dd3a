import SchemaOnRead.Proofs.Catalog.Registries
import SchemaOnRead.Proofs.Catalog.WellFormed

/-!
# Outcomes of look-ups

What the tables of a schema are asked for comes to is told by the bytes of its manifest, in one of four
ways (`tables_settled`): the tables are given if the manifest declares some, the schema is missing if it
has no directory or nothing is in the manifest's place, and a text that declares no tables is an illegal
argument. Bytes that are no text, and a place that no path leads to, are none of these.
-/

namespace SchemaOnRead

/-- Context makes no difference to the kind of a failure. -/
theorem Failure.kind_report (f : Failure) : f.report.kind = f.cause.report.kind := by
  have added : ∀ (r : Report) (label : String) (v : Value), (r.add label v).kind = r.kind := by
    intro r label v
    rw [Report.add]
    split <;> rfl
  rw [Failure.report]
  generalize f.cause.report = r
  induction f.gained generalizing r with
  | nil => rfl
  | cons lv rest ih => rw [List.foldl_cons, ih, added]

namespace Store

variable {s : Store} {path : String}

/-- A path with a null character fails in its own way. -/
theorem read_of_null (null : '\x00' ∈ path.toList) : s.read path = fail (.other .badValue) := by
  have malformed : s.locate path = fail (.other .badValue) := by
    rw [locate, if_pos (by simpa using null)]
  rw [read, find, malformed]
  rfl

/-- At any other path there is something, or no object is found. -/
theorem find_of_clean (clean : '\x00' ∉ path.toList) :
    (∃ t, s.find path = .ok t) ∨ s.find path = fail (.objectNotFound path) := by
  have formed : ¬ path.toList.contains '\x00' = true := by simpa using clean
  rw [find, locate, if_neg formed]
  dsimp only
  split
  · simp only [bind, Except.bind]
    cases s.tree.descend? _ with
    | none => exact .inr rfl
    | some t => exact .inl ⟨t, rfl⟩
  · exact .inr rfl

theorem read_of_clean (clean : '\x00' ∉ path.toList) :
    (∃ bytes, s.read path = .ok bytes) ∨ s.read path = fail (.objectNotFound path) := by
  rcases find_of_clean (s := s) clean with ⟨t, found⟩ | absent
  · rw [read, found]
    cases t with
    | file bytes => exact .inl ⟨bytes, rfl⟩
    | directory es => exact .inr rfl
  · rw [read, absent]
    exact .inr rfl

end Store

namespace Registry

open Manifest

/-! ## What is in a manifest's place -/

section

variable (s : Store) (r : Registry) (schema : String)

/-- The bytes of the manifest of a schema. -/
def HasBytes (bytes : ByteArray) : Prop :=
  ∃ directory, r.schemas.lookup schema = some directory ∧
    s.read (Path.join directory r.settings.manifestName) = .ok bytes

/-- The text of the manifest of a schema. -/
def HasText (cs : List Char) : Prop :=
  ∃ bytes, HasBytes s r schema bytes ∧ Utf8.text? bytes.toList = .ok cs

/-- The manifest of a schema declares tables. -/
def IsDeclared : Prop :=
  ∃ cs document, HasText s r schema cs ∧ Json5.read cs = .ok document ∧
    Manifest.IsForm r.settings.home document

/-- A schema has no directory, or nothing is found in the place of its manifest. -/
def IsMissing : Prop :=
  r.schemas.lookup schema = none ∨
    ∃ directory, r.schemas.lookup schema = some directory ∧
      s.read (Path.join directory r.settings.manifestName) =
        fail (.objectNotFound (Path.join directory r.settings.manifestName))

/-- The manifest of a schema is a text that declares no tables. -/
def IsIllFormed : Prop :=
  ∃ cs, HasText s r schema cs ∧
    ∀ document, Json5.read cs = .ok document → ¬ Manifest.IsForm r.settings.home document

/-- The manifest of a schema is no text, or no path leads to its place. -/
def IsGarbled : Prop :=
  (∃ bytes fault, HasBytes s r schema bytes ∧ Utf8.text? bytes.toList = .error fault) ∨
    ∃ directory, r.schemas.lookup schema = some directory ∧
      '\x00' ∈ (Path.join directory r.settings.manifestName).toList

/-- The regular expressions in the manifest of a schema are sound, or refused as such. -/
def Reports : Prop :=
  ∀ cs document, HasText s r schema cs → Json5.read cs = .ok document →
    ∀ p, HasPattern document p → Regex.compile p ≠ .error .countTooLarge

end

/-! ## What a load gives -/

section

variable {s : Store} {now : Rat} {r : Registry} {schema : String}

theorem HasBytes.unique {bytes others : ByteArray} (there : HasBytes s r schema bytes)
    (found : HasBytes s r schema others) : bytes = others := by
  obtain ⟨directory, configured, read⟩ := there
  obtain ⟨again, same, found⟩ := found
  cases configured.symm.trans same
  exact Except.ok.inj (read.symm.trans found)

/-- The bytes of a manifest decide what loading it gives. -/
theorem load_of_bytes {bytes : ByteArray} (there : HasBytes s r schema bytes) :
    ∃ path, (r.load s schema).result =
      (Manifest.ofBytes r.settings.home bytes).mapError (unavailable schema path) := by
  obtain ⟨directory, configured, read⟩ := there
  refine ⟨Path.join directory r.settings.manifestName, ?_⟩
  rw [load_of_directory configured, Manifest.read, read]
  rfl

/-- Only an object that is not found makes a schema unavailable. -/
theorem unavailable_of_kind {path : String} {f : Failure} (other : f.report.kind ≠ .objectNotFound) :
    unavailable schema path f = f := by
  rw [f.kind_report] at other
  rw [unavailable]
  split
  · rename_i missing
    rw [missing] at other
    exact absurd rfl other
  · rfl

/-- What goes wrong with a text is an unreadable manifest, or what its document is refused for. -/
theorem ofBytes_of_text {home : Option String} {bytes : ByteArray} {cs : List Char}
    (text : Utf8.text? bytes.toList = .ok cs) : Manifest.ofBytes home bytes =
      match Json5.read cs with
      | .ok document => Manifest.indexOf home document
      | .error f => fail (.unreadableManifest (f.message cs)) := by
  rw [Manifest.ofBytes, text]
  simp only [Manifest.parse, Manifest.parseBy, Json5.readText, String.toList_ofList]
  cases Json5.read cs <;> rfl

theorem load_of_declared (declared : IsDeclared s r schema) :
    ∃ ts, (r.load s schema).result = .ok ts := by
  obtain ⟨cs, document, ⟨bytes, there, text⟩, read, form⟩ := declared
  obtain ⟨path, loaded⟩ := load_of_bytes there
  obtain ⟨ts, indexed⟩ := (accepts_indexOf r.settings.home document).ok_iff.mpr form
  refine ⟨ts, ?_⟩
  rw [loaded, ofBytes_of_text text, read]
  simp only [indexed]
  rfl

theorem load_of_missing (missing : IsMissing s r schema) :
    ∃ f, (r.load s schema).result = .error f ∧ f.report.kind = .schemaNotFound := by
  rcases missing with unknown | ⟨directory, configured, absent⟩
  · rw [load_of_unknown unknown]
    exact ⟨_, rfl, rfl⟩
  · rw [load_of_directory configured, Manifest.read, absent]
    exact ⟨_, rfl, rfl⟩

theorem load_of_illFormed (reports : Reports s r schema) (illFormed : IsIllFormed s r schema) :
    ∃ f, (r.load s schema).result = .error f ∧ f.report.kind = .illegalArgument := by
  obtain ⟨cs, ⟨bytes, there, text⟩, unformed⟩ := illFormed
  obtain ⟨path, loaded⟩ := load_of_bytes there
  have refused : ∃ f, Manifest.ofBytes r.settings.home bytes = .error f ∧
      f.report.kind = .illegalArgument := by
    rw [ofBytes_of_text text]
    cases read : Json5.read cs with
    | error f => exact ⟨_, rfl, rfl⟩
    | ok document =>
      have accepts := accepts_indexOf r.settings.home document
      cases answer : Manifest.indexOf r.settings.home document with
      | ok ts => exact absurd (accepts.ok_iff.mp ⟨ts, answer⟩) (unformed document read)
      | error f =>
        have told := reports cs document ⟨bytes, there, text⟩ read
        exact ⟨f, answer, accepts.refused told f answer⟩
  obtain ⟨f, failed, kind⟩ := refused
  refine ⟨f, ?_, kind⟩
  rw [loaded, failed, Except.mapError, unavailable_of_kind (by rw [kind]; decide)]

theorem load_of_garbled (garbled : IsGarbled s r schema) :
    ∃ f, (r.load s schema).result = .error f ∧
      f.report.kind ≠ .schemaNotFound ∧ f.report.kind ≠ .illegalArgument := by
  rcases garbled with ⟨bytes, fault, there, undecoded⟩ | ⟨directory, configured, null⟩
  · obtain ⟨path, loaded⟩ := load_of_bytes there
    rw [loaded, Manifest.ofBytes, undecoded]
    exact ⟨_, rfl, by rintro ⟨⟩, by rintro ⟨⟩⟩
  · rw [load_of_directory configured, Manifest.read, Store.read_of_null null]
    exact ⟨_, rfl, by rintro ⟨⟩, by rintro ⟨⟩⟩

/-- There is no further state that the manifest of a schema may be in. -/
theorem states (s : Store) (r : Registry) (schema : String) :
    IsDeclared s r schema ∨ IsMissing s r schema ∨ IsIllFormed s r schema ∨ IsGarbled s r schema := by
  cases configured : r.schemas.lookup schema with
  | none => exact .inr (.inl (.inl configured))
  | some directory =>
    by_cases null : '\x00' ∈ (Path.join directory r.settings.manifestName).toList
    · exact .inr (.inr (.inr (.inr ⟨directory, configured, null⟩)))
    · rcases Store.read_of_clean (s := s) null with ⟨bytes, read⟩ | absent
      · have there : HasBytes s r schema bytes := ⟨directory, configured, read⟩
        cases text : Utf8.text? bytes.toList with
        | error fault => exact .inr (.inr (.inr (.inl ⟨bytes, fault, there, text⟩)))
        | ok cs =>
          by_cases form : ∃ document, Json5.read cs = .ok document ∧
              Manifest.IsForm r.settings.home document
          · obtain ⟨document, parsed, form⟩ := form
            exact .inl ⟨cs, document, ⟨bytes, there, text⟩, parsed, form⟩
          · refine .inr (.inr (.inl ⟨cs, ⟨bytes, there, text⟩, fun document parsed holds => ?_⟩))
            exact form ⟨document, parsed, holds⟩
      · exact .inr (.inl (.inr ⟨directory, configured, absent⟩))

/-- An idle registry gives the tables that it keeps. If it keeps none, the state of the manifest decides
what is given: its tables if it declares some, else a failure for a missing schema or for an illegal
argument. Only if the manifest is no text, or no path leads to it, is it none of these. -/
theorem tables_settled (idle : r.IsIdle) :
    (∀ ts, r.current? now schema = some ts → (r.tables s now schema).1.result = .ok ts) ∧
    (r.current? now schema = none → Reports s r schema →
      ((∃ ts, (r.tables s now schema).1.result = .ok ts) ↔ IsDeclared s r schema) ∧
      ((∃ f, (r.tables s now schema).1.result = .error f ∧ f.report.kind = .schemaNotFound) ↔
        IsMissing s r schema) ∧
      ((∃ f, (r.tables s now schema).1.result = .error f ∧ f.report.kind = .illegalArgument) ↔
        IsIllFormed s r schema) ∧
      ((∃ f, (r.tables s now schema).1.result = .error f ∧
          f.report.kind ≠ .schemaNotFound ∧ f.report.kind ≠ .illegalArgument) ↔
        IsGarbled s r schema)) := by
  refine ⟨fun ts current => by rw [tables_of_current current]; rfl, fun expired reports => ?_⟩
  have loaded : (r.tables s now schema).1.result = (r.load s schema).result := by
    rw [tables_of_unmarked expired (by rw [idle]; rfl), loadMarked_fst]
    rfl
  rw [loaded]
  have declared := @load_of_declared s r schema
  have missing := @load_of_missing s r schema
  have illFormed := load_of_illFormed reports
  have garbled := @load_of_garbled s r schema
  have states := states s r schema
  -- Each state has an outcome of its own, so that the outcome tells the state.
  generalize (r.load s schema).result = answer at *
  grind

/-- A manifest with a byte that is in no character. -/
def garbledBytes : ByteArray := ⟨#[0x5B, 0xFF, 0x5D]⟩

def garbledStore : Store :=
  { tree := .directory [("t", .directory [("object-tables.json", .file garbledBytes)])]
    proper := by decide +kernel }

def garbledRegistry : Registry := { schemas := [("logs", "/t")] }

/-- The manifest is there and can be read, but its bytes are no text, and the fault is neither that of a
missing schema nor that of a bad definition. -/
theorem tables_settled_garbled : IsGarbled garbledStore garbledRegistry "logs" ∧
    ∃ f, (garbledRegistry.tables garbledStore 0 "logs").1.result = .error f ∧
      f.report.kind ≠ .schemaNotFound ∧ f.report.kind ≠ .illegalArgument := by
  have there : HasBytes garbledStore garbledRegistry "logs" garbledBytes :=
    ⟨"/t", rfl, ok_of_toOption (by decide +kernel)⟩
  have undecoded : ∀ cs, Utf8.text? garbledBytes.toList ≠ .ok cs := by
    intro cs text
    have none : (Utf8.text? garbledBytes.toList).toOption = none := by decide +kernel
    rw [text] at none
    cases none
  have reports : Reports garbledStore garbledRegistry "logs" := by
    rintro cs document ⟨bytes, found, text⟩
    cases HasBytes.unique there found
    exact absurd text (undecoded cs)
  have garbled : IsGarbled garbledStore garbledRegistry "logs" := by
    cases text : Utf8.text? garbledBytes.toList with
    | ok cs => exact absurd text (undecoded cs)
    | error fault => exact .inl ⟨garbledBytes, fault, there, text⟩
  have settled := (@tables_settled garbledStore 0 garbledRegistry "logs" rfl).2 rfl reports
  exact ⟨garbled, settled.2.2.2.mpr garbled⟩

end

end Registry

end SchemaOnRead
