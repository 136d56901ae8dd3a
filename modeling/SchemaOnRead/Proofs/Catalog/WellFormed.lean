import Mathlib.Data.List.Nodup
import SchemaOnRead.Catalog.Manifest
import SchemaOnRead.Proofs.Results

/-!
# Well-formed manifests

The form of a manifest is said without its readers: which members a table, its partition definition and
its columns have, and of what kind these are (`Manifest.IsForm`). The readers accept the documents of
this form and no others, and refuse all others as illegal arguments (`Manifest.indexOf_settled`).
-/

namespace SchemaOnRead

open Text

/-! ## The form of definitions -/

namespace Value

/-- A text of which something holds. -/
def IsText (holds : String → Prop) (v : Value) : Prop := ∃ s, v = .text s ∧ holds s

/-- Null, or a text of which something holds. -/
def IsTextOrNull (holds : String → Prop) (v : Value) : Prop := v = .null ∨ v.IsText holds

/-- Null, or a list of texts. -/
def IsTextsOrNull (v : Value) : Prop := v = .null ∨ ∃ names : List String, v = .list (names.map .text)

/-- The first of some fields that is not null; null if there is none. -/
def firstField (fields : Fields) (keys : List String) : Value :=
  ((keys.map (fieldD fields)).find? (!·.isNull)).getD .null

end Value

open Value

def NotBlank (s : String) : Prop := isBlankText s = false

instance (s : String) : Decidable (NotBlank s) := inferInstanceAs (Decidable (isBlankText s = false))

/-- The fields of a column's definition. -/
structure Column.IsForm (fields : Fields) : Prop where
  name : (firstField fields ["name", "column"]).IsText NotBlank
  comment : (firstField fields ["comment", "displayName"]).IsTextOrNull NotBlank
  type : (fieldD fields "type").IsText fun s => NotBlank s ∧ ∃ t, ColumnType.ofName? s = some t
  format : (fieldD fields "format").IsTextOrNull NotBlank
  hidden : ∀ v, field? fields "hidden" = some v → ∃ b, v = .bool b

/-- A text that is blank or a regular expression. -/
def PathRegex.Compiles (s : String) : Prop := isBlankText s = true ∨ ∃ r, Regex.compile s = .ok r

/-- The fields of a partition definition. -/
structure PartitionDefinition.IsForm (fields : Fields) : Prop where
  directoryRegex : (fieldD fields "directoryFilterRegex").IsTextOrNull PathRegex.Compiles
  fileRegex : (fieldD fields "filterRegex").IsTextOrNull PathRegex.Compiles
  directoryNames :
    (firstField fields ["directoryFilterPartitions", "directoryPartitions"]).IsTextsOrNull
  fileNames : (firstField fields ["filterPartitions", "partitions"]).IsTextsOrNull

/-- What an entry of a manifest says about partitions: the older of the two names for it counts only
if the newer one is absent. -/
def LogicalTable.partitionData (fields : Fields) : Value :=
  (field? fields "partitionDefinition").getD (fieldD fields "partitioning")

/-- The fields of an entry of a manifest, given a home directory. -/
structure LogicalTable.IsForm (home : Option String) (fields : Fields) : Prop where
  name : (fieldD fields "name").IsText NotBlank
  rootPath : (fieldD fields "rootPath").IsText fun s => NotBlank (substituteHome home s)
  fileType : (fieldD fields "dataFileType").IsText fun s => ∃ t : FileType, t.name = s
  partition : partitionData fields = .null ∨
    ∃ ps, partitionData fields = .object ps ∧ PartitionDefinition.IsForm ps
  columns : fieldD fields "columnConfig" = .null ∨
    ∃ cs : List Fields, fieldD fields "columnConfig" = .list (cs.map .object) ∧
      ∀ c ∈ cs, Column.IsForm c

/-- A manifest: a list of entries whose names all differ. -/
def Manifest.IsForm (home : Option String) (document : Value) : Prop :=
  ∃ entries : List Fields, document = .list (entries.map .object) ∧
    (∀ fields ∈ entries, LogicalTable.IsForm home fields) ∧
    (entries.map (fieldD · "name")).Nodup

/-- A text in the place of a regular expression in a document. -/
def Manifest.HasPattern (document : Value) (s : String) : Prop :=
  ∃ entries fields ps, document = .list entries ∧ .object fields ∈ entries ∧
    LogicalTable.partitionData fields = .object ps ∧
    (fieldD ps "directoryFilterRegex" = .text s ∨ fieldD ps "filterRegex" = .text s)

/-! ## Readers that accept a form -/

/-- A reader answers just if there is the form that it reads; otherwise the argument is illegal, as
far as it is reported so. -/
structure Accepts {α : Type} (reported form : Prop) (answer : Result α) : Prop where
  ok_iff : (∃ a, answer = .ok a) ↔ form
  refused : reported → ∀ f, answer = .error f → f.report.kind = .illegalArgument

namespace Accepts

variable {α β : Type} {reported form later : Prop} {answer : Result α}

theorem ok (a : α) (holds : form) : Accepts reported form (.ok a : Result α) :=
  ⟨⟨fun _ => holds, fun _ => ⟨a, rfl⟩⟩, fun _ _ failed => nomatch failed⟩

theorem refuse {c : Cause} (kind : c.report.kind = .illegalArgument) (fails : ¬ form) :
    Accepts reported form (fail c : Result α) := by
  refine ⟨⟨fun ⟨_, found⟩ => (nomatch found), fun holds => absurd holds fails⟩, ?_⟩
  intro _ f failed
  cases failed
  exact kind

theorem congr (accepts : Accepts reported form answer) (same : form ↔ later) :
    Accepts reported later answer := ⟨accepts.ok_iff.trans same, accepts.refused⟩

/-- What has the form of the first reader has that of both if it has that of the next one. -/
theorem bind {next : α → Result β} (first : Accepts reported form answer)
    (second : ∀ a, answer = .ok a → Accepts reported later (next a)) :
    Accepts reported (form ∧ later) (answer >>= next) := by
  cases answer with
  | error f =>
    have none : ¬ form := fun holds => nomatch first.ok_iff.mpr holds
    refine ⟨⟨fun ⟨_, found⟩ => (nomatch found), fun holds => absurd holds.1 none⟩, ?_⟩
    intro told g failed
    cases failed
    exact first.refused told f rfl
  | ok a =>
    have next := second a rfl
    have holds := first.ok_iff.mp ⟨a, rfl⟩
    exact ⟨next.ok_iff.trans (and_iff_right holds).symm, next.refused⟩

theorem map {f : α → β} (accepts : Accepts reported form answer) :
    Accepts reported form (answer.map f) := by
  cases answer with
  | error g =>
    refine ⟨⟨fun ⟨_, found⟩ => (nomatch found), fun holds => ?_⟩, ?_⟩
    · exact nomatch accepts.ok_iff.mpr holds
    · intro told h failed
      cases failed
      exact accepts.refused told g rfl
  | ok a => exact .ok _ (accepts.ok_iff.mp ⟨a, rfl⟩)

theorem mapM {γ : Type} {read : γ → Result β} {forms : γ → Prop} {items : List γ}
    (each : ∀ v ∈ items, Accepts reported (forms v) (read v)) :
    Accepts reported (∀ v ∈ items, forms v) (items.mapM read) := by
  induction items with
  | nil => exact .ok [] (by simp)
  | cons v rest ih =>
    have others := ih fun w member => each w (List.mem_cons_of_mem v member)
    rw [List.mapM_cons]
    refine ((each v List.mem_cons_self).bind fun a _ => ?_).congr List.forall_mem_cons.symm
    exact (others.bind fun as _ => .ok _ trivial).congr (and_iff_left trivial)

end Accepts

/-! ## Columns -/

namespace Value

theorem firstField_cons (fields : Fields) (key : String) (keys : List String) :
    firstField fields (key :: keys) =
      if (fieldD fields key).isNull then firstField fields keys else fieldD fields key := by
  simp only [firstField, List.map_cons, List.find?_cons]
  cases (fieldD fields key).isNull <;> rfl

theorem firstField_single (fields : Fields) (key : String) :
    firstField fields [key] = fieldD fields key := by
  rw [firstField_cons]
  cases fieldD fields key <;> rfl

theorem not_isText {holds : String → Prop} {v : Value} (other : ∀ s, v ≠ .text s) :
    ¬ v.IsText holds := fun ⟨s, same, _⟩ => other s same

theorem isText_text {holds : String → Prop} {s : String} : (text s).IsText holds ↔ holds s := by
  constructor
  · rintro ⟨t, same, property⟩
    cases same
    exact property
  · exact fun property => ⟨s, rfl, property⟩

theorem isTextOrNull_text {holds : String → Prop} {s : String} :
    (text s).IsTextOrNull holds ↔ holds s := by
  rw [IsTextOrNull, isText_text]
  exact or_iff_right (fun null => nomatch null)

theorem not_isTextOrNull {holds : String → Prop} {v : Value} (present : v ≠ .null)
    (other : ∀ s, v ≠ .text s) : ¬ v.IsTextOrNull holds := by
  rintro (null | isText)
  · exact present null
  · exact not_isText other isText

/-- Values that are all objects of some form are a list of such objects. -/
theorem forall_object_iff {form : Fields → Prop} {items : List Value} :
    (∀ v ∈ items, ∃ fields, v = .object fields ∧ form fields) ↔
      ∃ objects : List Fields, items = objects.map .object ∧ ∀ fields ∈ objects, form fields := by
  constructor
  · intro each
    induction items with
    | nil => exact ⟨[], rfl, by simp⟩
    | cons v rest ih =>
      obtain ⟨⟨fields, rfl, first⟩, later⟩ := List.forall_mem_cons.mp each
      obtain ⟨objects, rfl, others⟩ := ih later
      exact ⟨fields :: objects, rfl, List.forall_mem_cons.mpr ⟨first, others⟩⟩
  · rintro ⟨objects, rfl, each⟩ v member
    obtain ⟨fields, there, rfl⟩ := List.mem_map.mp member
    exact ⟨fields, rfl, each fields there⟩

end Value

namespace Column

variable {reported : Prop} {fields : Fields}

theorem accepts_textMember (keys : List String) :
    Accepts reported ((firstField fields keys).IsTextOrNull NotBlank) (textMember fields keys) := by
  induction keys with
  | nil => exact .ok none (.inl rfl)
  | cons key rest ih =>
    rw [textMember, firstField_cons]
    cases fieldD fields key with
    | null => exact ih
    | text s =>
      simp only [isNull, Bool.false_eq_true, if_false]
      split
      · rename_i blank
        exact .refuse rfl (by simp [isTextOrNull_text, NotBlank, blank])
      · rename_i solid
        exact .ok _ (isTextOrNull_text.mpr (eq_false_of_ne_true solid))
    | _ => exact .refuse rfl (not_isTextOrNull (by simp [isNull]) (by simp [isNull]))

theorem firstField_of_textMember {keys : List String} {answer : Option String}
    (read : textMember fields keys = .ok answer) :
    firstField fields keys = answer.elim .null .text := by
  induction keys with
  | nil =>
    cases read
    rfl
  | cons key rest ih =>
    rw [textMember] at read
    rw [firstField_cons]
    cases there : fieldD fields key with
    | null =>
      rw [there] at read
      exact ih read
    | text s =>
      rw [there] at read
      simp only at read
      split at read
      · cases read
      · cases read
        rfl
    | _ =>
      rw [there] at read
      cases read

theorem accepts_requiredMember (keys : List String) :
    Accepts reported ((firstField fields keys).IsText NotBlank) (requiredMember fields keys) := by
  have same : (firstField fields keys).IsTextOrNull NotBlank ∧ firstField fields keys ≠ .null ↔
      (firstField fields keys).IsText NotBlank := by
    constructor
    · rintro ⟨null | isText, present⟩
      · exact absurd null present
      · exact isText
    · rintro ⟨s, there, solid⟩
      exact ⟨.inr ⟨s, there, solid⟩, fun null => nomatch there.symm.trans null⟩
  refine ((accepts_textMember keys).bind fun answer read => ?_).congr same
  have first := firstField_of_textMember read
  cases answer with
  | none => exact .refuse rfl (by simp [first])
  | some s => exact .ok s (by simp [first])

theorem firstField_of_requiredMember {keys : List String} {s : String}
    (read : requiredMember fields keys = .ok s) : firstField fields keys = .text s := by
  rw [requiredMember] at read
  cases found : textMember fields keys with
  | error f =>
    rw [found] at read
    cases read
  | ok answer =>
    rw [found] at read
    cases answer with
    | none => cases read
    | some t =>
      cases read
      exact firstField_of_textMember found

theorem accepts_parse {s : String} (solid : NotBlank s) :
    Accepts reported (∃ t, ColumnType.ofName? s = some t) (ColumnType.parse (.text s)) := by
  simp only [ColumnType.parse, show isBlankText s = false from solid, Bool.false_eq_true, if_false]
  split
  · rename_i found named
    exact .ok _ ⟨found, named⟩
  · rename_i unknown
    exact .refuse rfl (by simp [unknown])

theorem accepts_ofValue_object (fields : Fields) :
    Accepts reported (IsForm fields) (ofValue (.object fields)) := by
  have same : (firstField fields ["name", "column"]).IsText NotBlank ∧
      (firstField fields ["comment", "displayName"]).IsTextOrNull NotBlank ∧
      (firstField fields ["type"]).IsText NotBlank ∧
      (∀ s, firstField fields ["type"] = .text s → ∃ t, ColumnType.ofName? s = some t) ∧
      (firstField fields ["format"]).IsTextOrNull NotBlank ∧
      (∀ v, field? fields "hidden" = some v → ∃ b, v = .bool b) ↔ IsForm fields := by
    rw [firstField_single, firstField_single]
    constructor
    · rintro ⟨name, comment, ⟨s, there, solid⟩, known, format, hidden⟩
      exact ⟨name, comment, ⟨s, there, solid, known s there⟩, format, hidden⟩
    · rintro ⟨name, comment, ⟨s, there, solid, known⟩, format, hidden⟩
      refine ⟨name, comment, ⟨s, there, solid⟩, fun t same => ?_, format, hidden⟩
      cases there.symm.trans same
      exact known
  refine Accepts.congr ?_ same
  rw [ofValue]
  refine (accepts_requiredMember _).bind fun name _ => ?_
  refine (accepts_textMember _).bind fun comment _ => ?_
  refine (accepts_requiredMember _).bind fun typeName read => ?_
  have isText := (@accepts_requiredMember reported _ _).ok_iff.mp ⟨_, read⟩
  have there := firstField_of_requiredMember read
  have solid := isText_text.mp (there ▸ isText)
  refine Accepts.bind ((accepts_parse solid).congr ?_) fun type _ => ?_
  · simp [there]
  refine (accepts_textMember _).bind fun format _ => ?_
  cases hidden : field? fields "hidden" with
  | none => exact .ok _ (by simp)
  | some v =>
    cases v with
    | bool b => exact .ok _ (by simp)
    | _ => exact .refuse rfl (by simp)

theorem accepts_ofValue (v : Value) :
    Accepts reported (∃ fields, v = .object fields ∧ IsForm fields) (ofValue v) := by
  cases v with
  | object fields => exact (accepts_ofValue_object fields).congr (by simp)
  | _ => exact .refuse rfl (by simp)

end Column

/-! ## Partition definitions -/

namespace PathRegex

theorem compiles_of_ofText {s : String} {r : Option PathRegex} (read : ofText s = .ok r) :
    Compiles s := by
  rw [ofText] at read
  split at read
  · rename_i blank
    exact .inl blank
  · split at read
    · rename_i r found
      exact .inr ⟨r, found⟩
    · cases read

theorem compile_of_ofText {s : String} {bad : Regex.BadPattern} (read : ofText s = .error bad) :
    isBlankText s = false ∧ Regex.compile s = .error bad := by
  rw [ofText] at read
  split at read
  · cases read
  · rename_i solid
    split at read
    · cases read
    · rename_i found
      cases read
      exact ⟨eq_false_of_ne_true solid, found⟩

end PathRegex

namespace PartitionDefinition

variable {reported : Prop} {fields : Fields} {field : String}

theorem accepts_compile {source : Option String}
    (told : reported → ∀ s, source = some s → Regex.compile s ≠ .error .countTooLarge) :
    Accepts reported (∀ s, source = some s → PathRegex.Compiles s) (compile field source) := by
  cases source with
  | none => exact .ok none (by simp)
  | some s =>
    simp only [Option.some.injEq, forall_eq'] at told ⊢
    rw [compile]
    cases read : PathRegex.ofText s with
    | ok r => exact .ok r (PathRegex.compiles_of_ofText read)
    | error bad =>
      obtain ⟨solid, failed⟩ := PathRegex.compile_of_ofText read
      have fails : ¬ PathRegex.Compiles s := by
        simp [PathRegex.Compiles, solid, failed]
      cases bad with
      | invalid => exact .refuse rfl fails
      | countTooLarge =>
        refine ⟨⟨fun ⟨_, found⟩ => (nomatch found), fun holds => absurd holds fails⟩, ?_⟩
        exact fun reports => absurd failed (told reports)

theorem accepts_regexMember :
    Accepts reported ((fieldD fields field).IsTextOrNull fun _ => True) (regexMember fields field) := by
  rw [regexMember]
  cases fieldD fields field with
  | null => exact .ok none (.inl rfl)
  | text s => exact .ok (some s) (isTextOrNull_text.mpr trivial)
  | _ => exact .refuse rfl (not_isTextOrNull (by simp) (by simp))

theorem fieldD_of_regexMember {source : Option String} (read : regexMember fields field = .ok source) :
    fieldD fields field = source.elim .null .text := by
  rw [regexMember] at read
  cases there : fieldD fields field with
  | null | text s =>
    rw [there] at read
    cases read
    rfl
  | _ =>
    rw [there] at read
    cases read

theorem texts?_list {items : List Value} {names : List String} :
    texts? (.list items) = some names ↔ items = names.map .text := by
  induction items generalizing names with
  | nil => cases names <;> simp [texts?]
  | cons v rest ih =>
    simp only [texts?] at ih ⊢
    cases v with
    | text s =>
      cases names with
      | nil => simp [List.mapM_cons, Option.bind_eq_some_iff]
      | cons n more =>
        simp only [List.mapM_cons, Option.bind_eq_bind, Option.bind_some, Option.bind_eq_some_iff, ih]
        constructor
        · rintro ⟨found, rfl, same⟩
          cases same
          rfl
        · intro same
          cases same
          exact ⟨more, rfl, rfl⟩
    | _ => cases names <;> simp [List.mapM_cons]

theorem accepts_namesMember (keys : List String) :
    Accepts reported (firstField fields keys).IsTextsOrNull (namesMember fields keys) := by
  induction keys with
  | nil => exact .ok [] (.inl rfl)
  | cons key rest ih =>
    rw [namesMember, firstField_cons]
    cases fieldD fields key with
    | null => exact ih
    | list items =>
      simp only [isNull, Bool.false_eq_true, if_false]
      cases found : texts? (.list items) with
      | some names => exact .ok names (.inr ⟨names, congrArg _ (texts?_list.mp found)⟩)
      | none =>
        refine .refuse rfl ?_
        rintro (null | ⟨names, same⟩)
        · cases null
        · cases same
          rw [texts?_list.mpr rfl] at found
          cases found
    | _ => exact .refuse rfl (by simp [IsTextsOrNull, isNull])

theorem accepts_ofValue_object (told : reported → ∀ s,
      fieldD fields "directoryFilterRegex" = .text s ∨ fieldD fields "filterRegex" = .text s →
      Regex.compile s ≠ .error .countTooLarge) :
    Accepts reported (IsForm fields) (ofValue (.object fields)) := by
  have regex : ∀ field, (fieldD fields field).IsTextOrNull PathRegex.Compiles ↔
      (fieldD fields field).IsTextOrNull (fun _ => True) ∧
        ∀ s, fieldD fields field = .text s → PathRegex.Compiles s := by
    intro field
    cases fieldD fields field with
    | null => simp [IsTextOrNull]
    | text s => simp [isTextOrNull_text]
    | _ => simp [IsTextOrNull, IsText]
  have same : (fieldD fields "directoryFilterRegex").IsTextOrNull (fun _ => True) ∧
      (fieldD fields "filterRegex").IsTextOrNull (fun _ => True) ∧
      (firstField fields ["directoryFilterPartitions", "directoryPartitions"]).IsTextsOrNull ∧
      (firstField fields ["filterPartitions", "partitions"]).IsTextsOrNull ∧
      (∀ s, fieldD fields "directoryFilterRegex" = .text s → PathRegex.Compiles s) ∧
      (∀ s, fieldD fields "filterRegex" = .text s → PathRegex.Compiles s) ↔ IsForm fields := by
    constructor
    · rintro ⟨directoryText, fileText, directoryNames, fileNames, directory, file⟩
      exact ⟨(regex _).mpr ⟨directoryText, directory⟩, (regex _).mpr ⟨fileText, file⟩, directoryNames,
        fileNames⟩
    · rintro ⟨directory, file, directoryNames, fileNames⟩
      obtain ⟨directoryText, directory⟩ := (regex _).mp directory
      obtain ⟨fileText, file⟩ := (regex _).mp file
      exact ⟨directoryText, fileText, directoryNames, fileNames, directory, file⟩
  refine Accepts.congr ?_ same
  rw [ofValue]
  refine accepts_regexMember.bind fun directory readDirectory => ?_
  refine accepts_regexMember.bind fun file readFile => ?_
  refine (accepts_namesMember _).bind fun directoryNames _ => ?_
  refine (accepts_namesMember _).bind fun fileNames _ => ?_
  have texts : ∀ {field source}, regexMember fields field = .ok source →
      ∀ s, source = some s ↔ fieldD fields field = .text s := by
    intro field source read s
    rw [fieldD_of_regexMember read]
    cases source <;> simp
  rw [of]
  refine Accepts.bind ((accepts_compile ?_).congr ?_) fun _ _ => ?_
  · intro reports s same
    exact told reports s (.inl ((texts readDirectory s).mp same))
  · simp only [texts readDirectory]
  refine (Accepts.bind ((accepts_compile ?_).congr ?_) fun _ _ => .ok _ trivial).congr
    (and_iff_left trivial)
  · intro reports s same
    exact told reports s (.inr ((texts readFile s).mp same))
  · simp only [texts readFile]

end PartitionDefinition

/-! ## Tables -/

namespace LogicalTable

variable {reported : Prop} {fields : Fields} {field : String}

theorem accepts_textMember :
    Accepts reported ((fieldD fields field).IsText fun _ => True) (textMember fields field) := by
  rw [textMember]
  cases fieldD fields field with
  | text s => exact .ok s (isText_text.mpr trivial)
  | _ => exact .refuse rfl (not_isText (by simp))

theorem fieldD_of_textMember {s : String} (read : textMember fields field = .ok s) :
    fieldD fields field = .text s := by
  rw [textMember] at read
  cases there : fieldD fields field with
  | text t =>
    rw [there] at read
    cases read
    rfl
  | _ =>
    rw [there] at read
    cases read

theorem accepts_ofName (s : String) :
    Accepts reported (∃ t : FileType, t.name = s) (FileType.ofName (.text s)) := by
  have known : ∀ t : FileType, t ∈ FileType.all := by
    intro t
    cases t <;> decide
  rw [FileType.ofName]
  split
  · rename_i t found
    exact .ok t ⟨t, by simpa using List.find?_some found⟩
  · rename_i none
    refine .refuse rfl ?_
    rintro ⟨t, rfl⟩
    exact List.find?_eq_none.mp none t (known t) (beq_self_eq_true _)

theorem partitionMember_eq (fields : Fields) : partitionMember fields =
    match partitionData fields with
    | .null => .ok none
    | v => (PartitionDefinition.ofValue v).map fun d => if d.isEmpty then none else some d := by
  rw [partitionMember, partitionData]
  cases field? fields "partitionDefinition" <;> rfl

theorem accepts_partitionMember (told : reported → ∀ ps, partitionData fields = .object ps → ∀ s,
      fieldD ps "directoryFilterRegex" = .text s ∨ fieldD ps "filterRegex" = .text s →
      Regex.compile s ≠ .error .countTooLarge) :
    Accepts reported (partitionData fields = .null ∨
      ∃ ps, partitionData fields = .object ps ∧ PartitionDefinition.IsForm ps)
      (partitionMember fields) := by
  rw [partitionMember_eq]
  generalize partitionData fields = data at told ⊢
  cases data with
  | null => exact .ok none (.inl rfl)
  | object ps =>
    refine ((PartitionDefinition.accepts_ofValue_object ?_).map).congr (by simp)
    exact fun reports s there => told reports ps rfl s there
  | _ => exact .refuse rfl (by simp)

theorem accepts_columnsMember :
    Accepts reported (fieldD fields "columnConfig" = .null ∨
      ∃ cs : List Fields, fieldD fields "columnConfig" = .list (cs.map .object) ∧
        ∀ c ∈ cs, Column.IsForm c) (columnsMember fields) := by
  rw [columnsMember]
  cases fieldD fields "columnConfig" with
  | null => exact .ok none (.inl rfl)
  | list items =>
    refine ((Accepts.mapM fun v _ => Column.accepts_ofValue v).map).congr ?_
    rw [forall_object_iff]
    simp
  | _ => exact .refuse rfl (by simp)

theorem accepts_of (name rootPath : String) (fileType : FileType)
    (partition : Option PartitionDefinition) (columns : Option (List Column)) :
    Accepts reported (NotBlank name ∧ NotBlank rootPath)
      (of name rootPath fileType partition columns) := by
  rw [of]
  split
  · rename_i blank
    exact .refuse rfl (by simp [NotBlank, blank])
  · rename_i named
    split
    · rename_i blank
      exact .refuse rfl (by simp [NotBlank, blank])
    · rename_i rooted
      exact .ok _ ⟨eq_false_of_ne_true named, eq_false_of_ne_true rooted⟩

theorem accepts_ofValue_object {home : Option String} (told : reported → ∀ ps,
      partitionData fields = .object ps → ∀ s,
      fieldD ps "directoryFilterRegex" = .text s ∨ fieldD ps "filterRegex" = .text s →
      Regex.compile s ≠ .error .countTooLarge) :
    Accepts reported (IsForm home fields) (ofValue home (.object fields)) := by
  have same : (fieldD fields "name").IsText (fun _ => True) ∧
      (fieldD fields "rootPath").IsText (fun _ => True) ∧
      (fieldD fields "dataFileType").IsText (fun _ => True) ∧
      (∀ s, fieldD fields "dataFileType" = .text s → ∃ t : FileType, t.name = s) ∧
      (partitionData fields = .null ∨
        ∃ ps, partitionData fields = .object ps ∧ PartitionDefinition.IsForm ps) ∧
      (fieldD fields "columnConfig" = .null ∨
        ∃ cs : List Fields, fieldD fields "columnConfig" = .list (cs.map .object) ∧
          ∀ c ∈ cs, Column.IsForm c) ∧
      (∀ s, fieldD fields "name" = .text s → NotBlank s) ∧
      (∀ s, fieldD fields "rootPath" = .text s → NotBlank (substituteHome home s)) ↔
      IsForm home fields := by
    constructor
    · rintro ⟨⟨name, named, -⟩, ⟨root, rooted, -⟩, ⟨type, typed, -⟩, known, partition, columns, solid,
        some⟩
      exact ⟨⟨name, named, solid name named⟩, ⟨root, rooted, some root rooted⟩,
        ⟨type, typed, known type typed⟩, partition, columns⟩
    · rintro ⟨⟨name, named, solid⟩, ⟨root, rooted, some⟩, ⟨type, typed, known⟩, partition, columns⟩
      rw [named, rooted, typed]
      simp only [isText_text, text.injEq, forall_eq', true_and]
      exact ⟨known, partition, columns, solid, some⟩
  refine Accepts.congr ?_ same
  rw [ofValue]
  refine accepts_textMember.bind fun name readName => ?_
  refine accepts_textMember.bind fun root readRoot => ?_
  refine accepts_textMember.bind fun type readType => ?_
  refine Accepts.bind ((accepts_ofName type).congr ?_) fun fileType _ => ?_
  · simp [fieldD_of_textMember readType]
  refine (accepts_partitionMember told).bind fun partition _ => ?_
  refine accepts_columnsMember.bind fun columns _ => ?_
  refine (accepts_of name _ fileType partition columns).congr ?_
  simp [fieldD_of_textMember readName, fieldD_of_textMember readRoot]

/-- What the fields of an entry say about the table that is read from them. -/
structure Describes (fields : Fields) (t : LogicalTable) : Prop where
  name : fieldD fields "name" = .text t.name
  named : NotBlank t.name
  rootPath : ∃ root, NotBlank root ∧ t.rootPath = Path.format root
  partition : partitionMember fields = .ok t.partition
  columns : columnsMember fields = .ok t.columns

theorem describes_of_ofValue {home : Option String} {t : LogicalTable}
    (read : ofValue home (.object fields) = .ok t) : Describes fields t := by
  rw [ofValue] at read
  obtain ⟨name, readName, read⟩ := ok_of_bind read
  obtain ⟨root, -, read⟩ := ok_of_bind read
  obtain ⟨type, -, read⟩ := ok_of_bind read
  obtain ⟨fileType, -, read⟩ := ok_of_bind read
  obtain ⟨partition, readPartition, read⟩ := ok_of_bind read
  obtain ⟨columns, readColumns, read⟩ := ok_of_bind read
  rw [of] at read
  split at read
  · cases read
  · rename_i named
    split at read
    · cases read
    · rename_i rooted
      cases read
      exact ⟨fieldD_of_textMember readName, eq_false_of_ne_true named,
        ⟨_, eq_false_of_ne_true rooted, rfl⟩, readPartition, readColumns⟩

end LogicalTable

/-! ## Manifests -/

namespace Manifest

variable {home : Option String} {document : Value}

/-- Tables are indexed if no name is among them twice. -/
theorem accepts_indexFrom {reported : Prop} {found : Index} {ts : List LogicalTable}
    (distinct : (found.map Prod.fst).Nodup) :
    Accepts reported (found.map Prod.fst ++ ts.map LogicalTable.name).Nodup (indexFrom found ts) := by
  induction ts generalizing found with
  | nil => exact .ok found (by simpa using distinct)
  | cons t rest ih =>
    rw [indexFrom]
    split
    · rename_i there
      refine .refuse rfl fun nodup => ?_
      obtain ⟨u, indexed⟩ := Option.isSome_iff_exists.mp there
      have member := List.mem_map_of_mem (f := Prod.fst) (mem_of_lookup_eq_some indexed)
      exact (List.nodup_append.mp nodup).2.2 t.name member t.name (by simp) rfl
    · rename_i free
      have absent : t.name ∉ found.map Prod.fst := by
        rintro member
        obtain ⟨e, inside, same⟩ := List.mem_map.mp member
        apply free
        rw [← same, lookup_of_mem distinct inside]
        rfl
      have next : ((found ++ [(t.name, t)]).map Prod.fst).Nodup := by
        rw [List.map_append, List.nodup_append]
        refine ⟨distinct, by simp, fun n member m single => ?_⟩
        rintro rfl
        simp only [List.map_cons, List.map_nil, List.mem_singleton] at single
        exact absent (single ▸ member)
      refine (ih next).congr ?_
      simp

theorem indexFrom_eq_ok {found answer : Index} {ts : List LogicalTable}
    (read : indexFrom found ts = .ok answer) : answer = found ++ ts.map fun t => (t.name, t) := by
  induction ts generalizing found with
  | nil =>
    cases read
    simp
  | cons t rest ih =>
    rw [indexFrom] at read
    split at read
    · cases read
    · rw [ih read]
      simp

/-- The tables that entries define, each with the fields that describe it. -/
theorem forall₂_of_tables {entries : List Fields} {ts : List LogicalTable}
    (read : tables home (.list (entries.map .object)) = .ok ts) :
    List.Forall₂ (fun fields t => LogicalTable.ofValue home (.object fields) = .ok t) entries ts :=
  List.forall₂_map_left_iff.mp (forall₂_of_mapM read)

theorem map_name_of_forall₂ {entries : List Fields} {ts : List LogicalTable}
    (read : List.Forall₂ (fun fields t => LogicalTable.ofValue home (.object fields) = .ok t)
      entries ts) : entries.map (fieldD · "name") = (ts.map LogicalTable.name).map .text := by
  induction read with
  | nil => rfl
  | cons first _ ih => simp [ih, (LogicalTable.describes_of_ofValue first).name]

theorem accepts_indexOf (home : Option String) (document : Value) :
    Accepts (∀ s, HasPattern document s → Regex.compile s ≠ .error .countTooLarge)
      (IsForm home document) (indexOf home document) := by
  cases document with
  | list items =>
    have same : (∃ entries : List Fields, items = entries.map .object ∧
        ∀ fields ∈ entries, LogicalTable.IsForm home fields) ∧
        (∀ entries : List Fields, items = entries.map .object → (entries.map (fieldD · "name")).Nodup) ↔
        IsForm home (.list items) := by
      constructor
      · rintro ⟨⟨entries, rfl, each⟩, distinct⟩
        exact ⟨entries, rfl, each, distinct entries rfl⟩
      · rintro ⟨entries, same, each, distinct⟩
        cases same
        refine ⟨⟨entries, rfl, each⟩, fun others alike => ?_⟩
        rw [← List.map_injective_iff.mpr (fun _ _ => Value.object.inj) alike]
        exact distinct
    have each : Accepts (∀ s, HasPattern (.list items) s → Regex.compile s ≠ .error .countTooLarge)
        (∃ entries : List Fields, items = entries.map .object ∧
          ∀ fields ∈ entries, LogicalTable.IsForm home fields) (tables home (.list items)) := by
      refine Accepts.congr (Accepts.mapM fun v member => ?_) forall_object_iff
      cases v with
      | object fields =>
        refine (LogicalTable.accepts_ofValue_object ?_).congr (by simp)
        exact fun told ps data s there => told s ⟨items, fields, ps, rfl, member, data, there⟩
      | _ => exact .refuse rfl (by simp)
    refine (each.bind fun ts read => ?_).congr same
    refine (@accepts_indexFrom _ [] ts List.nodup_nil).congr ?_
    obtain ⟨entries, rfl, -⟩ := each.ok_iff.mp ⟨ts, read⟩
    have names := map_name_of_forall₂ (forall₂_of_tables read)
    have distinct : (entries.map (fieldD · "name")).Nodup ↔ (ts.map LogicalTable.name).Nodup := by
      rw [names, List.nodup_map_iff fun _ _ => Value.text.inj]
    constructor
    · intro nodup others alike
      rw [← List.map_injective_iff.mpr (fun _ _ => Value.object.inj) alike]
      exact distinct.mpr nodup
    · intro nodup
      exact distinct.mp (nodup entries rfl)
  | _ => exact .refuse rfl (by simp [IsForm])

/-- A document gives an index of tables just if it has the form of a manifest. The index has the
tables of the entries in their order, each under its own name. A document of any other form is refused
as an illegal argument, unless a count in one of its regular expressions is too large. -/
theorem indexOf_settled (home : Option String) (document : Value) :
    ((∃ found, indexOf home document = .ok found) ↔ IsForm home document) ∧
    (∀ found, indexOf home document = .ok found →
      ∃ (entries : List Fields) (ts : List LogicalTable), document = .list (entries.map .object) ∧
        List.Forall₂ (fun fields t => LogicalTable.ofValue home (.object fields) = .ok t ∧
          fieldD fields "name" = .text t.name) entries ts ∧
        found = ts.map (fun t => (t.name, t)) ∧ ∀ t ∈ ts, found.lookup t.name = some t) ∧
    ((∀ s, HasPattern document s → Regex.compile s ≠ .error .countTooLarge) →
      ∀ f, indexOf home document = .error f → f.report.kind = .illegalArgument) := by
  have accepts := accepts_indexOf home document
  refine ⟨accepts.ok_iff, fun found read => ?_, accepts.refused⟩
  obtain ⟨entries, rfl, -, distinct⟩ := accepts.ok_iff.mp ⟨found, read⟩
  obtain ⟨ts, tables, indexed⟩ := ok_of_bind read
  have each := forall₂_of_tables tables
  have whole : found = ts.map fun t => (t.name, t) := indexFrom_eq_ok indexed
  refine ⟨entries, ts, rfl, ?_, whole, fun t member => ?_⟩
  · exact each.imp fun fields t read => ⟨read, (LogicalTable.describes_of_ofValue read).name⟩
  · rw [map_name_of_forall₂ each, List.nodup_map_iff fun _ _ => Value.text.inj] at distinct
    rw [whole]
    apply lookup_of_mem
    · simpa [Function.comp_def] using distinct
    · exact List.mem_map_of_mem member

/-- An entry with a group in its regular expression that is not closed. -/
def unclosedEntry : Fields :=
  [("name", .text "a"), ("rootPath", .text "~~/a"), ("dataFileType", .text "CSV"),
    ("partitioning", .object [("filterRegex", .text "(")])]

/-- The document is refused for its expression alone: its other members have the required form. -/
theorem indexOf_settled_unclosed :
    ¬ IsForm (some "/home") (.list [.object unclosedEntry]) ∧
      ∃ f, indexOf (some "/home") (.list [.object unclosedEntry]) = .error f ∧
        f.report.kind = .illegalArgument := by
  obtain ⟨accepted, -, refused⟩ := indexOf_settled (some "/home") (.list [.object unclosedEntry])
  have told : ∀ s, HasPattern (.list [.object unclosedEntry]) s →
      Regex.compile s ≠ .error .countTooLarge := by
    rintro s ⟨entries, fields, ps, same, member, data, there⟩
    cases same
    cases List.mem_singleton.mp member
    cases data
    rcases there with there | there
    · cases there
    · cases there
      have invalid : Regex.compile "(" = .error .invalid := by rfl
      rw [invalid]
      simp
  have none : (indexOf (some "/home") (.list [.object unclosedEntry])).toOption.isNone = true := by
    decide +kernel
  cases failed : indexOf (some "/home") (.list [.object unclosedEntry]) with
  | ok found =>
    rw [failed] at none
    cases none
  | error f =>
    refine ⟨fun form => ?_, f, rfl, refused told f failed⟩
    obtain ⟨found, read⟩ := accepted.mpr form
    cases failed.symm.trans read

end Manifest

end SchemaOnRead
