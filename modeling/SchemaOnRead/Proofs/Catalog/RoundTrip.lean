import SchemaOnRead.Proofs.Catalog.WellFormed
import SchemaOnRead.Proofs.Json5.Written

/-!
# Manifests that are written and read again

Tables that were read from a manifest are in standard form: root paths are formatted, repeated names
and empty partition definitions are gone, blank texts stand for nothing, and formats that a type's name
implied are spelt out. Such tables are what is read from their own entries, under any home directory
(`LogicalTable.ofValue_toValue`), so a manifest that is written from them gives them back in the order
of their names (`Manifest.parse_write`). All that matters of the reader and the writer of documents is
that the one undoes the other (`Manifest.parseBy_writeBy`).
-/

namespace SchemaOnRead

open Text Value

/-- Values are read again in a list if each of them is read again. -/
theorem mapM_of_forall {α : Type} {write : α → Value} {read : Value → Result α} {as : List α}
    (each : ∀ a ∈ as, read (write a) = .ok a) : (as.map write).mapM read = .ok as := by
  rw [List.mapM_map]
  exact (mapM_eq_ok each).trans (by rw [List.map_id'])

/-! ## Columns -/

namespace Column

/-- A column in standard form: one with no blank text, and without an index. -/
structure IsStandard (c : Column) : Prop where
  name : NotBlank c.name
  comment : ∀ s, c.comment = some s → NotBlank s
  format : ∀ s, c.format = some s → NotBlank s
  data : c.index = none

variable {fields : Fields} {keys : List String}

theorem textMember_eq_ok_iff {answer : Option String} : textMember fields keys = .ok answer ↔
    firstField fields keys = answer.elim .null .text ∧ ∀ s, answer = some s → NotBlank s := by
  have accepts := @accepts_textMember True fields keys
  constructor
  · intro read
    have first := firstField_of_textMember read
    refine ⟨first, ?_⟩
    rintro s rfl
    have form := accepts.ok_iff.mp ⟨_, read⟩
    rw [first] at form
    exact isTextOrNull_text.mp form
  · rintro ⟨first, solid⟩
    have form : (firstField fields keys).IsTextOrNull NotBlank := by
      rw [first]
      cases answer with
      | none => exact .inl rfl
      | some s => exact isTextOrNull_text.mpr (solid s rfl)
    obtain ⟨found, read⟩ := accepts.ok_iff.mpr form
    have same := (firstField_of_textMember read).symm.trans first
    cases found <;> cases answer <;> cases same
    · exact read
    · exact read

theorem requiredMember_eq_ok_iff {s : String} : requiredMember fields keys = .ok s ↔
    firstField fields keys = .text s ∧ NotBlank s := by
  constructor
  · intro read
    have first := firstField_of_requiredMember read
    have form := (@accepts_requiredMember True fields keys).ok_iff.mp ⟨s, read⟩
    rw [first] at form
    exact ⟨first, isText_text.mp form⟩
  · rintro ⟨first, solid⟩
    rw [requiredMember, textMember_eq_ok_iff.mpr ⟨first, fun t same => Option.some.inj same ▸ solid⟩]
    rfl

theorem notBlank_of_alias :
    ∀ a ∈ ColumnType.aliases, ∀ format ∈ a.2.2, NotBlank format := by decide +kernel

/-- A name of a type implies no blank format. -/
theorem notBlank_of_ofName {s : String} {type : ColumnType} {format : String}
    (named : ColumnType.ofName? s = some (type, some format)) : NotBlank format := by
  rw [ColumnType.ofName?] at named
  split at named
  · cases named
  · rcases Option.or_eq_some_iff.mp named with found | ⟨-, found⟩
    · exact notBlank_of_alias _ (mem_of_lookup_eq_some found) format rfl
    · exact notBlank_of_alias _ (mem_of_lookup_eq_some found) format rfl

/-- A type is found by its own name, which implies no format. -/
theorem parse_name (type : ColumnType) : ColumnType.parse (.text type.name) = .ok (type, none) := by
  cases type <;> rfl

theorem isStandard_of_ofValue {v : Value} {c : Column} (read : ofValue v = .ok c) : IsStandard c := by
  cases v with
  | object fields =>
    rw [ofValue] at read
    obtain ⟨name, readName, read⟩ := ok_of_bind read
    obtain ⟨comment, readComment, read⟩ := ok_of_bind read
    obtain ⟨typeName, -, read⟩ := ok_of_bind read
    obtain ⟨⟨type, implied⟩, readType, read⟩ := ok_of_bind read
    obtain ⟨format, readFormat, read⟩ := ok_of_bind read
    have written : ∀ s, format.or implied = some s → NotBlank s := by
      intro s given
      rcases Option.or_eq_some_iff.mp given with own | ⟨-, byName⟩
      · exact (textMember_eq_ok_iff.mp readFormat).2 s own
      · rw [ColumnType.parse] at readType
        split at readType
        · cases readType
        · split at readType
          · rename_i found named
            cases readType
            exact notBlank_of_ofName (byName ▸ named)
          · cases readType
    have solid := (requiredMember_eq_ok_iff.mp readName).2
    have remark := (textMember_eq_ok_iff.mp readComment).2
    dsimp only at read
    split at read
    · cases read
      exact ⟨solid, remark, written, rfl⟩
    · cases read
      exact ⟨solid, remark, written, rfl⟩
    · cases read
  | _ => cases read

/-- A column without its index. -/
def data (c : Column) : Column := { c with index := none }

/-- What the definition of a column says about the members that it need not have. -/
theorem toFields_optional (c : Column) :
    firstField c.toFields ["comment", "displayName"] = c.comment.elim .null .text ∧
      firstField c.toFields ["format"] = c.format.elim .null .text ∧
      field? c.toFields "hidden" = if c.hidden then some (.bool true) else none := by
  obtain ⟨name, type, comment, format, hidden, index⟩ := c
  cases comment <;> cases format <;> cases hidden <;> cases index <;> exact ⟨rfl, rfl, rfl⟩

/-- What a definition says about a column but for its index is read from it. -/
theorem ofValue_data {c : Column} (standard : IsStandard c.data) : ofValue c.toValue = .ok c.data := by
  obtain ⟨comment, format, hidden⟩ := toFields_optional c
  have readName : requiredMember c.toFields ["name", "column"] = .ok c.name :=
    requiredMember_eq_ok_iff.mpr ⟨rfl, standard.name⟩
  have readComment := textMember_eq_ok_iff.mpr ⟨comment, standard.comment⟩
  have readType : requiredMember c.toFields ["type"] = .ok c.type.name := by
    refine requiredMember_eq_ok_iff.mpr ⟨rfl, ?_⟩
    cases c.type <;> decide
  have readFormat := textMember_eq_ok_iff.mpr ⟨format, standard.format⟩
  rw [toValue, ofValue]
  simp only [readName, readComment, readType, readFormat, hidden, parse_name, bind, Except.bind,
    Option.or_none]
  cases isHidden : c.hidden <;> simp only [Bool.false_eq_true, if_true, if_false] <;>
    simp only [data, isHidden, pure, Except.pure]

/-- A column in standard form is what is read from its definition. -/
theorem ofValue_toValue {c : Column} (standard : IsStandard c) : ofValue c.toValue = .ok c := by
  have same : c.data = c := by rw [data, ← standard.data]
  rw [← same] at standard
  rw [ofValue_data standard, same]

theorem plain_toValue {c : Column} (data : c.index = none) : Json5.Plain c.toValue := by
  obtain ⟨name, type, comment, format, hidden, index⟩ := c
  cases data
  refine .object ?_ ?_
  · cases comment <;> cases format <;> cases hidden <;> simp [toFields]
  · cases comment <;> cases format <;> cases hidden <;>
      simp [toFields, Json5.Plain.text, Json5.Plain.bool]

end Column

/-! ## Partition definitions -/

namespace PartitionDefinition

theorem eraseDups_of_nodup {names : List String} (distinct : names.Nodup) : names.eraseDups = names := by
  induction names with
  | nil => rfl
  | cons n rest ih =>
    obtain ⟨new, others⟩ := List.nodup_cons.mp distinct
    have kept : rest.filter (fun m => !m == n) = rest := by
      rw [List.filter_eq_self]
      intro m member
      simp only [Bool.not_eq_true', beq_eq_false_iff_ne]
      rintro rfl
      exact new member
    rw [List.eraseDups_cons, kept, ih others]

theorem compile_source (field : String) (r : Option PathRegex) : compile field (regexText r) = .ok r := by
  cases r with
  | none => rfl
  | some r =>
    simp only [regexText, Option.map_some, compile, PathRegex.ofText_source]

theorem namesMember_of_texts {fields : Fields} {key : String} {names : List String}
    (there : fieldD fields key = .list (names.map .text)) (others : List String) :
    namesMember fields (key :: others) = .ok names := by
  rw [namesMember, there]
  simp only [texts?_list.mpr rfl]

/-- A definition is made of its own parts. -/
theorem of_parts (d : PartitionDefinition) :
    of (regexText d.directoryRegex) (regexText d.fileRegex) d.directoryNames d.fileNames = .ok d := by
  obtain ⟨directoryRegex, fileRegex, directoryNames, fileNames, directoryDistinct, fileDistinct⟩ := d
  rw [of, compile_source, compile_source]
  simp only [bind, Except.bind, eraseDups_of_nodup directoryDistinct, eraseDups_of_nodup fileDistinct]
  rfl

/-- The members that describe a partition definition. -/
def toFields (d : PartitionDefinition) : Fields :=
  regexField "directoryFilterRegex" d.directoryRegex ++ regexField "filterRegex" d.fileRegex ++
    [("directoryFilterPartitions", .list (d.directoryNames.map .text)),
      ("filterPartitions", .list (d.fileNames.map .text))]

theorem toValue_eq (d : PartitionDefinition) : d.toValue = .object d.toFields := rfl

/-- A partition definition is what is read from the value that describes it. -/
theorem ofValue_toValue (d : PartitionDefinition) : ofValue d.toValue = .ok d := by
  have fields : fieldD d.toFields "directoryFilterRegex" = (regexText d.directoryRegex).elim .null .text ∧
      fieldD d.toFields "filterRegex" = (regexText d.fileRegex).elim .null .text ∧
      fieldD d.toFields "directoryFilterPartitions" = .list (d.directoryNames.map .text) ∧
      fieldD d.toFields "filterPartitions" = .list (d.fileNames.map .text) := by
    obtain ⟨directoryRegex, fileRegex, directoryNames, fileNames, -, -⟩ := d
    cases directoryRegex <;> cases fileRegex <;> exact ⟨rfl, rfl, rfl, rfl⟩
  obtain ⟨directory, file, directoryNames, fileNames⟩ := fields
  have regex : ∀ {field : String} {r : Option PathRegex},
      fieldD d.toFields field = (regexText r).elim .null .text →
      regexMember d.toFields field = .ok (regexText r) := by
    intro field r there
    rw [regexMember, there]
    cases r <;> rfl
  rw [toValue_eq, ofValue, regex directory, regex file]
  simp only [bind, Except.bind, namesMember_of_texts directoryNames, namesMember_of_texts fileNames]
  exact of_parts d

theorem plain_texts (names : List String) : Json5.Plain (.list (names.map .text)) := by
  refine .list fun v member => ?_
  obtain ⟨s, -, rfl⟩ := List.mem_map.mp member
  exact .text s

theorem plain_toValue (d : PartitionDefinition) : Json5.Plain d.toValue := by
  obtain ⟨directoryRegex, fileRegex, directoryNames, fileNames, -, -⟩ := d
  refine .object ?_ ?_
  · cases directoryRegex <;> cases fileRegex <;> simp [regexField]
  · cases directoryRegex <;> cases fileRegex <;>
      simp [regexField, Json5.Plain.text, plain_texts]

end PartitionDefinition

/-! ## Tables -/

namespace LogicalTable

/-- A table in standard form: its name is not blank, its root path is formatted, its partition
definition says something, and its columns are in standard form. -/
structure IsStandard (t : LogicalTable) : Prop where
  name : NotBlank t.name
  rootPath : ∃ path, t.rootPath = Path.format path
  partition : ∀ d, t.partition = some d → d.isEmpty = false
  columns : ∀ cs, t.columns = some cs → ∀ c ∈ cs, Column.IsStandard c

theorem isEmpty_of_partitionMember {fields : Fields} {d : PartitionDefinition}
    (read : partitionMember fields = .ok (some d)) : d.isEmpty = false := by
  rw [partitionMember_eq] at read
  split at read
  · cases read
  · cases found : PartitionDefinition.ofValue (partitionData fields) with
    | error f =>
      rw [found] at read
      cases read
    | ok e =>
      rw [found] at read
      simp only [Except.map, Except.ok.injEq] at read
      split at read
      · cases read
      · rename_i some
        cases read
        exact eq_false_of_ne_true some

theorem isStandard_of_columnsMember {fields : Fields} {cs : List Column}
    (read : columnsMember fields = .ok (some cs)) : ∀ c ∈ cs, Column.IsStandard c := by
  rw [columnsMember] at read
  split at read
  · cases read
  · rename_i items _
    cases found : items.mapM Column.ofValue with
    | error f =>
      rw [found] at read
      cases read
    | ok ds =>
      rw [found] at read
      cases read
      intro c member
      obtain ⟨v, -, made⟩ := (exists_of_mem_mapM found).1 c member
      exact Column.isStandard_of_ofValue made
  · cases read

theorem isStandard_of_describes {fields : Fields} {t : LogicalTable} (describes : Describes fields t) :
    IsStandard t := by
  obtain ⟨root, -, formatted⟩ := describes.rootPath
  refine ⟨describes.named, ⟨root, formatted⟩, ?_, ?_⟩
  · intro d said
    exact isEmpty_of_partitionMember (said ▸ describes.partition)
  · intro cs declared
    exact isStandard_of_columnsMember (declared ▸ describes.columns)

theorem format_format (path : String) : Path.format (Path.format path) = Path.format path := by
  rw [Path.format, Path.format, String.toList_ofList, Path.formatChars, Path.segments_formatChars]
  rfl

theorem format_slash (path : String) : ∃ rest, (Path.format path).toList = '/' :: rest := by
  rw [Path.format, String.toList_ofList, Path.formatChars]
  cases Path.segments path.toList with
  | nil => exact ⟨[], rfl⟩
  | cons s rest => cases rest <;> exact ⟨_, rfl⟩

/-- A home directory changes no formatted path. -/
theorem substituteHome_format (home : Option String) (path : String) :
    substituteHome home (Path.format path) = Path.format path := by
  obtain ⟨rest, slash⟩ := format_slash path
  cases home with
  | none => rfl
  | some home =>
    rw [substituteHome, slash]
    rfl

theorem notBlank_format (path : String) : NotBlank (Path.format path) := by
  obtain ⟨rest, slash⟩ := format_slash path
  rw [NotBlank, isBlankText, slash]
  rfl

/-- The members of an entry that defines a table. -/
def toFields (t : LogicalTable) : Fields :=
  [("name", .text t.name), ("rootPath", .text t.rootPath),
    ("dataFileType", .text t.fileType.name)] ++
    (match t.partition with
      | some d => [("partitionDefinition", d.toValue)]
      | none => []) ++
    (match t.columns with
      | some cs => [("columnConfig", .list (cs.map Column.toValue))]
      | none => [])

theorem toValue_eq (t : LogicalTable) : t.toValue = .object t.toFields := rfl

theorem ofName_name (t : FileType) : FileType.ofName (.text t.name) = .ok t := by
  cases t <;> rfl

/-- A table in standard form is what is read from its entry, under any home directory. -/
theorem ofValue_toValue {t : LogicalTable} (standard : IsStandard t) (home : Option String) :
    ofValue home t.toValue = .ok t := by
  obtain ⟨path, formatted⟩ := standard.rootPath
  have optional : partitionData t.toFields = (t.partition.map PartitionDefinition.toValue).getD .null ∧
      fieldD t.toFields "columnConfig" =
        (t.columns.map fun cs => .list (cs.map Column.toValue)).getD .null := by
    obtain ⟨name, rootPath, fileType, partition, columns⟩ := t
    cases partition <;> cases columns <;> exact ⟨rfl, rfl⟩
  have partition : partitionMember t.toFields = .ok t.partition := by
    rw [partitionMember_eq, optional.1]
    cases said : t.partition with
    | none => rfl
    | some d =>
      have read := PartitionDefinition.ofValue_toValue d
      rw [PartitionDefinition.toValue_eq] at read
      simp only [Option.map_some, Option.getD_some, PartitionDefinition.toValue_eq, read, Except.map,
        standard.partition d said]
      rfl
  have columns : columnsMember t.toFields = .ok t.columns := by
    rw [columnsMember, optional.2]
    cases declared : t.columns with
    | none => rfl
    | some cs =>
      have read := mapM_of_forall fun c member =>
        Column.ofValue_toValue (standard.columns cs declared c member)
      simp only [Option.map_some, Option.getD_some, read]
      rfl
  have name : textMember t.toFields "name" = .ok t.name := rfl
  have rootPath : textMember t.toFields "rootPath" = .ok t.rootPath := rfl
  have fileType : textMember t.toFields "dataFileType" = .ok t.fileType.name := rfl
  have made : of t.name t.rootPath t.fileType t.partition t.columns = .ok t := by
    rw [of, if_neg (by simp [show isBlankText t.name = false from standard.name]),
      if_neg (by simp [formatted, show isBlankText (Path.format path) = false from notBlank_format path]),
      formatted, format_format, ← formatted]
  rw [toValue_eq, ofValue]
  simp only [name, rootPath, fileType, partition, columns, ofName_name, bind, Except.bind]
  rw [formatted, substituteHome_format, ← formatted]
  exact made

theorem plain_toValue {t : LogicalTable} (standard : IsStandard t) : Json5.Plain t.toValue := by
  have columns : ∀ cs, t.columns = some cs → Json5.Plain (.list (cs.map Column.toValue)) := by
    intro cs declared
    refine .list fun v member => ?_
    obtain ⟨c, there, rfl⟩ := List.mem_map.mp member
    exact Column.plain_toValue (standard.columns cs declared c there).data
  obtain ⟨name, rootPath, fileType, partition, declared⟩ := t
  refine .object ?_ ?_
  · cases partition <;> cases declared <;> simp
  · cases partition <;> cases declared <;>
      simp [Json5.Plain.text, PartitionDefinition.plain_toValue, columns]

end LogicalTable

/-! ## Manifests -/

namespace Manifest

variable {t : LogicalTable} {us ts : List LogicalTable}

/-- A table goes before those of its own name, so tables of one name keep their order. -/
theorem filter_insertByName (name : String) (t : LogicalTable) (us : List LogicalTable) :
    (insertByName t us).filter (·.name == name) = (t :: us).filter (·.name == name) := by
  induction us with
  | nil => rfl
  | cons u rest ih =>
    rw [insertByName]
    split
    · rename_i before
      have different : u.name ≠ t.name := by
        intro same
        rw [same] at before
        exact String.lt_irrefl _ before
      rw [List.filter_cons, ih]
      by_cases here : u.name = name
      · have other : ¬ t.name = name := fun same => different (here.trans same.symm)
        simp [here, other]
      · simp [List.filter_cons, here]
    · rfl

/-- Sorting keeps the order of tables of one name. -/
theorem filter_sortByName (name : String) (ts : List LogicalTable) :
    (sortByName ts).filter (·.name == name) = ts.filter (·.name == name) := by
  induction ts with
  | nil => rfl
  | cons t rest ih =>
    rw [sortByName, List.foldr_cons, filter_insertByName, List.filter_cons, List.filter_cons]
    rw [sortByName] at ih
    rw [ih]

/-- Lists that keep the same tables of each name have the same tables. -/
theorem mem_iff_of_filter (same : ∀ name, us.filter (·.name == name) = ts.filter (·.name == name)) :
    t ∈ us ↔ t ∈ ts := by
  have alike := congrArg (t ∈ ·) (same t.name)
  simpa using alike

theorem pairwise_insertByName (sorted : us.Pairwise fun t u => t.name ≤ u.name) :
    (insertByName t us).Pairwise fun t u => t.name ≤ u.name := by
  induction us with
  | nil => exact List.pairwise_singleton _ t
  | cons u rest ih =>
    obtain ⟨first, later⟩ := List.pairwise_cons.mp sorted
    rw [insertByName]
    split
    · rename_i before
      refine List.pairwise_cons.mpr ⟨fun v member => ?_, ih later⟩
      have among := (mem_iff_of_filter fun name => filter_insertByName name t rest).mp member
      rcases List.mem_cons.mp among with rfl | old
      · exact String.not_lt.mp (String.lt_asymm before)
      · exact first v old
    · rename_i after
      have least := String.not_lt.mp after
      refine List.pairwise_cons.mpr ⟨List.forall_mem_cons.mpr ⟨least, fun v member => ?_⟩, sorted⟩
      exact String.le_trans least (first v member)

theorem pairwise_sortByName (ts : List LogicalTable) :
    (sortByName ts).Pairwise fun t u => t.name ≤ u.name := by
  induction ts with
  | nil => exact .nil
  | cons t rest ih => exact pairwise_insertByName ih

/-- Tables that a document defines are in standard form. -/
theorem isStandard_of_tables {home : Option String} {v : Value} (read : tables home v = .ok ts) :
    ∀ t ∈ ts, LogicalTable.IsStandard t := by
  cases v with
  | list entries =>
    intro t member
    obtain ⟨entry, -, made⟩ := (exists_of_mem_mapM read).1 t member
    cases entry with
    | object fields =>
      exact LogicalTable.isStandard_of_describes (LogicalTable.describes_of_ofValue made)
    | _ => cases made
  | _ => cases read

section

variable {reader : String → Except String Value} {writer : Value → String}

/-- Tables that were read from a manifest are in standard form. -/
theorem isStandard_of_parseBy {home : Option String} {text : String}
    (read : parseBy reader home text = .ok ts) : ∀ t ∈ ts, LogicalTable.IsStandard t := by
  rw [parseBy] at read
  split at read
  · exact isStandard_of_tables read
  · cases read

/-- Tables in standard form are read again from a manifest that is written from them, by any reader of
documents that undoes the writer. -/
theorem parseBy_writeBy (undoes : Json5.Undoes reader writer)
    (standard : ∀ t ∈ ts, LogicalTable.IsStandard t) (home : Option String) :
    parseBy reader home (writeBy writer ts) = .ok (sortByName ts) := by
  have sorted : ∀ t ∈ sortByName ts, LogicalTable.IsStandard t := by
    intro t member
    exact standard t ((mem_iff_of_filter fun name => filter_sortByName name ts).mp member)
  have plain : Json5.Plain (.list ((sortByName ts).map LogicalTable.toValue)) := by
    refine .list fun v member => ?_
    obtain ⟨t, there, rfl⟩ := List.mem_map.mp member
    exact LogicalTable.plain_toValue (sorted t there)
  rw [parseBy, writeBy, undoes plain]
  exact mapM_of_forall fun t member => LogicalTable.ofValue_toValue (sorted t member) home

end

/-- Tables that were read from a manifest are read again from the manifest that is written from them,
under any home directory: sorted by name, and those of one name in the order that they had. -/
theorem parse_write {home : Option String} {text : String} (read : parse home text = .ok ts)
    (home' : Option String) :
    parse home' (write ts) = .ok (sortByName ts) ∧
      ((sortByName ts).Pairwise fun t u => t.name ≤ u.name) ∧
      ∀ name, (sortByName ts).filter (·.name == name) = ts.filter (·.name == name) := by
  have standard := isStandard_of_parseBy read
  refine ⟨parseBy_writeBy Json5.undoes_readText standard home', pairwise_sortByName ts, fun name => ?_⟩
  exact filter_sortByName name ts

/-- Two tables that are out of order, the first one with a home marker and with a repeated name. -/
def outOfOrder : String :=
  "[\x7b'name':'b','rootPath':'~~//x','dataFileType':'CSV','partitioning':\x7b'partitions':" ++
    "['p','p']\x7d\x7d,\x7b'name':'a','rootPath':'y','dataFileType':'CSV'\x7d]"

/-- The tables are read in the order of the document and read again in the order of their names, by a
reader that knows no home directory: the first one was resolved when it was read. -/
theorem parse_write_outOfOrder : ∃ ts, parse (some "/home/") outOfOrder = .ok ts ∧
    ts.map (·.name) = ["b", "a"] ∧ parse none (write ts) = .ok (sortByName ts) := by
  have names : (parse (some "/home/") outOfOrder).toOption.map (·.map (·.name)) = some ["b", "a"] := by
    decide +kernel
  obtain ⟨ts, found, same⟩ := Option.map_eq_some_iff.mp names
  exact ⟨ts, ok_of_toOption found, same, (parse_write (ok_of_toOption found) none).1⟩

end Manifest

end SchemaOnRead
