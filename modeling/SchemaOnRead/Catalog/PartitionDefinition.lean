import SchemaOnRead.Catalog.Column
import SchemaOnRead.Regex.Reader
import SchemaOnRead.Storage.Path

/-!
# Partition definitions

A table may be partitioned by the paths of its objects: one regular expression reads values from the
directories, another from the files, and each has a list of names for its capture groups.
`PartitionDefinition.values` gives the values that an object's path holds.
-/

namespace SchemaOnRead

open Text

/-- The level of a path at which a partition column is read. -/
inductive PartitionLevel where
  | directory
  | file
  deriving DecidableEq, Repr

/-- The word for a level in comments. -/
def PartitionLevel.word : PartitionLevel → String
  | directory => "directory"
  | file => "file"

/-- A regular expression that has been read from a text that is not blank. It is told apart by its
text. -/
structure PathRegex where
  regex : Regex
  read : Regex.compile regex.source = .ok regex
  notBlank : isBlankText regex.source = false

namespace PathRegex

instance : BEq PathRegex := ⟨fun a b => a.regex.source == b.regex.source⟩

/-- Reads a regular expression; blank text stands for none. -/
def ofText (s : String) : Except Regex.BadPattern (Option PathRegex) :=
  if blank : isBlankText s then .ok none
  else match read : Regex.compile s with
    | .ok r => .ok (some ⟨r, Regex.source_of_compile read ▸ read,
        Regex.source_of_compile read ▸ eq_false_of_ne_true blank⟩)
    | .error bad => .error bad

/-- A regular expression is read again from its text. -/
theorem ofText_source (r : PathRegex) : ofText r.regex.source = .ok (some r) := by
  rw [ofText, dif_neg (by simp [r.notBlank])]
  split
  · rename_i other again
    have same : other = r.regex := Except.ok.inj (again.symm.trans r.read)
    cases same
    rfl
  · rename_i bad again
    cases again.symm.trans r.read

theorem eq_of_source_eq {a b : PathRegex} (same : a.regex.source = b.regex.source) : a = b := by
  have found := ofText_source a
  rw [same, ofText_source b] at found
  cases found
  rfl

instance : LawfulBEq PathRegex where
  rfl {a} := beq_self_eq_true a.regex.source
  eq_of_beq same := eq_of_source_eq (eq_of_beq same)

end PathRegex

/-- How the paths of a table's objects hold the values of partition columns. No level has two columns
of one name. -/
structure PartitionDefinition where
  directoryRegex : Option PathRegex := none
  fileRegex : Option PathRegex := none
  directoryNames : List String := []
  fileNames : List String := []
  directoryNames_nodup : directoryNames.Nodup := by exact List.nodup_nil
  fileNames_nodup : fileNames.Nodup := by exact List.nodup_nil
  deriving BEq, ReflBEq, LawfulBEq

namespace PartitionDefinition

def regexText (r : Option PathRegex) : Option String := r.map (·.regex.source)

def isEmpty (d : PartitionDefinition) : Bool :=
  d.directoryRegex.isNone && d.fileRegex.isNone && d.directoryNames.isEmpty && d.fileNames.isEmpty

/-! ## Definitions as values -/

/-- Reads a regular expression of a definition; blank text stands for none. -/
def compile (field : String) (source : Option String) : Result (Option PathRegex) :=
  match source with
  | none => .ok none
  | some s =>
    match PathRegex.ofText s with
    | .ok r => .ok r
    | .error .invalid => fail (.badRegex field s)
    | .error .countTooLarge => fail (.other .overflow)

/-- The text of a regular expression in a definition. -/
def regexMember (fields : Value.Fields) (field : String) : Result (Option String) :=
  match Value.fieldD fields field with
  | .null => .ok none
  | .text s => .ok (some s)
  | v => fail (.regexNotText field v)

/-- A list of texts; `none` if a value is anything else. -/
def texts? : Value → Option (List String)
  | .list items => items.mapM fun
      | .text s => some s
      | _ => none
  | _ => none

/-- The first of some lists of names that is there. -/
def namesMember (fields : Value.Fields) : List String → Result (List String)
  | [] => .ok []
  | key :: rest =>
    match Value.fieldD fields key with
    | .null => namesMember fields rest
    | v =>
      match texts? v with
      | some names => .ok names
      | none => fail (.namesNotTexts key v)

theorem nodup_eraseDups : (names : List String) → names.eraseDups.Nodup
  | [] => .nil
  | n :: rest => by
    rw [List.eraseDups_cons, List.nodup_cons, List.mem_eraseDups]
    exact ⟨by simp, nodup_eraseDups _⟩
termination_by names => names.length
decreasing_by exact Nat.lt_succ_of_le (List.length_filter_le ..)

/-- A definition from its parts. A repeated name counts once, where it comes first. -/
def of (directoryRegex fileRegex : Option String) (directoryNames fileNames : List String) :
    Result PartitionDefinition := do
  let directory ← compile "directoryFilterRegex" directoryRegex
  let file ← compile "filterRegex" fileRegex
  return ⟨directory, file, directoryNames.eraseDups, fileNames.eraseDups, nodup_eraseDups _,
    nodup_eraseDups _⟩

/-- The definition a value describes. -/
def ofValue : Value → Result PartitionDefinition
  | .object fields => do
    let directoryRegex ← regexMember fields "directoryFilterRegex"
    let fileRegex ← regexMember fields "filterRegex"
    let directoryNames ←
      namesMember fields ["directoryFilterPartitions", "directoryPartitions"]
    let fileNames ← namesMember fields ["filterPartitions", "partitions"]
    of directoryRegex fileRegex directoryNames fileNames
  | v => fail (.partitionNotObject v)

def regexField (name : String) : Option PathRegex → Value.Fields
  | some r => [(name, .text r.regex.source)]
  | none => []

/-- The value that describes a definition. -/
def toValue (d : PartitionDefinition) : Value :=
  .object (regexField "directoryFilterRegex" d.directoryRegex ++
    regexField "filterRegex" d.fileRegex ++
    [("directoryFilterPartitions", .list (d.directoryNames.map .text)),
      ("filterPartitions", .list (d.fileNames.map .text))])

/-! ## Columns -/

/-- The partition column of a name at a level. -/
def column (level : PartitionLevel) (source : String) (index : Nat) (name : String) : Column :=
  { name := name
    type := .varchar
    comment := some s!"{level.word} partition match [{source}] index [{index}]"
    hidden := true
    index := some index }

/-- The partition columns of a level; without a regular expression there are none. -/
def columnsOf (level : PartitionLevel) (r : Option PathRegex) (names : List String) : List Column :=
  match r with
  | none => []
  | some r => names.zipIdx.map fun (n, i) => column level r.regex.source i n

def directoryColumns (d : PartitionDefinition) : List Column :=
  columnsOf .directory d.directoryRegex d.directoryNames

def fileColumns (d : PartitionDefinition) : List Column :=
  columnsOf .file d.fileRegex d.fileNames

/-! ## Values -/

/-- The directory of an object as text, with its final slash. -/
def parent (path : String) : String :=
  String.ofList (Path.beforeLastSlash path.toList ++ ['/'])

/-- The values of partition columns by name, in order. -/
abbrev Values := List (String × Option String)

/-- Sets a value; a name that is there keeps its place. -/
def setValue : Values → String → Option String → Values
  | [], n, v => [(n, v)]
  | (m, w) :: rest, n, v => if m = n then (m, v) :: rest else (m, w) :: setValue rest n v

/-- Adds names without values, except those that are there. -/
def addMissing (values : Values) (names : List String) : Values :=
  names.foldl (fun vs n => if (vs.lookup n).isSome then vs else vs ++ [(n, none)]) values

/-- Adds the values that a match gives to the columns of a level. -/
def addMatch (path : String) (r : Regex) (m : Regex.Match) (values : Values)
    (columns : List (String × Nat)) : Result Values :=
  columns.foldlM (fun vs (n, i) =>
    if r.groupCount < i + 1 then fail (.noSuchGroup (i + 1) r.source path r.groupCount)
    else .ok (setValue vs n (m.group? (i + 1)))) values

/-- Adds the values of a level: those of the first text in which its expression is found. -/
def addLevel (path : String) (r : Option PathRegex) (names : List String)
    (candidates : List String) (values : Values) : Result Values :=
  match r with
  | none => .ok values
  | some r =>
    match candidates.findSome? r.regex.search with
    | some m => addMatch path r.regex m values names.zipIdx
    | none => .ok (addMissing values names)

/-- The values of the partition columns of an object. The directory expression is looked for in the
path, then in the path of the directory. -/
def values (d : PartitionDefinition) (path : String) : Result Values := do
  let vs ← addLevel path d.directoryRegex d.directoryNames [path, parent path] []
  addLevel path d.fileRegex d.fileNames [path] vs

end PartitionDefinition

end SchemaOnRead
