import Mathlib.Data.List.Nodup
import SchemaOnRead.Proofs.Splits.Pruning

/-!
# Constraints put together

Constraints that require what two others require keep what both of them keep: at each level of a path,
and so along all directories that lead to an object. The splits under them are the splits that are
there under both, in the order of the walk (`drained_union`); a constraint more only leaves splits
out.
-/

namespace SchemaOnRead

open Sql (Constraints)

namespace Sql.Constraints

/-- Constraints that require of each column the text that one of two others requires of it. -/
def Joined (left right both : Constraints) : Prop :=
  ∀ n v, both.lookup n = some v ↔ left.lookup n = some v ∨ right.lookup n = some v

theorem Joined.lookup_eq_none {left right both : Constraints} (joined : Joined left right both)
    {n : String} : both.lookup n = none ↔ left.lookup n = none ∧ right.lookup n = none := by
  simp only [Option.eq_none_iff_forall_ne_some, ne_eq, joined n, not_or, forall_and]

/-- In constraints that require one text of each column, looking up a column finds what is required
of it, in whatever order the constraints are. -/
theorem lookup_eq_some_iff {cs ordered : Constraints} (members : ∀ e, e ∈ ordered ↔ e ∈ cs)
    (single : ∀ n v w, (n, v) ∈ cs → (n, w) ∈ cs → v = w) {n v : String} :
    ordered.lookup n = some v ↔ (n, v) ∈ cs := by
  constructor
  · intro found
    exact (members (n, v)).mp (mem_of_lookup_eq_some found)
  · intro member
    have there : (ordered.lookup n).isSome = true :=
      List.lookup_isSome_iff.mpr ⟨(n, v), (members (n, v)).mpr member, beq_self_eq_true n⟩
    obtain ⟨w, found⟩ := Option.isSome_iff_exists.mp there
    have required : (n, w) ∈ cs := (members (n, w)).mp (mem_of_lookup_eq_some found)
    rw [found, single n w v required member]

/-- A map requires one text of each column. -/
theorem single_of_nodup {cs : Constraints} (distinct : (cs.map Prod.fst).Nodup) (n v w : String)
    (first : (n, v) ∈ cs) (second : (n, w) ∈ cs) : v = w := by
  have found := lookup_of_mem distinct first
  rw [lookup_of_mem distinct second] at found
  exact (Option.some.inj found).symm

end Sql.Constraints

open Sql.Constraints

namespace PathPredicate

/-! ## Predicates -/

/-- A predicate keeps a path exactly if two others keep it, and it fails on a path only if one of them
does. -/
structure Meets (left right both : PathPredicate) : Prop where
  keeps : ∀ path isDirectory, both.test path isDirectory = .ok true ↔
    left.test path isDirectory = .ok true ∧ right.test path isDirectory = .ok true
  answers : ∀ path isDirectory, (∃ b, left.test path isDirectory = .ok b) →
    (∃ b, right.test path isDirectory = .ok b) → ∃ b, both.test path isDirectory = .ok b

theorem Meets.always : Meets always always always where
  keeps _ _ := (and_self_iff ..).symm
  answers _ _ answered _ := answered

theorem captures_joined {left right both : Constraints} (joined : Joined left right both)
    {r : PathRegex} {names : List String} {text : String} :
    Captures r names both text ↔ Captures r names left text ∧ Captures r names right text := by
  constructor
  · intro captures
    constructor
    · intro m found n i v inside required
      exact captures m found n i v inside ((joined n v).mpr (.inl required))
    · intro m found n i v inside required
      exact captures m found n i v inside ((joined n v).mpr (.inr required))
  · rintro ⟨first, second⟩ m found n i v inside required
    rcases (joined n v).mp required with required | required
    · exact first m found n i v inside required
    · exact second m found n i v inside required

theorem keeps_joined {left right both : Constraints} (joined : Joined left right both)
    {r : Option PathRegex} {names : List String} {closed : Bool} {text : String} :
    Keeps r names both closed text ↔
      Keeps r names left closed text ∧ Keeps r names right closed text := by
  simp only [Keeps, captures_joined joined, joined.lookup_eq_none]
  constructor
  · intro keeps
    constructor
    · intro p present
      obtain ⟨⟨captures, -⟩, free⟩ := keeps p present
      exact ⟨captures, fun missing isClosed n inside => (free missing isClosed n inside).1⟩
    · intro p present
      obtain ⟨⟨-, captures⟩, free⟩ := keeps p present
      exact ⟨captures, fun missing isClosed n inside => (free missing isClosed n inside).2⟩
  · rintro ⟨first, second⟩ p present
    obtain ⟨firstCaptures, firstFree⟩ := first p present
    obtain ⟨secondCaptures, secondFree⟩ := second p present
    exact ⟨⟨firstCaptures, secondCaptures⟩, fun missing isClosed n inside =>
      ⟨firstFree missing isClosed n inside, secondFree missing isClosed n inside⟩⟩

/-- Whether a match can be compared with what constraints require of columns. -/
def Compares (path : String) (r : Regex) (m : Regex.Match) (cs : Constraints)
    (columns : List Column) : Prop :=
  ∃ b, holds path r m ((constrained cs columns).map fun p => (p.1, .text p.2)) = .ok b

/-- The first constrained column needs its group, and if it has its value there, the comparison goes
on with the columns after it. -/
theorem compares_cons {path : String} {r : Regex} {m : Regex.Match} {cs : Constraints} {c : Column}
    {columns : List Column} :
    Compares path r m cs (c :: columns) ↔
      (∀ v, cs.lookup c.name = some v →
        ¬ (groupOf c < 1 ∨ (r.groupCount : Int) < groupOf c)) ∧
      ((∀ v, cs.lookup c.name = some v → isValue (m.group? (groupOf c).toNat) (.text v) = true) →
        Compares path r m cs columns) := by
  rw [Compares, constrained, List.filterMap_cons]
  cases required : cs.lookup c.name with
  | none => simp [Compares, constrained]
  | some v =>
    simp only [Option.map_some, List.map_cons, holds_cons, Option.some.injEq, forall_eq']
    by_cases absent : groupOf c < 1 ∨ (r.groupCount : Int) < groupOf c
    · simp [absent, fail]
    · by_cases equal : isValue (m.group? (groupOf c).toNat) (.text v) = true
      · simp [absent, equal, Compares, constrained]
      · simp [absent, equal]

/-- A comparison that fails for constraints put together fails for one of them: the columns before the
one whose group is not there have their values under both. -/
theorem compares_joined {left right both : Constraints} (joined : Joined left right both)
    {path : String} {r : Regex} {m : Regex.Match} {columns : List Column}
    (first : Compares path r m left columns) (second : Compares path r m right columns) :
    Compares path r m both columns := by
  induction columns with
  | nil => exact ⟨true, rfl⟩
  | cons c rest ih =>
    obtain ⟨firstGroup, firstRest⟩ := compares_cons.mp first
    obtain ⟨secondGroup, secondRest⟩ := compares_cons.mp second
    refine compares_cons.mpr ⟨?_, ?_⟩
    · intro v required
      rcases (joined c.name v).mp required with required | required
      · exact firstGroup v required
      · exact secondGroup v required
    · intro equal
      apply ih
      · exact firstRest fun v required => equal v ((joined c.name v).mpr (.inl required))
      · exact secondRest fun v required => equal v ((joined c.name v).mpr (.inr required))

theorem exists_test_ofLevel {level : PartitionLevel} {r : PathRegex} {names : List String}
    {cs : Constraints} {closed : Bool} {path : String} {isDirectory : Bool} :
    (∃ b, (ofLevel level (some r) names cs closed).test path isDirectory = .ok b) ↔
      ∀ m, r.regex.search (searched path isDirectory) = some m →
        Compares (searched path isDirectory) r.regex m cs
          (PartitionDefinition.columnsOf level (some r) names) := by
  simp only [ofLevel, test_ofPairs, Compares]
  by_cases empty : constrained cs (PartitionDefinition.columnsOf level (some r) names) = []
  · simp [empty, holds]
  · cases r.regex.search (searched path isDirectory) <;> simp [empty]

/-- The predicate of a level under constraints put together. -/
theorem meets_ofLevel {left right both : Constraints} (joined : Joined left right both)
    (level : PartitionLevel) (r : Option PathRegex) (names : List String) (closed : Bool) :
    Meets (ofLevel level r names left closed) (ofLevel level r names right closed)
      (ofLevel level r names both closed) := by
  constructor
  · intro path isDirectory
    simp only [test_ofLevel, keeps_joined joined]
  · intro path isDirectory first second
    cases r with
    | none => exact ⟨true, rfl⟩
    | some r =>
      rw [exists_test_ofLevel] at first second ⊢
      intro m found
      exact compares_joined joined (first m found) (second m found)

/-- The predicates of any table under constraints put together. -/
theorem meets_ofTable {left right both : Constraints} (joined : Joined left right both)
    (t : LogicalTable) (closed : Bool) :
    ∃ l r b : PathPredicate × PathPredicate,
      ofTable t left.toFields closed = .ok l ∧ ofTable t right.toFields closed = .ok r ∧
      ofTable t both.toFields closed = .ok b ∧ Meets l.1 r.1 b.1 ∧ Meets l.2 r.2 b.2 := by
  cases partitioned : t.partition with
  | none =>
    have unpartitioned : ∀ fields, ofTable t fields closed = .ok (always, always) := by
      intro fields
      rw [ofTable, partitioned]
    exact ⟨_, _, _, unpartitioned _, unpartitioned _, unpartitioned _, .always, .always⟩
  | some d =>
    exact ⟨_, _, _, ofTable_texts partitioned left closed, ofTable_texts partitioned right closed,
      ofTable_texts partitioned both closed,
      meets_ofLevel joined .directory d.directoryRegex d.directoryNames false,
      meets_ofLevel joined .file d.fileRegex d.fileNames closed⟩

theorem Meets.passes {left right both : PathPredicate} (meets : Meets left right both) (path : String)
    (isDirectory : Bool) :
    passes (both.test path isDirectory) =
      (passes (left.test path isDirectory) && passes (right.test path isDirectory)) := by
  rw [Bool.eq_iff_iff, Bool.and_eq_true]
  simp only [passes_iff, meets.keeps]

end PathPredicate

open PathPredicate (Meets)

namespace Split

/-! ## Objects -/

section

variable {manifestName : String} {t : LogicalTable}
  {leftDirectory leftFile rightDirectory rightFile directory file : PathPredicate}

/-- An object is chosen under constraints put together if it is chosen under both. -/
theorem isChosen_meet (directories : Meets leftDirectory rightDirectory directory)
    (files : Meets leftFile rightFile file) (o : StoredObject) :
    isChosen manifestName t directory file o =
      (isChosen manifestName t leftDirectory leftFile o &&
        isChosen manifestName t rightDirectory rightFile o) := by
  rw [Bool.eq_iff_iff]
  simp only [isChosen, PathPredicate.testObject, files.passes, directories.passes, Bool.and_eq_true,
    List.all_eq_true]
  constructor
  · rintro ⟨⟨member, first, second⟩, reached⟩
    exact ⟨⟨⟨member, first⟩, fun a inside => (reached a inside).1⟩,
      ⟨member, second⟩, fun a inside => (reached a inside).2⟩
  · rintro ⟨⟨⟨member, first⟩, leftReached⟩, ⟨-, second⟩, rightReached⟩
    exact ⟨⟨member, first, second⟩, fun a inside => ⟨leftReached a inside, rightReached a inside⟩⟩

/-- What the generation comes to under constraints put together it comes to under both, so that no
predicate fails there. -/
theorem settled_meet (directories : Meets leftDirectory rightDirectory directory)
    (files : Meets leftFile rightFile file) {os : List StoredObject}
    (left : Settled manifestName t leftDirectory leftFile os)
    (right : Settled manifestName t rightDirectory rightFile os) :
    Settled manifestName t directory file os := by
  constructor
  · intro o member isDirectory reached
    simp only [directories.keeps] at reached
    exact directories.answers _ _
      (left.directories o member isDirectory fun a inside => (reached a inside).1)
      (right.directories o member isDirectory fun a inside => (reached a inside).2)
  · intro o member isMember reached
    simp only [directories.keeps] at reached
    exact files.answers _ _ (left.files o member isMember fun a inside => (reached a inside).1)
      (right.files o member isMember fun a inside => (reached a inside).2)

end

/-- The splits that are chosen among some objects. -/
def chosenOf (manifestName schema : String) (t : LogicalTable) (directory file : PathPredicate)
    (os : List StoredObject) : List Split :=
  (os.filter (isChosen manifestName t directory file)).map (ofObject schema t directory file)

/-- Splits that are the same objects, one for one and in the same order. -/
def SameInOrder (ps qs : List Split) : Prop := List.Forall₂ (fun p q => p.same q = true) ps qs

theorem sameInOrder_ofObject (schema : String) (t : LogicalTable)
    (directory file directory' file' : PathPredicate) (os : List StoredObject) :
    SameInOrder (os.map (ofObject schema t directory file))
      (os.map (ofObject schema t directory' file')) := by
  rw [SameInOrder, List.forall₂_map_left_iff, List.forall₂_map_right_iff, List.forall₂_same]
  intro o _
  simp [same, ofObject]

end Split

namespace TableLayout

/-! ## Layouts -/

/-- A layout that can be drained is one of a table with a directory at its root path. -/
theorem exists_table_of_drained {s : Store} {now : Rat} {r : Registry} {l : TableLayout} {size : Int}
    {splits : List Split} (drained : l.drained s now r size = .ok splits) :
    ∃ t, (r.table s now l.table.schemaName l.table.tableName).1.result = .ok t := by
  cases declared : (r.table s now l.table.schemaName l.table.tableName).1.result with
  | ok t => exact ⟨t, rfl⟩
  | error f =>
    rw [TableLayout.drained, TableLayout.splits] at drained
    simp only [Logged.bind, declared] at drained
    cases drained

theorem exists_entries_of_drained {s : Store} {now : Rat} {r : Registry} {l : TableLayout}
    {t : LogicalTable} {directory file : PathPredicate} {size : Int} (positive : 0 < size)
    (declared : (r.table s now l.table.schemaName l.table.tableName).1.result = .ok t)
    (made : PathPredicate.ofTable t l.constraints r.settings.closedFiles = .ok (directory, file))
    {splits : List Split} (drained : l.drained s now r size = .ok splits) :
    ∃ es, s.entries t.rootPath = .ok es := by
  cases listed : s.entries t.rootPath with
  | ok es => exact ⟨es, rfl⟩
  | error f =>
    rw [drained_eq positive declared made, Split.generate_of_error listed] at drained
    cases drained

/-- The splits that are chosen as under two choices at once are those of the one choice that are there
under the other. -/
theorem sameInOrder_filter {s : Store} {manifestName schema : String} {t : LogicalTable}
    {leftDirectory leftFile rightDirectory rightFile directory file : PathPredicate}
    {es : List (String × Tree)} (listed : s.entries t.rootPath = .ok es)
    (chosen : ∀ o, Split.isChosen manifestName t directory file o =
      (Split.isChosen manifestName t leftDirectory leftFile o &&
        Split.isChosen manifestName t rightDirectory rightFile o)) :
    Split.SameInOrder
      (Split.chosenOf manifestName schema t directory file (Tree.entryObjects t.rootPath es))
      ((Split.chosenOf manifestName schema t leftDirectory leftFile
          (Tree.entryObjects t.rootPath es)).filter fun l =>
        (Split.chosenOf manifestName schema t rightDirectory rightFile
          (Tree.entryObjects t.rootPath es)).any (·.same l)) := by
  simp only [Split.chosenOf, List.filter_map, List.filter_filter]
  have alike : ∀ o ∈ Tree.entryObjects t.rootPath es,
      Split.isChosen manifestName t directory file o =
        (((fun l => (Split.chosenOf manifestName schema t rightDirectory rightFile
          (Tree.entryObjects t.rootPath es)).any (·.same l)) ∘
            Split.ofObject schema t leftDirectory leftFile) o &&
          Split.isChosen manifestName t leftDirectory leftFile o) := by
    intro o member
    rw [chosen, Bool.and_comm, Function.comp_apply, Bool.eq_iff_iff, Bool.and_eq_true,
      Bool.and_eq_true, List.any_eq_true, Split.chosenOf, exists_same_iff listed member]
  rw [List.filter_congr alike]
  exact Split.sameInOrder_ofObject schema t directory file leftDirectory leftFile _

/-- The constraints of layouts of maps that agree where both require something. -/
theorem joined_of_union (h : TableHandle) {left right both : Constraints}
    (leftMap : (left.map Prod.fst).Nodup) (rightMap : (right.map Prod.fst).Nodup)
    (agree : ∀ n v w, (n, v) ∈ left → (n, w) ∈ right → v = w)
    (union : ∀ e, e ∈ both ↔ e ∈ left ∨ e ∈ right) :
    ∃ l r b : Constraints, Joined l r b ∧ (of h left.toFields).constraints = l.toFields ∧
      (of h right.toFields).constraints = r.toFields ∧
      (of h both.toFields).constraints = b.toFields := by
  obtain ⟨l, leftFields, leftMembers⟩ := constraints_of_texts h left
  obtain ⟨r, rightFields, rightMembers⟩ := constraints_of_texts h right
  obtain ⟨b, bothFields, bothMembers⟩ := constraints_of_texts h both
  have single : ∀ n v w, (n, v) ∈ both → (n, w) ∈ both → v = w := by
    intro n v w first second
    rcases (union _).mp first with first | first <;> rcases (union _).mp second with second | second
    · exact single_of_nodup leftMap n v w first second
    · exact agree n v w first second
    · exact (agree n w v second first).symm
    · exact single_of_nodup rightMap n v w first second
  refine ⟨l, r, b, ?_, leftFields, rightFields, bothFields⟩
  intro n v
  rw [lookup_eq_some_iff bothMembers single,
    lookup_eq_some_iff leftMembers (single_of_nodup leftMap),
    lookup_eq_some_iff rightMembers (single_of_nodup rightMap)]
  exact union (n, v)

/-- The splits of a layout under constraints put together. Draining it goes through if draining goes
through under both, and gives the splits that are there under both, in the order in which the walk comes
to them; under more constraints than there are, no split is gained. -/
theorem drained_union {s : Store} {now : Rat} {r : Registry} {h : TableHandle} {size : Int}
    (positive : 0 < size) {left right both : Constraints} (leftMap : (left.map Prod.fst).Nodup)
    (rightMap : (right.map Prod.fst).Nodup)
    (agree : ∀ n v w, (n, v) ∈ left → (n, w) ∈ right → v = w)
    (union : ∀ e, e ∈ both ↔ e ∈ left ∨ e ∈ right) {ls : List Split}
    (drained : (of h left.toFields).drained s now r size = .ok ls) :
    (∀ us, (of h both.toFields).drained s now r size = .ok us →
      ∃ kept, kept.Sublist ls ∧ Split.SameInOrder us kept) ∧
    ∀ rs, (of h right.toFields).drained s now r size = .ok rs →
      ∃ us, (of h both.toFields).drained s now r size = .ok us ∧
        Split.SameInOrder us (ls.filter fun l => rs.any (·.same l)) ∧
        Split.SameInOrder us (rs.filter fun p => ls.any (·.same p)) := by
  obtain ⟨l, q, b, joined, leftFields, rightFields, bothFields⟩ :=
    joined_of_union h leftMap rightMap agree union
  obtain ⟨t, declared⟩ := exists_table_of_drained drained
  replace declared : (r.table s now h.schemaName h.tableName).1.result = .ok t := declared
  obtain ⟨⟨leftDirectory, leftFile⟩, ⟨rightDirectory, rightFile⟩, ⟨directory, file⟩, leftMade, rightMade,
    bothMade, directories, files⟩ := PathPredicate.meets_ofTable joined t r.settings.closedFiles
  rw [← leftFields] at leftMade
  rw [← rightFields] at rightMade
  rw [← bothFields] at bothMade
  obtain ⟨es, listed⟩ := exists_entries_of_drained positive declared leftMade drained
  obtain ⟨leftSettled, rfl⟩ := (drained_eq_ok positive declared leftMade listed).mp drained
  have chosen := @Split.isChosen_meet r.settings.manifestName t _ _ _ _ _ _ directories files
  constructor
  · intro us bothDrained
    obtain ⟨-, rfl⟩ := (drained_eq_ok positive declared bothMade listed).mp bothDrained
    refine ⟨_, ?_, Split.sameInOrder_ofObject h.schemaName t directory file leftDirectory leftFile _⟩
    apply List.Sublist.map
    apply List.monotone_filter_right
    intro o kept
    rw [chosen, Bool.and_eq_true] at kept
    exact kept.1
  · intro rs rightDrained
    obtain ⟨rightSettled, rfl⟩ := (drained_eq_ok positive declared rightMade listed).mp rightDrained
    have settled := Split.settled_meet directories files leftSettled rightSettled
    refine ⟨_, (drained_eq_ok positive declared bothMade listed).mpr ⟨settled, rfl⟩, ?_, ?_⟩
    · exact sameInOrder_filter listed chosen
    · exact sameInOrder_filter listed fun o => (chosen o).trans (Bool.and_comm ..)

/-- A partition definition with a column at each level. -/
def folderAndFile : PartitionDefinition :=
  { directoryRegex := (PathRegex.ofText "^/t/([^/]+)/").toOption.join
    fileRegex := (PathRegex.ofText "/([^/]+)\\.json$").toOption.join
    directoryNames := ["folder"], directoryNames_nodup := List.nodup_singleton "folder"
    fileNames := ["file"], fileNames_nodup := List.nodup_singleton "file" }

/-- A table whose objects are partitioned by folders and by names. -/
def byFolderAndFile : LogicalTable :=
  { name := "t", rootPath := "/t", fileType := .ndjson, partition := some folderAndFile }

/-- A store with objects of the same names in two folders. -/
def twoFolders : Store :=
  { tree := .directory [("t", .directory [
      ("a", .directory [("x.json", .file .empty), ("y.json", .file .empty)]),
      ("c", .directory [("x.json", .file .empty), ("y.json", .file .empty)])])]
    proper := by decide +kernel }

/-- A registry that knows the table, with closed predicates on files. -/
def twoFolderRegistry : Registry :=
  { schemas := [("s", "/t")]
    settings := { closedFiles := true }
    kept := [("s", ⟨[("t", byFolderAndFile)], 1⟩)] }

/-- The objects of one folder and those of one name have one in common. -/
theorem drained_union_twoFolders : ∃ ls rs us,
    (of ⟨"s", "t"⟩ (Constraints.toFields [("folder", "a")])).drained twoFolders 0 twoFolderRegistry 3 =
      .ok ls ∧ ls.map (·.path) = ["/t/a/x.json", "/t/a/y.json"] ∧
    (of ⟨"s", "t"⟩ (Constraints.toFields [("file", "x")])).drained twoFolders 0 twoFolderRegistry 3 =
      .ok rs ∧ rs.map (·.path) = ["/t/a/x.json", "/t/c/x.json"] ∧
    (of ⟨"s", "t"⟩ (Constraints.toFields [("file", "x"), ("folder", "a")])).drained twoFolders 0
      twoFolderRegistry 3 = .ok us ∧
    Split.SameInOrder us (ls.filter fun l => rs.any (·.same l)) := by
  have first : ((of ⟨"s", "t"⟩ (Constraints.toFields [("folder", "a")])).drained twoFolders 0
      twoFolderRegistry 3).toOption.map (·.map (·.path)) = some ["/t/a/x.json", "/t/a/y.json"] := by
    decide +kernel
  have second : ((of ⟨"s", "t"⟩ (Constraints.toFields [("file", "x")])).drained twoFolders 0
      twoFolderRegistry 3).toOption.map (·.map (·.path)) = some ["/t/a/x.json", "/t/c/x.json"] := by
    decide +kernel
  obtain ⟨ls, leftDrained, leftPaths⟩ := Option.map_eq_some_iff.mp first
  obtain ⟨rs, rightDrained, rightPaths⟩ := Option.map_eq_some_iff.mp second
  have agree : ∀ n v w, (n, v) ∈ [("folder", "a")] → (n, w) ∈ [("file", "x")] → v = w := by
    intro n v w left right
    simp only [List.mem_singleton, Prod.mk.injEq] at left right
    exact absurd (left.1.symm.trans right.1) (by decide)
  have union : ∀ e, e ∈ [("file", "x"), ("folder", "a")] ↔
      e ∈ [("folder", "a")] ∨ e ∈ [("file", "x")] := by
    intro e
    simp [or_comm]
  obtain ⟨us, drained, same, -⟩ := (drained_union (by decide) (by decide) (by decide) agree union
    (ok_of_toOption leftDrained)).2 rs (ok_of_toOption rightDrained)
  exact ⟨ls, rs, us, ok_of_toOption leftDrained, leftPaths, ok_of_toOption rightDrained, rightPaths,
    drained, same⟩

end TableLayout

end SchemaOnRead
