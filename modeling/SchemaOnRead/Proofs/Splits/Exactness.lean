import SchemaOnRead.Proofs.Partition.Constrained
import SchemaOnRead.Proofs.Splits.Draining
import SchemaOnRead.Proofs.Storage.Walks
import SchemaOnRead.Splits.Generation

/-!
# The splits of a layout

The splits of a layout are the data objects of the table below its root path that the file predicate
keeps and to which only directories lead that the directory predicate keeps. Each of them is
there once, in the order of a walk through everything below the root (`layout_splits_exact`).
-/

namespace SchemaOnRead

namespace Split

variable (manifestName : String) (t : LogicalTable) (directory file : PathPredicate)

/-- Whether an object below the root path of a table is read: it belongs to the table, the file
predicate keeps it, and the directory predicate keeps every directory that leads to it. -/
def isChosen (o : StoredObject) : Bool :=
  t.hasMember manifestName o && passes (file.testObject o) &&
    (Path.between t.rootPath o.path).all fun a => passes (directory.test a true)

/-- No predicate fails on what the generation of splits comes to: on directories, and on files of
the table, to which kept directories lead. -/
structure Settled (os : List StoredObject) : Prop where
  directories : ∀ o ∈ os, o.isDirectory = true →
    (∀ a ∈ Path.between t.rootPath o.path, directory.test a true = .ok true) →
      ∃ b, directory.testObject o = .ok b
  files : ∀ o ∈ os, t.hasMember manifestName o = true →
    (∀ a ∈ Path.between t.rootPath o.path, directory.test a true = .ok true) →
      ∃ b, file.testObject o = .ok b

theorem reaches_iff (o : StoredObject) :
    Walk.reaches directory.testObject t.rootPath o = true ↔
      ∀ a ∈ Path.between t.rootPath o.path, directory.test a true = .ok true := by
  rw [Walk.reaches, List.all_eq_true]
  exact forall₂_congr fun a _ => passes_iff

variable {manifestName t directory file}

/-- An object is turned into a split, or passed over, unless the predicate fails on it. -/
theorem ofObject?_eq_ok {schema : String} {o : StoredObject} :
    (∃ b, ofObject? manifestName schema t directory file o = .ok b) ↔
      (t.hasMember manifestName o = true → ∃ b, file.testObject o = .ok b) := by
  rw [ofObject?]
  cases t.hasMember manifestName o with
  | false => simp
  | true =>
    cases answer : file.testObject o with
    | error f => simp [bind, Except.bind]
    | ok b => cases b <;> simp [bind, Except.bind, pure, Except.pure]

theorem ofObject?_join {schema : String} {o : StoredObject} :
    (ofObject? manifestName schema t directory file o).toOption.join =
      if t.hasMember manifestName o && passes (file.testObject o) then
        some (ofObject schema t directory file o)
      else none := by
  rw [ofObject?]
  cases t.hasMember manifestName o with
  | false => rfl
  | true =>
    cases answer : file.testObject o with
    | error f => rfl
    | ok b => cases b <;> rfl

theorem hasMember_isDirectory {o : StoredObject} (member : t.hasMember manifestName o = true) :
    o.isDirectory = false := by
  rw [LogicalTable.hasMember, Bool.and_eq_true, Bool.and_eq_true] at member
  simpa using member.1.1

/-- Objects that a walk yields and that become splits are those chosen. -/
theorem filterMap_yields (schema : String) (os : List StoredObject) :
    ((os.filter (Walk.yields directory.testObject t.rootPath)).filterMap fun o =>
        (ofObject? manifestName schema t directory file o).toOption.join) =
      (os.filter (isChosen manifestName t directory file)).map
        (ofObject schema t directory file) := by
  induction os with
  | nil => rfl
  | cons o rest ih =>
    have chosen : isChosen manifestName t directory file o =
        (Walk.yields directory.testObject t.rootPath o &&
          (t.hasMember manifestName o && passes (file.testObject o))) := by
      rw [isChosen, Walk.yields]
      cases member : t.hasMember manifestName o with
      | false => simp
      | true =>
        rw [hasMember_isDirectory member, Bool.not_false, Bool.true_or, Bool.and_true,
          Bool.and_comm]
        rfl
    rw [List.filter_cons, List.filter_cons, chosen]
    cases Walk.yields directory.testObject t.rootPath o with
    | false => exact ih
    | true =>
      rw [if_pos rfl, List.filterMap_cons, ofObject?_join, Bool.true_and]
      cases (t.hasMember manifestName o && passes (file.testObject o)) with
      | false => exact ih
      | true => exact congrArg (ofObject schema t directory file o :: ·) ih

/-- The generation of splits goes through if no predicate fails on what it comes to. -/
theorem failure_generate {s : Store} (schema : String) {es : List (String × Tree)}
    (listed : s.entries t.rootPath = .ok es) :
    (generate s manifestName schema t directory file).failure = none ↔
      Settled manifestName t directory file (Tree.entryObjects t.rootPath es) := by
  obtain ⟨goes, items⟩ := Walk.exact_start listed directory.testObject
  rw [generate, Trace.failure_select]
  constructor
  · rintro ⟨whole, answered⟩
    refine ⟨fun o member isDirectory reached => ?_, fun o member isMember reached => ?_⟩
    · exact goes.mp whole o member isDirectory ((reaches_iff t directory o).mpr reached)
    · refine ofObject?_eq_ok.mp (answered o ?_) isMember
      rw [items whole, List.mem_filter]
      refine ⟨member, ?_⟩
      rw [Walk.yields, (reaches_iff t directory o).mpr reached, hasMember_isDirectory isMember]
      rfl
  · rintro ⟨directories, files⟩
    have whole : (Walk.start s t.rootPath directory.testObject).failure = none :=
      goes.mpr fun o member isDirectory reached =>
        directories o member isDirectory ((reaches_iff t directory o).mp reached)
    refine ⟨whole, fun o member => ofObject?_eq_ok.mpr fun isMember => ?_⟩
    rw [items whole, List.mem_filter, Walk.yields, Bool.and_eq_true] at member
    exact files o member.1 isMember ((reaches_iff t directory o).mp member.2.1)

/-- The splits that are generated are the objects chosen. -/
theorem items_generate {s : Store} {schema : String} {es : List (String × Tree)}
    (listed : s.entries t.rootPath = .ok es)
    (whole : (generate s manifestName schema t directory file).failure = none) :
    (generate s manifestName schema t directory file).items =
      ((Tree.entryObjects t.rootPath es).filter (isChosen manifestName t directory file)).map
        (ofObject schema t directory file) := by
  obtain ⟨walked, answered⟩ := Trace.failure_select.mp whole
  rw [generate, Trace.items_select answered,
    (Walk.exact_start listed directory.testObject).2 walked, filterMap_yields]

/-- Without a directory at the root path of the table, the generation fails at once. -/
theorem generate_of_error {s : Store} {schema : String} {f : Failure}
    (missing : s.entries t.rootPath = .error f) :
    generate s manifestName schema t directory file = (Trace.failing f).effect t.rootPath := by
  rw [generate, Walk.start_of_error missing directory.testObject]
  rfl

theorem toList_generate {s : Store} {schema : String}
    (settled : ∀ es, s.entries t.rootPath = .ok es →
      Settled manifestName t directory file (Tree.entryObjects t.rootPath es)) :
    (generate s manifestName schema t directory file).toList =
      (s.entries t.rootPath).map fun es =>
        ((Tree.entryObjects t.rootPath es).filter (isChosen manifestName t directory file)).map
          (ofObject schema t directory file) := by
  rw [Trace.toList]
  cases listed : s.entries t.rootPath with
  | error f => rw [generate_of_error listed]; rfl
  | ok es =>
    have whole := (failure_generate schema listed).mpr (settled es listed)
    rw [whole, items_generate listed whole]
    rfl

/-- The paths of the objects chosen are all different. -/
theorem nodup_chosen {s : Store} {schema : String} {es : List (String × Tree)}
    (listed : s.entries t.rootPath = .ok es) :
    ((((Tree.entryObjects t.rootPath es).filter (isChosen manifestName t directory file)).map
      (ofObject schema t directory file)).map (·.path)).Nodup := by
  have proper : (Tree.directory es).isProper = true := Store.areProper_of_entries listed
  have distinct := Tree.nodup_objects proper t.rootPath
  rw [List.map_map]
  exact distinct.sublist (List.filter_sublist.map _)

/-- An object is chosen if it belongs to the table and is kept, with all directories that lead to
it. -/
theorem isChosen_iff {o : StoredObject} (below : Path.Below t.rootPath o.path) :
    isChosen manifestName t directory file o = true ↔ t.hasMember manifestName o = true ∧
      file.test o.path false = .ok true ∧
      ∀ a, Path.Below t.rootPath a → Path.Below a o.path → directory.test a true = .ok true := by
  rw [isChosen, Bool.and_eq_true, Bool.and_eq_true, passes_iff, List.all_eq_true, and_assoc]
  refine and_congr_right fun member => and_congr ?_ ?_
  · rw [PathPredicate.testObject, hasMember_isDirectory member]
  · simp only [Path.mem_between_iff below, passes_iff, and_imp]

/-- The objects chosen are the files below the root path that belong to the table and are kept, with
all directories that lead to them. -/
theorem mem_chosen_iff {s : Store} {schema : String} {es : List (String × Tree)}
    (listed : s.entries t.rootPath = .ok es) (path : String) :
    path ∈ (((Tree.entryObjects t.rootPath es).filter (isChosen manifestName t directory file)).map
        (ofObject schema t directory file)).map (·.path) ↔
      Path.Below t.rootPath path ∧ ∃ o, s.head path = .ok o ∧
        t.hasMember manifestName o = true ∧ file.test path false = .ok true ∧
        ∀ a, Path.Below t.rootPath a → Path.Below a path → directory.test a true = .ok true := by
  rw [List.map_map, List.mem_map]
  constructor
  · rintro ⟨o, member, rfl⟩
    obtain ⟨inside, kept⟩ := List.mem_filter.mp member
    obtain ⟨below, there⟩ := (Store.mem_objects_iff_head listed).mp inside
    exact ⟨below, o, there, (isChosen_iff below).mp kept⟩
  · rintro ⟨below, o, there, kept⟩
    have same : o.path = path := (Store.path_of_head there).trans below.format_eq
    subst same
    exact ⟨o, List.mem_filter.mpr ⟨(Store.mem_objects_iff_head listed).mpr ⟨below, there⟩,
      (isChosen_iff below).mpr kept⟩, rfl⟩

end Split

namespace TableLayout

/-- All splits of a layout, asked for in batches of a size. -/
def drained (s : Store) (now : Rat) (r : Registry) (l : TableLayout) (size : Int) :
    Result (List Split) :=
  (l.splits s now r).1.result.bind fun trace => (SplitSource.of trace).drain size

theorem splits_eq {s : Store} {now : Rat} {r : Registry} {l : TableLayout} {t : LogicalTable}
    {directory file : PathPredicate}
    (declared : (r.table s now l.table.schemaName l.table.tableName).1.result = .ok t)
    (made : PathPredicate.ofTable t l.constraints r.settings.closedFiles = .ok (directory, file)) :
    (l.splits s now r).1.result =
      .ok (Split.generate s r.settings.manifestName l.table.schemaName t directory file) := by
  simp only [splits, Logged.bind, declared, Logged.of, Split.ofTable, made]
  rfl

theorem drained_eq {s : Store} {now : Rat} {r : Registry} {l : TableLayout} {t : LogicalTable}
    {directory file : PathPredicate} {size : Int} (positive : 0 < size)
    (declared : (r.table s now l.table.schemaName l.table.tableName).1.result = .ok t)
    (made : PathPredicate.ofTable t l.constraints r.settings.closedFiles = .ok (directory, file)) :
    l.drained s now r size =
      (Split.generate s r.settings.manifestName l.table.schemaName t directory file).toList := by
  rw [drained, splits_eq declared made]
  exact SplitSource.drain_of positive _

/-- Draining a layout gives one split for each of the files below the root path of its table that
belong to the table, that the file predicate keeps, and to which only directories lead that the
directory predicate keeps; each once, in the order of the listings. If there is no directory at the
root path, there are no such files, and the listing of the root path fails. -/
theorem layout_splits_exact {s : Store} {now : Rat} {r : Registry} {l : TableLayout}
    {t : LogicalTable} {directory file : PathPredicate} {size : Int} (positive : 0 < size)
    (declared : (r.table s now l.table.schemaName l.table.tableName).1.result = .ok t)
    (made : PathPredicate.ofTable t l.constraints r.settings.closedFiles = .ok (directory, file))
    (settled : ∀ es, s.entries t.rootPath = .ok es →
      Split.Settled r.settings.manifestName t directory file (Tree.entryObjects t.rootPath es)) :
    (l.drained s now r size = (s.entries t.rootPath).map fun es =>
      ((Tree.entryObjects t.rootPath es).filter
        (Split.isChosen r.settings.manifestName t directory file)).map
          (Split.ofObject l.table.schemaName t directory file)) ∧
    ∀ splits, l.drained s now r size = .ok splits →
      (splits.map (·.path)).Nodup ∧
      ∀ path, path ∈ splits.map (·.path) ↔
        Path.Below t.rootPath path ∧ ∃ o, s.head path = .ok o ∧
          t.hasMember r.settings.manifestName o = true ∧ file.test path false = .ok true ∧
          ∀ a, Path.Below t.rootPath a → Path.Below a path → directory.test a true = .ok true := by
  have all := (drained_eq positive declared made).trans (Split.toList_generate settled)
  refine ⟨all, fun splits drained => ?_⟩
  rw [all] at drained
  cases listed : s.entries t.rootPath with
  | error f => rw [listed] at drained; cases drained
  | ok es =>
    rw [listed] at drained
    cases drained
    exact ⟨Split.nodup_chosen listed, Split.mem_chosen_iff listed⟩

/-- An expression that captures the folders that lead to an object. -/
@[irreducible]
def folderRegex : Option PathRegex := (PathRegex.ofText "^/t/(.+)/").toOption.join

/-- A partition definition that takes the folders for the value of a column. -/
def folderPartition : PartitionDefinition :=
  { directoryRegex := folderRegex
    directoryNames := ["folder"], directoryNames_nodup := by decide }

/-- A table whose objects are partitioned by folders. -/
def byFolder : LogicalTable :=
  { name := "t", rootPath := "/t", fileType := .ndjson, partition := some folderPartition }

/-- A store with objects in folders, one of them inside another. -/
def folders : Store :=
  { tree := .directory [("t", .directory [
      ("a", .directory [("b", .directory [("y.json", .file .empty)]), ("x.json", .file .empty)]),
      ("c", .directory [("z.json", .file .empty)])])]
    proper := by decide +kernel }

/-- A registry that knows the table. -/
def folderRegistry : Registry :=
  { schemas := [("s", "/t")], kept := [("s", ⟨[("t", byFolder)], 1⟩)] }

theorem table_folderRegistry : (folderRegistry.table folders 0 "s" "t").1.result = .ok byFolder := by
  have kept : (0 : Rat) < 1 := by decide
  simp only [Registry.table, Registry.tables, Registry.current?, folderRegistry, List.lookup_cons,
    beq_self_eq_true, kept, if_true]
  rfl

theorem hasGroups_folder (cs : Sql.Constraints) :
    PathPredicate.HasGroups folderRegex ["folder"] cs := by
  have one : (folderRegex.all fun p => p.regex.groupCount == 1) = true := by decide +kernel
  intro p present n i member _
  rw [present, Option.all_some, beq_iff_eq] at one
  have first : i < ["folder"].length := by simpa using List.snd_lt_of_mem_zipIdx member
  rw [one]
  exact first

/-- The table's objects in the folder `a` itself are drained, and no others. -/
theorem drained_folder : ((of ⟨"s", "t"⟩ [("folder", .text "a")]).drained folders 0 folderRegistry
    2).toOption.map (·.map (·.path)) = some ["/t/a/x.json"] := by
  have made := PathPredicate.ofTable_texts (t := byFolder) rfl [("folder", "a")] false
  have exact := (layout_splits_exact (l := of ⟨"s", "t"⟩ [("folder", .text "a")])
    (by decide : (0 : Int) < 2) table_folderRegistry made
    fun es _ => ⟨fun o _ _ _ => PathPredicate.test_ofLevel_of_hasGroups (hasGroups_folder _) _ _ _,
      fun o _ _ _ => PathPredicate.test_ofLevel_of_hasGroups (PathPredicate.hasGroups_none _ _) _ _ _⟩).1
  rw [exact]
  decide +kernel

end TableLayout

end SchemaOnRead
