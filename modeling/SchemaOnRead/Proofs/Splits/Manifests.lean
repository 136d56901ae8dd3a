import Mathlib.Data.List.Induction
import SchemaOnRead.Columns.Sample
import SchemaOnRead.Proofs.Splits.Exactness
import SchemaOnRead.Proofs.Storage.PathNames

/-!
# Manifests among the data

The manifest of a schema is found by joining the schema's directory and the configured name, but what is left
out of the data is found by comparing names of objects. The two agree if the configured name is one segment:
then no split and no sample is the manifest. Under any other name the manifest is an object like others, and
it is served whenever an object at its path would be (`manifest_served_iff`).
-/

namespace SchemaOnRead

/-! ## Objects that hold data -/

namespace LogicalTable

/-- Whether an object would hold rows of a table under any name of manifests but its own. -/
def holdsData (t : LogicalTable) (o : StoredObject) : Bool :=
  !o.isDirectory && ((FileType.ofPath? o.path).isSome || (FileType.ofMediaType? o.contentType).isSome ||
    t.fileRegexFinds o.path)

variable {t : LogicalTable} {manifestName : String} {o : StoredObject}

theorem hasMember_iff : t.hasMember manifestName o = true ↔ o.name ≠ manifestName ∧ t.holdsData o = true := by
  rw [hasMember, holdsData, Bool.and_comm (!o.isDirectory), Bool.and_assoc, Bool.and_eq_true, bne_iff_ne]

/-- An object below a directory is a member if it holds data, under a name of manifests that is not one
segment. -/
theorem hasMember_iff_holdsData (several : ¬ Path.IsSegment manifestName.toList) {root : String}
    (below : Path.Below root o.path) : t.hasMember manifestName o = true ↔ t.holdsData o = true := by
  rw [hasMember_iff, and_iff_right_iff_imp]
  rintro - rfl
  apply several
  apply Path.isSegment_name below.format_eq
  obtain ⟨s, more, parts⟩ := below.segments_eq
  rw [parts]
  simp

end LogicalTable

/-! ## The sample of a table -/

namespace Sample

variable {o p q : StoredObject} {os : List StoredObject}

theorem isSmaller_iff :
    isSmaller o p = true ↔ ∃ m, o.size = some m ∧ ∀ n, p.size = some n → m < n := by
  rw [isSmaller]
  cases o.size with
  | none => simp
  | some m =>
    cases p.size with
    | none => simp
    | some n => simp

theorem isSmaller_irrefl (o : StoredObject) : isSmaller o o = false := by
  rw [isSmaller]
  cases o.size with
  | none => rfl
  | some n => simp

theorem isSmaller_trans (first : isSmaller o p = true) (second : isSmaller p q = true) :
    isSmaller o q = true := by
  obtain ⟨m, size, below⟩ := isSmaller_iff.mp first
  obtain ⟨n, size', below'⟩ := isSmaller_iff.mp second
  refine isSmaller_iff.mpr ⟨m, size, fun k known => ?_⟩
  exact Nat.lt_trans (below n size') (below' k known)

/-- The smallest of some objects is one of them, and none is smaller. -/
theorem smallest?_spec (os : List StoredObject) :
    match smallest? os with
    | none => os = []
    | some o => o ∈ os ∧ ∀ p ∈ os, isSmaller p o = false := by
  induction os using List.reverseRecOn with
  | nil => rfl
  | append_singleton os q ih =>
    have next : smallest? (os ++ [q]) = match smallest? os with
        | none => some q
        | some p => if isSmaller q p then some q else some p := by
      rw [smallest?, List.foldl_append]
      rfl
    rw [next]
    cases before : smallest? os with
    | none =>
      rw [before] at ih
      subst ih
      simpa using isSmaller_irrefl q
    | some o =>
      rw [before] at ih
      obtain ⟨member, least⟩ := ih
      cases smaller : isSmaller q o with
      | false =>
        simp only [smaller, Bool.false_eq_true, if_false]
        refine ⟨List.mem_append_left _ member, fun p inside => ?_⟩
        rcases List.mem_append.mp inside with old | new
        · exact least p old
        · rw [List.mem_singleton.mp new]
          exact smaller
      | true =>
        simp only [smaller, if_true]
        refine ⟨List.mem_append_right _ (List.mem_singleton_self q), fun p inside => ?_⟩
        rcases List.mem_append.mp inside with old | new
        · cases below : isSmaller p q with
          | false => rfl
          | true =>
            have chain := isSmaller_trans below smaller
            rw [least p old] at chain
            cases chain
        · rw [List.mem_singleton.mp new]
          exact isSmaller_irrefl q

/-- An object that is smaller than all others is the smallest one. -/
theorem smallest?_of_isSmaller (member : o ∈ os) (least : ∀ p ∈ os, p ≠ o → isSmaller o p = true) :
    smallest? os = some o := by
  have spec := smallest?_spec os
  cases found : smallest? os with
  | none =>
    rw [found] at spec
    subst spec
    cases member
  | some p =>
    rw [found] at spec
    by_cases same : p = o
    · rw [same]
    · have smaller := least p spec.1 same
      rw [spec.2 o member] at smaller
      cases smaller

variable {s : Store} {settings : Settings} {schema : String} {t : LogicalTable}

/-- A sample is one of the objects that hold rows of the table. -/
theorem hasMember_of_object (chosen : (object s settings schema t).result = .ok o) :
    t.hasMember settings.manifestName o = true := by
  rw [object] at chosen
  cases walked : (Walk.all s t.rootPath).toList with
  | error f =>
    simp only [walked] at chosen
    cases chosen
  | ok os =>
    have spec := smallest?_spec (os.filter (t.hasMember settings.manifestName))
    simp only [walked, bind, Except.bind] at chosen
    cases found : smallest? (os.filter (t.hasMember settings.manifestName)) with
    | none =>
      rw [found] at chosen
      cases chosen
    | some p =>
      rw [found] at chosen spec
      cases chosen
      exact (List.mem_filter.mp spec.1).2

/-- The walk through all directories finds all objects. -/
theorem toList_all {es : List (String × Tree)} (listed : s.entries t.rootPath = .ok es) :
    (Walk.all s t.rootPath).toList = .ok (Tree.entryObjects t.rootPath es) := by
  obtain ⟨goes, items⟩ := Walk.exact_start listed fun _ => .ok true
  have whole : (Walk.all s t.rootPath).failure = none := goes.mpr fun _ _ _ _ => ⟨true, rfl⟩
  have every : ∀ o, Walk.yields (fun _ => .ok true) t.rootPath o = true := by
    intro o
    simp [Walk.yields, Walk.reaches, passes]
  rw [Trace.toList, whole, Walk.all, items whole]
  simp [every]

/-- An object that holds rows of a table is the sample if it is smaller than all others that do. -/
theorem object_of_isSmaller {es : List (String × Tree)} (listed : s.entries t.rootPath = .ok es)
    (member : o ∈ Tree.entryObjects t.rootPath es) (holds : t.hasMember settings.manifestName o = true)
    (least : ∀ p ∈ Tree.entryObjects t.rootPath es, t.hasMember settings.manifestName p = true →
      p ≠ o → isSmaller o p = true) : (object s settings schema t).result = .ok o := by
  have smallest : smallest? ((Tree.entryObjects t.rootPath es).filter
      (t.hasMember settings.manifestName)) = some o := by
    apply smallest?_of_isSmaller (List.mem_filter.mpr ⟨member, holds⟩)
    intro p inside different
    obtain ⟨there, holds'⟩ := List.mem_filter.mp inside
    exact least p there holds' different
  rw [object]
  simp only [toList_all listed, bind, Except.bind, smallest]
  rfl

end Sample

/-! ## Splits and manifests -/

namespace Split

variable {s : Store} {manifestName schema : String} {t : LogicalTable} {directory file : PathPredicate}

/-- A split is an object that holds rows of the table. -/
theorem exists_of_mem_generate {split : Split}
    (member : split ∈ (generate s manifestName schema t directory file).items) :
    ∃ o, t.hasMember manifestName o = true ∧ split = ofObject schema t directory file o := by
  obtain ⟨o, -, chosen⟩ := Trace.exists_of_mem_select member
  have made : some split = if t.hasMember manifestName o && passes (file.testObject o) then
      some (ofObject schema t directory file o) else none := by
    rw [← ofObject?_join, chosen]
    rfl
  split at made
  · rename_i kept
    cases made
    rw [Bool.and_eq_true] at kept
    exact ⟨o, kept.1, rfl⟩
  · cases made

/-- Under a name of manifests that is not one segment, an object at a path is a split if it holds data and is
kept, with all directories that lead to it. -/
theorem mem_generate_iff_of_not_isSegment (several : ¬ Path.IsSegment manifestName.toList) {path : String}
    (whole : (generate s manifestName schema t directory file).failure = none) :
    (∃ split ∈ (generate s manifestName schema t directory file).items, split.path = path) ↔
      Path.Below t.rootPath path ∧ ∃ o, s.head path = .ok o ∧ t.holdsData o = true ∧
        file.test path false = .ok true ∧
        ∀ a, Path.Below t.rootPath a → Path.Below a path → directory.test a true = .ok true := by
  cases listed : s.entries t.rootPath with
  | error f =>
    rw [generate_of_error listed] at whole
    cases whole
  | ok es =>
    rw [items_generate listed whole, ← List.mem_map, mem_chosen_iff listed]
    refine and_congr_right fun below => exists_congr fun o => and_congr_right fun there => ?_
    have same : o.path = path := (Store.path_of_head there).trans below.format_eq
    rw [LogicalTable.hasMember_iff_holdsData several (same ▸ below)]

end Split

namespace TableLayout

variable {s : Store} {now : Rat} {r : Registry} {l : TableLayout} {t : LogicalTable}
  {directory file : PathPredicate} {trace : SplitTrace}

theorem exists_of_splits (served : (l.splits s now r).1.result = .ok trace) :
    ∃ t directory file, (r.table s now l.table.schemaName l.table.tableName).1.result = .ok t ∧
      PathPredicate.ofTable t l.constraints r.settings.closedFiles = .ok (directory, file) ∧
      trace = Split.generate s r.settings.manifestName l.table.schemaName t directory file := by
  have steps : ((r.table s now l.table.schemaName l.table.tableName).1 >>= fun t =>
      Logged.of (Split.ofTable s r.settings l.table.schemaName t l.constraints)).result = .ok trace := served
  obtain ⟨t, declared, generated⟩ := Logged.bind_eq_ok.mp steps
  rw [Logged.of, Split.ofTable] at generated
  cases made : PathPredicate.ofTable t l.constraints r.settings.closedFiles with
  | error f =>
    rw [made] at generated
    cases generated
  | ok predicates =>
    rw [made] at generated
    cases generated
    exact ⟨t, predicates.1, predicates.2, declared, made, rfl⟩

/-- Under a name that is one segment, no split and no sample is the manifest of the schema, also when the
listing fails later on. Under any other name, the manifest is a split whenever it is below the root path of the
table, holds data by its name, its media type or the table's expression, and is kept; and it is the sample if it
is smaller than all else that holds data. -/
theorem manifest_served_iff {p : String} (path : r.manifestPath l.table.schemaName = .ok p) :
    (Path.IsSegment r.settings.manifestName.toList →
      (∀ trace, (l.splits s now r).1.result = .ok trace → ∀ split ∈ trace.items, split.path ≠ p) ∧
      ∀ t o, (Sample.object s r.settings l.table.schemaName t).result = .ok o → o.path ≠ p) ∧
    (¬ Path.IsSegment r.settings.manifestName.toList →
      (∀ t directory file trace,
        (r.table s now l.table.schemaName l.table.tableName).1.result = .ok t →
        PathPredicate.ofTable t l.constraints r.settings.closedFiles = .ok (directory, file) →
        (l.splits s now r).1.result = .ok trace → trace.failure = none →
        ((∃ split ∈ trace.items, split.path = p) ↔
          Path.Below t.rootPath p ∧ ∃ o, s.head p = .ok o ∧ t.holdsData o = true ∧
            file.test p false = .ok true ∧
            ∀ a, Path.Below t.rootPath a → Path.Below a p → directory.test a true = .ok true)) ∧
      ∀ t es o, s.entries t.rootPath = .ok es → Path.Below t.rootPath p → s.head p = .ok o →
        t.holdsData o = true →
        (∀ o' ∈ Tree.entryObjects t.rootPath es, t.holdsData o' = true → o' ≠ o →
          Sample.isSmaller o o' = true) →
        (Sample.object s r.settings l.table.schemaName t).result = .ok o) := by
  constructor
  · intro one
    have named : Path.name p = r.settings.manifestName := by
      rw [Registry.manifestPath] at path
      split at path
      · cases path
        exact Path.name_join one _
      · cases path
    have other : ∀ t o, LogicalTable.hasMember t r.settings.manifestName o = true → o.path ≠ p := by
      intro t o holds same
      apply (LogicalTable.hasMember_iff.mp holds).1
      rw [StoredObject.name, same, named]
    constructor
    · intro trace served split member
      obtain ⟨t, directory, file, -, -, rfl⟩ := exists_of_splits served
      obtain ⟨o, holds, same⟩ := Split.exists_of_mem_generate member
      rw [same]
      exact other t o holds
    · intro t o chosen
      exact other t o (Sample.hasMember_of_object chosen)
  · intro several
    constructor
    · intro t directory file trace declared made served whole
      obtain ⟨t', directory', file', declared', made', rfl⟩ := exists_of_splits served
      rw [declared] at declared'
      cases declared'
      rw [made] at made'
      cases made'
      exact Split.mem_generate_iff_of_not_isSegment several whole
    · intro t es o listed below there holds least
      have same : o.path = p := (Store.path_of_head there).trans below.format_eq
      have inside : o ∈ Tree.entryObjects t.rootPath es := by
        rw [Store.mem_objects_iff_head listed, same]
        exact ⟨below, there⟩
      have member : ∀ o' ∈ Tree.entryObjects t.rootPath es,
          (t.hasMember r.settings.manifestName o' = true ↔ t.holdsData o' = true) := by
        intro o' inside'
        exact LogicalTable.hasMember_iff_holdsData several ((Store.mem_objects_iff_head listed).mp inside').1
      apply Sample.object_of_isSmaller listed inside ((member o inside).mpr holds)
      intro o' inside' holds' different
      exact least o' inside' ((member o' inside').mp holds') different

/-- A registry whose manifests are kept in directories of their own. -/
def nestedRegistry : Registry :=
  { schemas := [("web", "/web")]
    settings := { manifestName := "meta/tables.json" }
    kept := [("web", ⟨[("all", { name := "all", rootPath := "/web", fileType := .ndjson })], 1⟩)] }

/-- The directory of a schema with its manifest and a data object. -/
def nestedStore : Store :=
  { tree := .directory [("web", .directory [
      ("a.json", .file (String.toUTF8 "\x7b\x7d\n")),
      ("meta", .directory [("tables.json", .file .empty)])])]
    proper := by decide +kernel }

def nestedManifest : StoredObject :=
  { path := "/web/meta/tables.json", isDirectory := false, size := some 0
    contentType := some "application/json" }

/-- The manifest in its own directory is served among the objects of the table. -/
theorem manifest_served_nested :
    nestedRegistry.manifestPath "web" = .ok "/web/meta/tables.json" ∧
      ∃ trace, ((of ⟨"web", "all"⟩ []).splits nestedStore 0 nestedRegistry).1.result = .ok trace ∧
        ∃ split ∈ trace.items, split.path = "/web/meta/tables.json" := by
  have path : nestedRegistry.manifestPath "web" = .ok "/web/meta/tables.json" :=
    ok_of_toOption (by decide +kernel)
  have several : ¬ Path.IsSegment nestedRegistry.settings.manifestName.toList := by
    rintro ⟨-, plain⟩
    exact plain (by decide)
  have fresh : (0 : Rat) < 1 := by decide
  have declared : (nestedRegistry.table nestedStore 0 "web" "all").1.result =
      .ok { name := "all", rootPath := "/web", fileType := .ndjson } := by
    simp only [Registry.table, Registry.tables, Registry.current?, nestedRegistry, List.lookup_cons,
      beq_self_eq_true, fresh, if_true]
    rfl
  have served : ((of ⟨"web", "all"⟩ []).splits nestedStore 0 nestedRegistry).1.result =
      .ok (Split.generate nestedStore "meta/tables.json" "web"
        { name := "all", rootPath := "/web", fileType := .ndjson } .always .always) := by
    simp only [splits, of, List.foldr_nil, Logged.bind, declared]
    rfl
  refine ⟨path, _, served, ?_⟩
  have other := (@manifest_served_iff nestedStore 0 nestedRegistry (of ⟨"web", "all"⟩ []) _ path).2 several
  apply (other.1 _ .always .always _ declared rfl served (by decide +kernel)).mpr
  refine ⟨⟨["meta", "tables.json"], by decide, by decide, by decide +kernel⟩, nestedManifest, ?_, ?_, ?_⟩
  · exact ok_of_toOption (by decide +kernel)
  · decide +kernel
  · exact ⟨rfl, fun _ _ _ => rfl⟩

end TableLayout

end SchemaOnRead
