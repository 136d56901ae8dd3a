import SchemaOnRead.Proofs.Partition.Constrained
import SchemaOnRead.Proofs.Partition.Values
import SchemaOnRead.Proofs.Splits.Exactness

/-!
# What constraints leave out

A split of a table qualifies under constraints if the values of its partition columns are as the
constraints require. Such a split is left out by the layout under these constraints exactly if the
directory expression captures another value in a directory that leads to the split, or if the file
predicate is closed and does not find its expression (`qualifying_kept_iff`).
-/

namespace SchemaOnRead

open Sql (Constraints)
open PathPredicate (Captures HasGroups Keeps)

namespace TableLayout

/-- Constraints that require the same, and that no two texts of one column, look up alike. -/
theorem lookup_congr {as bs : Constraints} (members : ∀ e, e ∈ as ↔ e ∈ bs)
    {f : String → Option (Option String)} (agrees : ∀ n v, (n, v) ∈ bs → f n = some (some v))
    (n : String) :
    as.lookup n = bs.lookup n := by
  cases found : as.lookup n with
  | none =>
    refine (List.lookup_eq_none_iff.mpr fun e inside => ?_).symm
    exact List.lookup_eq_none_iff.mp found e ((members e).mpr inside)
  | some v =>
    have inside := (members _).mp (mem_of_lookup_eq_some found)
    have there : (bs.lookup n).isSome = true :=
      List.lookup_isSome_iff.mpr ⟨(n, v), inside, beq_self_eq_true n⟩
    obtain ⟨w, found'⟩ := Option.isSome_iff_exists.mp there
    have same := (agrees n v inside).symm.trans (agrees n w (mem_of_lookup_eq_some found'))
    cases same
    exact found'.symm

/-- Whether a layout can be drained: if the generation of its splits goes through. -/
theorem drained_eq_ok {s : Store} {now : Rat} {r : Registry} {l : TableLayout} {t : LogicalTable}
    {directory file : PathPredicate} {size : Int} (positive : 0 < size)
    (declared : (r.table s now l.table.schemaName l.table.tableName).1.result = .ok t)
    (made : PathPredicate.ofTable t l.constraints r.settings.closedFiles = .ok (directory, file))
    {es : List (String × Tree)} (listed : s.entries t.rootPath = .ok es) {splits : List Split} :
    l.drained s now r size = .ok splits ↔
      Split.Settled r.settings.manifestName t directory file (Tree.entryObjects t.rootPath es) ∧
        splits = ((Tree.entryObjects t.rootPath es).filter
          (Split.isChosen r.settings.manifestName t directory file)).map
            (Split.ofObject l.table.schemaName t directory file) := by
  rw [drained_eq positive declared made, ← Split.failure_generate l.table.schemaName listed,
    Trace.toList]
  cases whole : (Split.generate s r.settings.manifestName l.table.schemaName t directory file).failure with
  | some f => simp
  | none => simp [Split.items_generate listed whole, eq_comm]

/-- An object below the root path is among the splits chosen, under whatever predicates it was found
before, exactly if it is chosen. -/
theorem exists_same_iff {s : Store} {manifestName schema : String} {t : LogicalTable}
    {directory file before before' : PathPredicate} {es : List (String × Tree)}
    (listed : s.entries t.rootPath = .ok es) {o : StoredObject}
    (member : o ∈ Tree.entryObjects t.rootPath es) :
    (∃ p ∈ ((Tree.entryObjects t.rootPath es).filter
        (Split.isChosen manifestName t directory file)).map (Split.ofObject schema t directory file),
      p.same (Split.ofObject schema t before before' o) = true) ↔
      Split.isChosen manifestName t directory file o = true := by
  constructor
  · rintro ⟨p, inside, same⟩
    obtain ⟨other, kept, rfl⟩ := List.mem_map.mp inside
    obtain ⟨there, chosen⟩ := List.mem_filter.mp kept
    have path : other.path = o.path := by
      simp only [Split.same, Bool.and_eq_true, beq_iff_eq] at same
      exact same.1.1.2
    have found := ((Store.mem_objects_iff_head listed).mp there).2
    rw [path, ((Store.mem_objects_iff_head listed).mp member).2] at found
    cases found
    exact chosen
  · intro chosen
    refine ⟨_, List.mem_map_of_mem (List.mem_filter.mpr ⟨member, chosen⟩), ?_⟩
    simp [Split.same, Split.ofObject]

end TableLayout

namespace PathPredicate

/-- What the file expression captures in the path of an object is what the values of the object are,
so that it is as required wherever the values are. -/
theorem captures_file {d : PartitionDefinition} {path : String} {vs : PartitionDefinition.Values}
    (valued : d.values path = .ok vs) {cs : Constraints}
    (qualifies : ∀ n v, (n, v) ∈ cs → vs.lookup n = some (some v)) {p : PathRegex}
    (present : d.fileRegex = some p) : Captures p d.fileNames cs path := by
  intro m found n i v inside required
  obtain ⟨before, -, added⟩ := PartitionDefinition.values_eq_ok.mp valued
  rw [present] at added
  have first : [path].findSome? p.regex.search = some m := by simp [found]
  obtain ⟨captured, -⟩ :=
    PartitionDefinition.lookup_addLevel_of_match d.fileNames_nodup first added
  obtain ⟨hasGroup, value⟩ := captured n i inside
  have expected := qualifies n v (mem_of_lookup_eq_some required)
  exact ⟨hasGroup, Option.some.inj (value.symm.trans expected)⟩

/-- The file predicate keeps an object whose values are as required, unless it is closed and does not
find its expression. -/
theorem test_file_iff {d : PartitionDefinition} {path : String} {vs : PartitionDefinition.Values}
    (valued : d.values path = .ok vs) {cs : Constraints}
    (qualifies : ∀ n v, (n, v) ∈ cs → vs.lookup n = some (some v)) {closed : Bool} :
    (ofLevel .file d.fileRegex d.fileNames cs closed).test path false = .ok true ↔
      (closed = true → ∀ p, d.fileRegex = some p → p.regex.search path = none →
        ∀ n ∈ d.fileNames, cs.lookup n = none) := by
  rw [test_ofLevel]
  constructor
  · exact fun keeps isClosed p present missing => (keeps p present).2 missing isClosed
  · exact fun unconstrained p present =>
      ⟨captures_file valued qualifies present, fun missing isClosed =>
        unconstrained isClosed p present missing⟩

/-- The directory predicate keeps a directory if what its expression captures there is as
required. -/
theorem test_directory_iff {d : PartitionDefinition} {cs : Constraints} {path : String} :
    (ofLevel .directory d.directoryRegex d.directoryNames cs).test path true = .ok true ↔
      ∀ p, d.directoryRegex = some p → Captures p d.directoryNames cs (path ++ "/") := by
  rw [test_ofLevel]
  exact forall₂_congr fun p _ => ⟨And.left, fun captures => ⟨captures, fun _ open' => nomatch open'⟩⟩

end PathPredicate

namespace TableLayout

/-- A split that qualifies under constraints is kept exactly if in every directory that leads to it,
in which the directory expression is found, the expression captures the texts required of directory
columns, and if a closed file predicate that has something to require finds its expression. If the
expressions have all groups that are needed, the constrained layout can be drained. -/
theorem qualifying_kept_iff {s : Store} {now : Rat} {r : Registry} {h : TableHandle}
    {t : LogicalTable} {d : PartitionDefinition} {size : Int} (positive : 0 < size)
    (declared : (r.table s now h.schemaName h.tableName).1.result = .ok t)
    (partitioned : t.partition = some d) {all : List Split}
    (drained : (of h []).drained s now r size = .ok all) {o : Split} (member : o ∈ all)
    {vs : PartitionDefinition.Values} (valued : d.values o.path = .ok vs) {cs : Constraints}
    (qualifies : ∀ n v, (n, v) ∈ cs → vs.lookup n = some (some v)) :
    (HasGroups d.directoryRegex d.directoryNames cs → HasGroups d.fileRegex d.fileNames cs →
      ∃ kept, (of h cs.toFields).drained s now r size = .ok kept) ∧
    ∀ kept, (of h cs.toFields).drained s now r size = .ok kept →
      ((∃ p ∈ kept, p.same o = true) ↔
        (∀ a, Path.Below t.rootPath a → Path.Below a o.path → ∀ p, d.directoryRegex = some p →
          Captures p d.directoryNames cs (a ++ "/")) ∧
        (r.settings.closedFiles = true → ∀ p, d.fileRegex = some p →
          p.regex.search o.path = none → ∀ n ∈ d.fileNames, cs.lookup n = none)) := by
  obtain ⟨ordered, fields, members⟩ := constraints_of_texts h cs
  have lookups : ∀ n, ordered.lookup n = cs.lookup n :=
    lookup_congr members (f := fun n => vs.lookup n) qualifies
  have qualifies' : ∀ n v, (n, v) ∈ ordered → vs.lookup n = some (some v) :=
    fun n v inside => qualifies n v ((members _).mp inside)
  have made := (congrArg (PathPredicate.ofTable t · r.settings.closedFiles) fields).trans
    (PathPredicate.ofTable_texts partitioned ordered r.settings.closedFiles)
  have free := PathPredicate.ofTable_texts partitioned [] r.settings.closedFiles
  have listed : ∃ es, s.entries t.rootPath = .ok es := by
    cases listed : s.entries t.rootPath with
    | ok es => exact ⟨es, rfl⟩
    | error f =>
      rw [drained_eq positive declared free, Split.generate_of_error listed] at drained
      cases drained
  obtain ⟨es, listed⟩ := listed
  obtain ⟨-, rfl⟩ := (drained_eq_ok positive declared free listed).mp drained
  obtain ⟨object, inside, isObject⟩ := List.mem_map.mp member
  have path : o.path = object.path := congrArg Split.path isObject.symm
  rw [path] at valued ⊢
  obtain ⟨there, chosen⟩ := List.mem_filter.mp inside
  have below := ((Store.mem_objects_iff_head listed).mp there).1
  constructor
  · intro directoryGroups fileGroups
    refine ⟨_, (drained_eq_ok positive declared made listed).mpr ⟨⟨?_, ?_⟩, rfl⟩⟩
    · exact fun o _ _ _ => PathPredicate.test_ofLevel_of_hasGroups (by simpa only [HasGroups, lookups]) _ _ _
    · exact fun o _ _ _ => PathPredicate.test_ofLevel_of_hasGroups (by simpa only [HasGroups, lookups]) _ _ _
  · intro kept keptDrained
    obtain ⟨-, rfl⟩ := (drained_eq_ok positive declared made listed).mp keptDrained
    have isMember := ((Split.isChosen_iff below).mp chosen).1
    rw [← isObject]
    refine (exists_same_iff listed there).trans ((Split.isChosen_iff below).trans ?_)
    rw [PathPredicate.test_file_iff valued qualifies']
    simp only [PathPredicate.test_directory_iff, Captures, lookups]
    exact ⟨fun ⟨_, file, directories⟩ => ⟨directories, file⟩,
      fun ⟨directories, file⟩ => ⟨isMember, file, directories⟩⟩

/-- The expression finds less of the folders in a directory above an object than in the path of the
object, so that the object is left out although its value is the one that is required. -/
theorem folder_lost : ∃ all kept o,
    (of ⟨"s", "t"⟩ []).drained folders 0 folderRegistry 2 = .ok all ∧ o ∈ all ∧
    folderPartition.values o.path = .ok [("folder", some "a/b")] ∧
    (of ⟨"s", "t"⟩ [("folder", .text "a/b")]).drained folders 0 folderRegistry 2 = .ok kept ∧
    ¬ ∃ p ∈ kept, p.same o = true := by
  have free : ((of ⟨"s", "t"⟩ []).drained folders 0 folderRegistry 2).toOption.any
      (·.any (·.path == "/t/a/b/y.json")) = true := by decide +kernel
  have valued : (folderPartition.values "/t/a/b/y.json").toOption = some [("folder", some "a/b")] := by
    decide +kernel
  have shorter : folderRegex.any (fun p => ((p.regex.search ("/t/a" ++ "/")).bind (·.group? 1)) ==
      some "a") = true := by decide +kernel
  have upper : Path.Below "/t" "/t/a" := ⟨["a"], by decide, by decide +kernel, by decide +kernel⟩
  have lower : Path.Below "/t/a" "/t/a/b/y.json" :=
    ⟨["b", "y.json"], by decide, by decide +kernel, by decide +kernel⟩
  obtain ⟨all, drained, found⟩ := (Option.any_eq_true ..).mp free
  obtain ⟨o, member, path⟩ := List.any_eq_true.mp found
  rw [beq_iff_eq] at path
  replace drained := ok_of_toOption drained
  replace valued := ok_of_toOption valued
  rw [← path] at valued lower
  have qualifies : ∀ n v, (n, v) ∈ [("folder", "a/b")] →
      [("folder", some "a/b")].lookup n = some (some v) := by
    intro n v member
    cases List.mem_singleton.mp member
    rfl
  obtain ⟨drains, exactly⟩ := qualifying_kept_iff (by decide) table_folderRegistry rfl drained member
    valued qualifies
  obtain ⟨kept, keptDrained⟩ := drains (hasGroups_folder _) (PathPredicate.hasGroups_none _ _)
  refine ⟨all, kept, o, drained, member, valued, keptDrained, fun there => ?_⟩
  obtain ⟨p, present, short⟩ := (Option.any_eq_true ..).mp shorter
  obtain ⟨m, searched, captured⟩ := Option.bind_eq_some_iff.mp (beq_iff_eq.mp short)
  have required := ((exactly kept keptDrained).mp there).1 "/t/a" upper lower p present m searched
    "folder" 0 "a/b" (by decide) (by decide)
  rw [captured] at required
  exact absurd required.2 (by decide)

end TableLayout

end SchemaOnRead
