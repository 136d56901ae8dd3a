import SchemaOnRead.Proofs.Partition.Constrained
import SchemaOnRead.Proofs.Partition.Values

/-!
# Files that are kept and values that are read

The predicate of the file level and the values of partition columns look for the same expression,
each in its own way. They agree (`file_test_agrees`): a closed predicate keeps just the paths whose
values are as the constraints require, and an open one keeps besides these just the paths in which the
expression is not found.
-/

namespace SchemaOnRead

open Sql (Constraints)

namespace PartitionDefinition

variable {d : PartitionDefinition} {p : PathRegex} {path : String} {vs : Values}

/-- Values are as constraints require. -/
def Values.Meet (vs : Values) (cs : Constraints) : Prop :=
  ∀ n v, (n, v) ∈ cs → vs.lookup n = some (some v)

/-- Where the file expression is found, it has a group for each name of its level, and the values are
what these capture. -/
theorem values_of_found (present : d.fileRegex = some p) (valued : d.values path = .ok vs)
    {m : Regex.Match} (found : p.regex.search path = some m) :
    ∀ n i, (n, i) ∈ d.fileNames.zipIdx →
      i < p.regex.groupCount ∧ vs.lookup n = some (m.group? (i + 1)) := by
  obtain ⟨before, -, added⟩ := values_eq_ok.mp valued
  have first : [path].findSome? p.regex.search = some m := by simp [found]
  rw [present] at added
  exact (lookup_addLevel_of_match d.fileNames_nodup first added).1

/-- A level has values only for its names. -/
theorem lookup_addLevel_of_other {r : Option PathRegex} {names candidates : List String}
    (distinct : names.Nodup) {before : Values} (added : addLevel path r names candidates before = .ok vs)
    {k : String} (other : k ∉ names) : vs.lookup k = before.lookup k := by
  cases r with
  | none =>
    cases added
    rfl
  | some r =>
    cases first : candidates.findSome? r.regex.search with
    | none => rw [lookup_addLevel_of_none first added, if_neg other, Option.or_none]
    | some m => exact (lookup_addLevel_of_match distinct first added).2 k other

/-- Where the file expression is not found, the names of its level are null, as long as the directories
have none of them. -/
theorem values_of_missing (present : d.fileRegex = some p)
    (apart : ∀ n ∈ d.fileNames, n ∉ d.directoryNames) (valued : d.values path = .ok vs)
    (missing : p.regex.search path = none) : ∀ n ∈ d.fileNames, vs.lookup n = some none := by
  obtain ⟨before, directories, added⟩ := values_eq_ok.mp valued
  rw [present] at added
  intro n inside
  have nowhere : [path].findSome? p.regex.search = none := by simp [missing]
  have unset : before.lookup n = none :=
    lookup_addLevel_of_other d.directoryNames_nodup directories (apart n inside)
  rw [lookup_addLevel_of_none nowhere added, unset, if_pos inside, Option.none_or]

end PartitionDefinition

namespace PathPredicate

open PartitionDefinition (Values)

variable {d : PartitionDefinition} {p : PathRegex} {path : String} {vs : Values} {cs : Constraints}

/-- Where the file expression is found, it captures what is required just if the values of the path are
as required. -/
theorem captures_iff_meet (present : d.fileRegex = some p) (valued : d.values path = .ok vs)
    (distinct : (cs.map Prod.fst).Nodup) (inside : ∀ n v, (n, v) ∈ cs → n ∈ d.fileNames)
    {m : Regex.Match} (found : p.regex.search path = some m) :
    Captures p d.fileNames cs path ↔ vs.Meet cs := by
  have values := PartitionDefinition.values_of_found present valued found
  constructor
  · intro captures n v member
    obtain ⟨i, named⟩ := mem_zipIdx_of_mem (inside n v member)
    rw [(values n i named).2, (captures m found n i v named (lookup_of_mem distinct member)).2]
  · intro meet other again n i v named required
    cases found.symm.trans again
    obtain ⟨hasGroup, value⟩ := values n i named
    have expected := meet n v (mem_of_lookup_eq_some required)
    exact ⟨hasGroup, Option.some.inj (value.symm.trans expected)⟩

/-- A predicate that constrains a name of its level keeps a path in which its expression is not found
unless it is closed. -/
theorem test_ofLevel_of_missing {level : PartitionLevel} {names : List String} {n v : String}
    (named : n ∈ names) (required : cs.lookup n = some v) (missing : p.regex.search path = none)
    (closed : Bool) : (ofLevel level (some p) names cs closed).test path = .ok !closed := by
  have constrains : ¬ (constrained cs (PartitionDefinition.columnsOf level (some p) names)).isEmpty =
      true := by
    rw [isEmpty_constrained]
    intro free
    cases required.symm.trans (free n named)
  rw [ofLevel, test_ofPairs, if_neg constrains, searched, if_neg Bool.false_ne_true, missing]

/-- The predicate of the file level answers for every path that has values, and what it says of the path
is told by these. -/
theorem test_file (present : d.fileRegex = some p) (apart : ∀ n ∈ d.fileNames, n ∉ d.directoryNames)
    (valued : d.values path = .ok vs) (constrains : cs ≠ []) (distinct : (cs.map Prod.fst).Nodup)
    (inside : ∀ n v, (n, v) ∈ cs → n ∈ d.fileNames) (closed : Bool) :
    ∃ kept, (ofLevel .file d.fileRegex d.fileNames cs closed).test path = .ok kept ∧
      (kept = true ↔ vs.Meet cs ∨ closed = false ∧ p.regex.search path = none) := by
  cases found : p.regex.search path with
  | none =>
    obtain ⟨⟨n, v⟩, first⟩ := List.exists_mem_of_ne_nil cs constrains
    have named := inside n v first
    have unmet : ¬ vs.Meet cs := by
      intro meet
      have null := PartitionDefinition.values_of_missing present apart valued found n named
      cases null.symm.trans (meet n v first)
    refine ⟨!closed, ?_, by simp [unmet]⟩
    rw [present]
    exact test_ofLevel_of_missing named (lookup_of_mem distinct first) found closed
  | some m =>
    have groups : HasGroups d.fileRegex d.fileNames cs := by
      intro r there n i member _
      cases present.symm.trans there
      exact (PartitionDefinition.values_of_found present valued found n i member).1
    obtain ⟨kept, answer⟩ : ∃ kept, (ofLevel .file d.fileRegex d.fileNames cs closed).test path = .ok kept :=
      test_ofLevel_of_hasGroups groups closed path false
    have keeps : kept = true ↔ Keeps d.fileRegex d.fileNames cs closed path := by
      have test : (ofLevel .file d.fileRegex d.fileNames cs closed).test path = .ok true ↔
          Keeps d.fileRegex d.fileNames cs closed path := test_ofLevel
      rw [← test, answer]
      exact ⟨congrArg Except.ok, Except.ok.inj⟩
    refine ⟨kept, answer, ?_⟩
    rw [keeps, ← captures_iff_meet present valued distinct inside found, present]
    simp [Keeps, found]

/-- From constraints on names of the file level, a closed and an open predicate are made. Both answer
for every path that has values: the closed one keeps it just if its values are as required, the open one
also if the expression is not found in it. -/
theorem file_test_agrees (present : d.fileRegex = some p)
    (apart : ∀ n ∈ d.fileNames, n ∉ d.directoryNames) (valued : d.values path = .ok vs)
    (constrains : cs ≠ []) (distinct : (cs.map Prod.fst).Nodup)
    (inside : ∀ n v, (n, v) ∈ cs → n ∈ d.fileNames) :
    ∃ strict lenient,
      ofConstraints (PartitionDefinition.regexText d.fileRegex) cs.toFields d.fileColumns true =
        .ok strict ∧
      ofConstraints (PartitionDefinition.regexText d.fileRegex) cs.toFields d.fileColumns false =
        .ok lenient ∧
      (∃ kept, strict.test path = .ok kept ∧ (kept = true ↔ vs.Meet cs)) ∧
      ∃ kept, lenient.test path = .ok kept ∧
        (kept = true ↔ vs.Meet cs ∨ p.regex.search path = none) := by
  have test := test_file present apart valued constrains distinct inside
  refine ⟨_, _, ofConstraints_texts cs .file d.fileRegex d.fileNames true,
    ofConstraints_texts cs .file d.fileRegex d.fileNames false, ?_, ?_⟩
  · simpa using test true
  · simpa using test false

/-- A partition definition by files, of which the second group may take no part. -/
def datedPartition : PartitionDefinition :=
  { fileRegex := (PathRegex.ofText "^/t/([0-9]+)-([a-z])?").toOption.join
    fileNames := ["year", "part"], fileNames_nodup := by decide }

/-- The group of the second column takes no part in the path, so that its value is null and the path is
not kept. -/
theorem file_test_agrees_dated :
    datedPartition.values "/t/1998-" = .ok [("year", some "1998"), ("part", none)] ∧
    ∃ strict, ofConstraints (PartitionDefinition.regexText datedPartition.fileRegex)
        (Constraints.toFields [("part", "a")]) datedPartition.fileColumns true = .ok strict ∧
      strict.test "/t/1998-" = .ok false := by
  have valued : datedPartition.values "/t/1998-" = .ok [("year", some "1998"), ("part", none)] :=
    ok_of_toOption (by decide +kernel)
  have read : datedPartition.fileRegex.isSome = true := by decide +kernel
  obtain ⟨p, present⟩ := Option.isSome_iff_exists.mp read
  have apart : ∀ n ∈ datedPartition.fileNames, n ∉ datedPartition.directoryNames := by
    intro n _
    exact List.not_mem_nil
  have inside : ∀ n v, (n, v) ∈ [("part", "a")] → n ∈ datedPartition.fileNames := by
    intro n v member
    cases List.mem_singleton.mp member
    exact List.mem_cons_of_mem _ (List.mem_singleton_self _)
  obtain ⟨strict, -, made, -, ⟨kept, answer, agrees⟩, -⟩ :=
    file_test_agrees present apart valued (List.cons_ne_nil _ _) (by simp) inside
  refine ⟨valued, strict, made, ?_⟩
  have refused : ¬ kept = true := by
    rw [agrees]
    intro meet
    cases (meet "part" "a" (List.mem_singleton_self _) : some none = some (some "a"))
  rw [answer, eq_false_of_ne_true refused]

end PathPredicate

end SchemaOnRead
