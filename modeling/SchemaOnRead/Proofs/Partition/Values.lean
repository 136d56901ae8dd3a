import SchemaOnRead.Catalog.PartitionDefinition

/-!
# The values of partition columns

If the expression of a level is found in a path, each name of the level has what its group captures
there, and all other names keep their values (`lookup_addMatch`). If it is not found, names of the
level that have no value yet are null (`lookup_addMissing`).
-/

namespace SchemaOnRead.PartitionDefinition

theorem lookup_cons_eq_ite (k n : String) (v : Option String) (vs : Values) :
    List.lookup k ((n, v) :: vs) = if k = n then some v else vs.lookup k := by
  rw [List.lookup_cons]
  by_cases same : k = n
  · rw [if_pos same, beq_iff_eq.mpr same]
  · rw [if_neg same, beq_eq_false_iff_ne.mpr same]

theorem lookup_setValue (vs : Values) (n k : String) (v : Option String) :
    (setValue vs n v).lookup k = if k = n then some v else vs.lookup k := by
  induction vs with
  | nil => rw [setValue, lookup_cons_eq_ite]
  | cons p rest ih =>
    obtain ⟨m, w⟩ := p
    rw [setValue]
    by_cases here : m = n
    · subst here
      rw [if_pos rfl, lookup_cons_eq_ite, lookup_cons_eq_ite]
      by_cases same : k = m <;> simp only [same, if_true, if_false]
    · rw [if_neg here, lookup_cons_eq_ite, lookup_cons_eq_ite, ih]
      by_cases same : k = m
      · subst same
        rw [if_pos rfl, if_neg here, if_pos rfl]
      · simp only [same, if_false]

/-- Names that are there keep their values, and the other names are added as null. -/
theorem lookup_addMissing (vs : Values) (names : List String) (k : String) :
    (addMissing vs names).lookup k =
      (vs.lookup k).or (if k ∈ names then some none else none) := by
  rw [addMissing]
  induction names generalizing vs with
  | nil => simp
  | cons n rest ih =>
    rw [List.foldl_cons, ih]
    by_cases same : k = n
    · subst same
      cases found : vs.lookup k with
      | none => simp [found, List.lookup_append]
      | some v => simp [found]
    · by_cases there : (vs.lookup n).isSome = true
      · simp [there, same]
      · rw [if_neg there, List.lookup_append, lookup_cons_eq_ite, if_neg same]
        simp [same]

theorem addMatch_cons (path : String) (r : Regex) (m : Regex.Match) (vs : Values) (n : String)
    (i : Nat) (rest : List (String × Nat)) :
    addMatch path r m vs ((n, i) :: rest) =
      if r.groupCount < i + 1 then fail (.noSuchGroup (i + 1) r.source path r.groupCount)
      else addMatch path r m (setValue vs n (m.group? (i + 1))) rest := by
  rw [addMatch, List.foldlM_cons]
  by_cases absent : r.groupCount < i + 1
  · simp only [if_pos absent]
    rfl
  · simp only [if_neg absent]
    rfl

/-- A match gives each name what its group captures, and the expression has all these groups. -/
theorem lookup_addMatch {path : String} {r : Regex} {m : Regex.Match} {names : List (String × Nat)}
    (distinct : (names.map (·.1)).Nodup) {vs found : Values}
    (added : addMatch path r m vs names = .ok found) :
    (∀ n i, (n, i) ∈ names → i < r.groupCount ∧ found.lookup n = some (m.group? (i + 1))) ∧
      ∀ k, k ∉ names.map (·.1) → found.lookup k = vs.lookup k := by
  induction names generalizing vs with
  | nil =>
    cases added
    exact ⟨fun _ _ member => (nomatch member), fun _ _ => rfl⟩
  | cons p rest ih =>
    obtain ⟨n, i⟩ := p
    obtain ⟨fresh, distinctRest⟩ := List.nodup_cons.mp distinct
    rw [addMatch_cons] at added
    by_cases absent : r.groupCount < i + 1
    · rw [if_pos absent] at added
      cases added
    · rw [if_neg absent] at added
      obtain ⟨captured, kept⟩ := ih distinctRest added
      constructor
      · intro n' i' member
        rcases List.mem_cons.mp member with same | inside
        · cases same
          refine ⟨by omega, ?_⟩
          rw [kept n fresh, lookup_setValue, if_pos rfl]
        · exact captured n' i' inside
      · intro k outside
        rw [List.map_cons, List.mem_cons, not_or] at outside
        rw [kept k outside.2, lookup_setValue, if_neg outside.1]

/-- A level whose expression is found in the first text that has it gives each of its names what its
group captures there. -/
theorem lookup_addLevel_of_match {path : String} {r : PathRegex} {names : List String}
    (distinct : names.Nodup) {candidates : List String} {m : Regex.Match}
    (first : candidates.findSome? r.regex.search = some m) {vs found : Values}
    (added : addLevel path (some r) names candidates vs = .ok found) :
    (∀ n i, (n, i) ∈ names.zipIdx →
        i < r.regex.groupCount ∧ found.lookup n = some (m.group? (i + 1))) ∧
      ∀ k, k ∉ names → found.lookup k = vs.lookup k := by
  rw [addLevel] at added
  simp only [first] at added
  have named : names.zipIdx.map (·.1) = names := List.zipIdx_map_fst 0 names
  simpa [named] using lookup_addMatch (named.symm ▸ distinct) added

/-- A level whose expression is not found makes those of its names null that have no value. -/
theorem lookup_addLevel_of_none {path : String} {r : PathRegex} {names : List String}
    {candidates : List String} (missing : candidates.findSome? r.regex.search = none)
    {vs found : Values} (added : addLevel path (some r) names candidates vs = .ok found) (k : String) :
    found.lookup k = (vs.lookup k).or (if k ∈ names then some none else none) := by
  rw [addLevel] at added
  simp only [missing] at added
  cases added
  exact lookup_addMissing vs names k

theorem values_eq_ok {d : PartitionDefinition} {path : String} {found : Values} :
    d.values path = .ok found ↔
      ∃ vs, addLevel path d.directoryRegex d.directoryNames [path, parent path] [] = .ok vs ∧
        addLevel path d.fileRegex d.fileNames [path] vs = .ok found := by
  rw [values]
  cases addLevel path d.directoryRegex d.directoryNames [path, parent path] [] <;>
    simp [bind, Except.bind]

end SchemaOnRead.PartitionDefinition
