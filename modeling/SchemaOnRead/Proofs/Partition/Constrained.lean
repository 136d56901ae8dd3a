import SchemaOnRead.Splits.Split
import SchemaOnRead.Sql.Constraints

/-!
# Predicates of constraints that are texts

A constraint requires a column to have one text. From such constraints a predicate is always made
for a level of a path (`ofConstraints_texts`, `ofTable_texts`). It keeps a path if the expression
of the level is found in it and captures the text of every constrained column (`test_ofLevel`), and
it fails on no path if the expression has a group for every constrained column
(`test_ofLevel_of_hasGroups`).
-/

namespace SchemaOnRead

open Sql (Constraints)

namespace TableLayout

/-- The constraints of a layout made of texts are texts. -/
theorem constraints_of_texts (h : TableHandle) (cs : Constraints) :
    ∃ ordered : Constraints, (of h cs.toFields).constraints = ordered.toFields ∧
      ∀ e, e ∈ ordered ↔ e ∈ cs := by
  induction cs with
  | nil => exact ⟨[], rfl, fun e => Iff.rfl⟩
  | cons c rest ih =>
    obtain ⟨ordered, same, members⟩ := ih
    have placed : ∀ ordered : Constraints, ∃ more : Constraints,
        insert (c.1, .text c.2) ordered.toFields = more.toFields ∧
          ∀ e, e ∈ more ↔ e = c ∨ e ∈ ordered := by
      intro ordered
      induction ordered with
      | nil => exact ⟨[c], rfl, fun e => by simp⟩
      | cons d others again =>
        obtain ⟨more, inserted, members⟩ := again
        by_cases before : c.1 < d.1
        · exact ⟨c :: d :: others, if_pos before, fun e => by simp⟩
        · refine ⟨d :: more, (if_neg before).trans ?_, fun e => ?_⟩
          · exact congrArg ((d.1, Value.text d.2) :: ·) inserted
          · rw [List.mem_cons, members, List.mem_cons, or_left_comm]
    obtain ⟨more, inserted, membersMore⟩ := placed ordered
    refine ⟨more, ?_, fun e => ?_⟩
    · rw [← inserted, ← same]
      rfl
    · rw [membersMore, members, List.mem_cons]

end TableLayout

namespace PathPredicate

theorem field?_toFields (cs : Constraints) (n : String) :
    Value.field? cs.toFields n = (cs.lookup n).map .text := by
  rw [Value.field?, Constraints.toFields]
  induction cs with
  | nil => rfl
  | cons c rest ih =>
    rw [List.map_cons, List.lookup_cons, List.lookup_cons]
    cases n == c.1 with
    | true => rfl
    | false => exact ih

/-! ## The predicate of a level -/

/-- The columns that are constrained, each with its text. -/
def constrained (cs : Constraints) (columns : List Column) : List (Column × String) :=
  columns.filterMap fun c => (cs.lookup c.name).map (c, ·)

/-- The predicate that constrains some columns of a level to texts. -/
def ofPairs (r : PathRegex) (pairs : List (Column × String)) (closed : Bool) : PathPredicate :=
  if pairs.isEmpty then always
  else
    { columns := pairs.map (·.1), values := pairs.map fun p => .text p.2, regex := some r, closed }

/-- The predicate of a level whose columns have the given names. -/
def ofLevel (level : PartitionLevel) (r : Option PathRegex) (names : List String)
    (cs : Constraints) (closed : Bool := false) : PathPredicate :=
  match r with
  | none => always
  | some p => ofPairs p (constrained cs (PartitionDefinition.columnsOf level r names)) closed

theorem compile_source (r : PathRegex) : compile (.text r.regex.source) = .ok (some r) := by
  rw [compile, PathRegex.ofText_source]

/-- The text of an expression makes a predicate on any columns with as many values. -/
theorem of_source {columns : List Column} {values : List Value} (count : columns.length = values.length)
    (r : PathRegex) (closed : Bool) :
    of columns values (.text r.regex.source) closed = .ok { columns, values, regex := some r, closed } := by
  rw [of, if_neg (not_not_intro count)]
  simp only [r.notBlank, Bool.and_false, Bool.false_eq_true, if_false, compile_source]
  rfl

theorem of_pairs {r : PathRegex} {pairs : List (Column × String)} (present : pairs ≠ [])
    (closed : Bool) :
    of (pairs.map (·.1)) (pairs.map fun p => .text p.2) (.text r.regex.source) closed =
      .ok (ofPairs r pairs closed) := by
  have nonempty : ¬ pairs.isEmpty = true := by simpa [List.isEmpty_iff] using present
  rw [of_source (by simp), ofPairs, if_neg nonempty]

/-- The constrained columns are found, with their texts, if they hold texts. -/
theorem mapM_singleText {cs : Constraints} {columns : List Column}
    (varchar : ∀ c ∈ columns, c.type = .varchar) :
    ((columns.filter fun c => (Value.field? cs.toFields c.name).isSome).mapM fun c => do
      return (c, Value.text (← singleText c (Value.fieldD cs.toFields c.name)))) =
      (.ok ((constrained cs columns).map fun p => (p.1, .text p.2)) :
        Result (List (Column × Value))) := by
  induction columns with
  | nil => rfl
  | cons c rest ih =>
    obtain ⟨isVarchar, others⟩ := List.forall_mem_cons.mp varchar
    have more := ih others
    rw [List.filter_cons, constrained, List.filterMap_cons, field?_toFields]
    cases found : cs.lookup c.name with
    | none => exact more
    | some s =>
      have text : singleText c (Value.fieldD cs.toFields c.name) = .ok s := by
        rw [Value.fieldD, field?_toFields, found]
        exact if_pos isVarchar
      rw [Option.map_some, Option.isSome_some, if_pos rfl, List.mapM_cons, text, more]
      rfl

/-- From constraints that are texts the predicate of a level is made. -/
theorem ofConstraints_texts (cs : Constraints) (level : PartitionLevel) (r : Option PathRegex)
    (names : List String) (closed : Bool) :
    ofConstraints (PartitionDefinition.regexText r) cs.toFields
      (PartitionDefinition.columnsOf level r names) closed = .ok (ofLevel level r names cs closed) := by
  cases r with
  | none => rfl
  | some r =>
    have varchar : ∀ c ∈ PartitionDefinition.columnsOf level (some r) names, c.type = .varchar := by
      intro c member
      obtain ⟨p, -, rfl⟩ := List.mem_map.mp member
      rfl
    rw [PartitionDefinition.regexText, Option.map_some, ofConstraints, mapM_singleText varchar,
      ofLevel]
    generalize constrained cs (PartitionDefinition.columnsOf level (some r) names) = pairs
    cases pairs with
    | nil => rfl
    | cons p rest =>
      have made := of_pairs (r := r) (List.cons_ne_nil p rest) closed
      simpa [bind, Except.bind, List.map_map, Function.comp_def] using made

/-- From constraints that are texts the predicates of a table are made. -/
theorem ofTable_texts {t : LogicalTable} {d : PartitionDefinition} (partitioned : t.partition = some d)
    (cs : Constraints) (closed : Bool) :
    ofTable t cs.toFields closed =
      .ok (ofLevel .directory d.directoryRegex d.directoryNames cs,
        ofLevel .file d.fileRegex d.fileNames cs closed) := by
  rw [ofTable, partitioned]
  cases cs with
  | nil =>
    have unconstrained : ∀ level r names closed, ofLevel level r names [] closed = always := by
      intro level r names closed
      cases r with
      | none => rfl
      | some r => simp [ofLevel, constrained, ofPairs]
    rw [unconstrained, unconstrained]
    rfl
  | cons c rest =>
    have directory := ofConstraints_texts (c :: rest) .directory d.directoryRegex d.directoryNames false
    have file := ofConstraints_texts (c :: rest) .file d.fileRegex d.fileNames closed
    simp only [PartitionDefinition.directoryColumns, PartitionDefinition.fileColumns, directory, file]
    rfl

/-! ## What a predicate keeps -/

/-- Wherever an expression is found in a text, each constrained name of its level has its text in the
group that belongs to the name. -/
def Captures (r : PathRegex) (names : List String) (cs : Constraints) (text : String) : Prop :=
  ∀ m, r.regex.search text = some m → ∀ n i v, (n, i) ∈ names.zipIdx → cs.lookup n = some v →
    i < r.regex.groupCount ∧ m.group? (i + 1) = some v

/-- The expression of a level has a group for each of its names that is constrained. -/
def HasGroups (r : Option PathRegex) (names : List String) (cs : Constraints) : Prop :=
  ∀ p, r = some p → ∀ n i, (n, i) ∈ names.zipIdx → (cs.lookup n).isSome = true →
    i < p.regex.groupCount

theorem hasGroups_none (names : List String) (cs : Constraints) : HasGroups none names cs :=
  fun _ present => nomatch present

/-- A predicate on a level keeps a text: what the expression captures there is as required, and a
closed predicate that constrains a name finds the expression. -/
def Keeps (r : Option PathRegex) (names : List String) (cs : Constraints) (closed : Bool)
    (text : String) : Prop :=
  ∀ p, r = some p → Captures p names cs text ∧
    (p.regex.search text = none → closed = true → ∀ n ∈ names, cs.lookup n = none)

theorem mem_constrained {level : PartitionLevel} {r : PathRegex} {names : List String}
    {cs : Constraints} {c : Column} {v : String} :
    (c, v) ∈ constrained cs (PartitionDefinition.columnsOf level (some r) names) ↔
      ∃ n i, (n, i) ∈ names.zipIdx ∧ cs.lookup n = some v ∧
        c = PartitionDefinition.column level r.regex.source i n := by
  simp only [constrained, PartitionDefinition.columnsOf, List.mem_filterMap, List.mem_map,
    Option.map_eq_some_iff, Prod.mk.injEq]
  constructor
  · rintro ⟨c, ⟨⟨n, i⟩, member, rfl⟩, v, found, rfl, rfl⟩
    exact ⟨n, i, member, found, rfl⟩
  · rintro ⟨n, i, member, found, rfl⟩
    exact ⟨_, ⟨(n, i), member, rfl⟩, v, found, rfl, rfl⟩

theorem isValue_text {group : Option String} {v : String} :
    isValue group (.text v) = true ↔ group = some v := by
  cases group with
  | none => simp [isValue]
  | some s => simp [isValue]

/-- The number of the group in which the value of a column is captured. -/
def groupOf (c : Column) : Int := c.index.getD 0 + 1

theorem holds_cons (path : String) (r : Regex) (m : Regex.Match) (p : Column × Value)
    (rest : List (Column × Value)) :
    holds path r m (p :: rest) =
      if groupOf p.1 < 1 ∨ (r.groupCount : Int) < groupOf p.1 then
        fail (.noSuchGroup (groupOf p.1) r.source path r.groupCount)
      else if isValue (m.group? (groupOf p.1).toNat) p.2 then holds path r m rest
      else .ok false := rfl

/-- Columns have their values in a match if each has a group that the expression has, and its value
in that group. -/
theorem holds_eq_true {path : String} {r : Regex} {m : Regex.Match}
    {pairs : List (Column × Value)} :
    holds path r m pairs = .ok true ↔
      ∀ p ∈ pairs, ¬ (groupOf p.1 < 1 ∨ (r.groupCount : Int) < groupOf p.1) ∧
        isValue (m.group? (groupOf p.1).toNat) p.2 = true := by
  induction pairs with
  | nil => simp [holds]
  | cons p rest ih =>
    rw [List.forall_mem_cons, ← ih, holds_cons]
    by_cases absent : groupOf p.1 < 1 ∨ (r.groupCount : Int) < groupOf p.1
    · rw [if_pos absent]
      exact ⟨fun failed => (nomatch failed), fun there => absurd absent there.1.1⟩
    · rw [if_neg absent]
      by_cases equal : isValue (m.group? (groupOf p.1).toNat) p.2 = true
      · exact (if_pos equal).symm ▸ ⟨fun more => ⟨⟨absent, equal⟩, more⟩, And.right⟩
      · rw [if_neg equal]
        exact ⟨fun refused => (nomatch refused), fun there => absurd there.1.2 equal⟩

/-- The comparison of a match with values fails only for a column whose group is not there. -/
theorem holds_of_groups {path : String} {r : Regex} {m : Regex.Match}
    {pairs : List (Column × Value)}
    (there : ∀ p ∈ pairs, ¬ (groupOf p.1 < 1 ∨ (r.groupCount : Int) < groupOf p.1)) :
    ∃ b, holds path r m pairs = .ok b := by
  induction pairs with
  | nil => exact ⟨true, rfl⟩
  | cons p rest ih =>
    obtain ⟨present, others⟩ := List.forall_mem_cons.mp there
    rw [holds_cons, if_neg present]
    split
    · exact ih others
    · exact ⟨false, rfl⟩

theorem groupOf_column (level : PartitionLevel) (source : String) (i : Nat) (n : String) :
    groupOf (PartitionDefinition.column level source i n) = (i : Int) + 1 := rfl

theorem zip_pairs (pairs : List (Column × String)) :
    (pairs.map (·.1)).zip (pairs.map fun p => Value.text p.2) =
      pairs.map fun p => (p.1, .text p.2) := by
  rw [List.zip_map']

/-- The text in which a predicate looks for its expression. -/
def searched (path : String) (isDirectory : Bool) : String :=
  if isDirectory then path ++ "/" else path

theorem test_ofPairs {r : PathRegex} {pairs : List (Column × String)} {closed : Bool}
    {path : String} {isDirectory : Bool} :
    (ofPairs r pairs closed).test path isDirectory =
      if pairs.isEmpty then .ok true
      else match r.regex.search (searched path isDirectory) with
        | none => .ok !closed
        | some m => holds (searched path isDirectory) r.regex m
          (pairs.map fun p => (p.1, .text p.2)) := by
  rw [ofPairs]
  cases pairs with
  | nil => rfl
  | cons p rest =>
    rw [← zip_pairs]
    rfl

theorem mem_zipIdx_of_mem {names : List String} {n : String} (member : n ∈ names) :
    ∃ i, (n, i) ∈ names.zipIdx := by
  rw [← List.zipIdx_map_fst 0 names] at member
  obtain ⟨p, inside, rfl⟩ := List.mem_map.mp member
  exact ⟨p.2, inside⟩

theorem isEmpty_constrained {level : PartitionLevel} {r : PathRegex} {names : List String}
    {cs : Constraints} :
    (constrained cs (PartitionDefinition.columnsOf level (some r) names)).isEmpty = true ↔
      ∀ n ∈ names, cs.lookup n = none := by
  rw [List.isEmpty_iff, List.eq_nil_iff_forall_not_mem]
  constructor
  · intro empty n member
    obtain ⟨i, inside⟩ := mem_zipIdx_of_mem member
    cases found : cs.lookup n with
    | none => rfl
    | some v => exact absurd (mem_constrained.mpr ⟨n, i, inside, found, rfl⟩) (empty _)
  · rintro free ⟨c, v⟩ member
    obtain ⟨n, i, inside, found, -⟩ := mem_constrained.mp member
    rw [free n (List.fst_mem_of_mem_zipIdx inside)] at found
    cases found

/-- The comparison of the first match in a text tells whether the expression captures there what is
required. -/
theorem holds_constrained {level : PartitionLevel} {r : PathRegex} {names : List String}
    {cs : Constraints} {text : String} {m : Regex.Match} (found : r.regex.search text = some m) :
    holds text r.regex m
        ((constrained cs (PartitionDefinition.columnsOf level (some r) names)).map fun p =>
          (p.1, .text p.2)) = .ok true ↔
      Captures r names cs text := by
  rw [holds_eq_true, List.forall_mem_map]
  constructor
  · intro all other again n i v inside required
    obtain ⟨present, equal⟩ := all _ (mem_constrained.mpr ⟨n, i, inside, required, rfl⟩)
    cases found.symm.trans again
    rw [groupOf_column] at present equal
    exact ⟨by omega, isValue_text.mp equal⟩
  · rintro captures ⟨c, v⟩ member
    obtain ⟨n, i, inside, required, rfl⟩ := mem_constrained.mp member
    obtain ⟨present, equal⟩ := captures m found n i v inside required
    rw [groupOf_column]
    exact ⟨by omega, isValue_text.mpr equal⟩

/-- The predicate of a level keeps a path if what the expression captures there is as required. -/
theorem test_ofLevel {level : PartitionLevel} {r : Option PathRegex} {names : List String}
    {cs : Constraints} {closed : Bool} {path : String} {isDirectory : Bool} :
    (ofLevel level r names cs closed).test path isDirectory = .ok true ↔
      Keeps r names cs closed (searched path isDirectory) := by
  cases r with
  | none => exact ⟨fun _ _ found => (nomatch found), fun _ => rfl⟩
  | some r =>
    have keeps : Keeps (some r) names cs closed (searched path isDirectory) ↔
        Captures r names cs (searched path isDirectory) ∧
          (r.regex.search (searched path isDirectory) = none → closed = true →
            ∀ n ∈ names, cs.lookup n = none) := by
      simp [Keeps]
    rw [keeps, ofLevel, test_ofPairs]
    by_cases free : ∀ n ∈ names, cs.lookup n = none
    · rw [if_pos (isEmpty_constrained.mpr free)]
      refine iff_of_true rfl ⟨fun m _ n i v inside required => ?_, fun _ _ => free⟩
      rw [free n (List.fst_mem_of_mem_zipIdx inside)] at required
      cases required
    · rw [if_neg (mt isEmpty_constrained.mp free)]
      cases found : r.regex.search (searched path isDirectory) with
      | none =>
        have captures : Captures r names cs (searched path isDirectory) :=
          fun m again => nomatch found.symm.trans again
        cases closed with
        | false => exact iff_of_true rfl ⟨captures, fun _ isClosed => nomatch isClosed⟩
        | true =>
          exact iff_of_false (fun kept => nomatch kept) fun kept => free (kept.2 rfl rfl)
      | some m => simpa using holds_constrained found

/-- The predicate of a level fails on no path if the expression has the groups that it needs. -/
theorem test_ofLevel_of_hasGroups {level : PartitionLevel} {r : Option PathRegex}
    {names : List String} {cs : Constraints} (groups : HasGroups r names cs) (closed : Bool)
    (path : String) (isDirectory : Bool) :
    ∃ b, (ofLevel level r names cs closed).test path isDirectory = .ok b := by
  cases r with
  | none => exact ⟨true, rfl⟩
  | some r =>
    rw [ofLevel, test_ofPairs]
    split
    · exact ⟨true, rfl⟩
    · split
      · exact ⟨_, rfl⟩
      · refine holds_of_groups (List.forall_mem_map.mpr ?_)
        rintro ⟨c, v⟩ member
        obtain ⟨n, i, inside, required, rfl⟩ := mem_constrained.mp member
        have present := groups r rfl n i inside (Option.isSome_of_eq_some required)
        rw [groupOf_column]
        omega

end PathPredicate

end SchemaOnRead
