import Mathlib.Data.List.Dedup
import Mathlib.Data.List.DropRight
import SchemaOnRead.Proofs.Columns.Listings

/-!
# The listings that are kept

A bounded list of entries holds the keys that were used last, in the order of their last uses (`Holds`); a use
and an insertion keep it so. From this it follows for every run of calls which listings of columns are kept,
and that a listing that is kept is the one that was made when its key came in (`recent_listings`).
-/

namespace SchemaOnRead

/-! ## The last uses of keys -/

/-- The last items of a list that ends with no more than these. -/
theorem rtake_append {α : Type} {l l' : List α} {n : Nat} (short : l'.length ≤ n) (full : l ≠ [] → l'.length = n) :
    (l ++ l').rtake n = l' := by
  by_cases none : l = []
  · subst none
    rw [List.nil_append, List.rtake, Nat.sub_eq_zero_of_le short, List.drop_zero]
  · rw [List.rtake, List.length_append, full none, Nat.add_sub_cancel, List.drop_left]

section

variable {κ : Type} [DecidableEq κ]

/-- A further use puts a key at the end. -/
theorem dedup_concat (used : List κ) (k : κ) :
    (used ++ [k]).dedup = used.dedup.filter (· ≠ k) ++ [k] := by
  induction used with
  | nil => simp
  | cons j used ih =>
    rw [List.cons_append, List.dedup_cons, List.dedup_cons, ih]
    by_cases same : j = k
    · subst same
      by_cases again : j ∈ used
      · simp [again]
      · simp [again]
    · by_cases again : j ∈ used
      · simp [again]
      · simp [again, same]

/-- The `n` keys whose last uses are the most recent, in the order of their last uses; all keys if there are
fewer. -/
def recentKeys (n : Nat) (used : List κ) : List κ := used.dedup.rtake n

theorem recentKeys_nil (n : Nat) : recentKeys n ([] : List κ) = [] := by
  rw [recentKeys, List.dedup_nil, List.rtake_nil]

theorem length_recentKeys_le (n : Nat) (used : List κ) : (recentKeys n used).length ≤ n := by
  rw [recentKeys, List.rtake, List.length_drop]
  omega

/-- The keys that are used are those that are not recent, and then the recent ones. If there are keys that are
not recent, the recent ones are as many as there can be. -/
theorem exists_older (n : Nat) (used : List κ) :
    ∃ older, used.dedup = older ++ recentKeys n used ∧ (older ≠ [] → (recentKeys n used).length = n) := by
  refine ⟨used.dedup.take (used.dedup.length - n), (List.take_append_drop _ _).symm, fun some => ?_⟩
  have many : used.dedup.length - n ≠ 0 := by
    intro none
    rw [none, List.take_zero] at some
    exact some rfl
  rw [recentKeys, List.rtake, List.length_drop]
  omega

theorem length_filter_ne {l : List κ} (distinct : l.Nodup) {k : κ} (member : k ∈ l) :
    (l.filter (· ≠ k)).length + 1 = l.length := by
  have erased : l.erase k = l.filter (· ≠ k) := by
    rw [distinct.erase_eq_filter k]
    apply List.filter_congr
    intro j _
    by_cases same : j = k
    · simp [same]
    · simp [same]
  have length := List.length_erase_of_mem member
  have some := List.length_pos_of_mem member
  rw [← erased]
  omega

/-- Using a recent key moves it to the end. -/
theorem recentKeys_use {n : Nat} {used : List κ} {k : κ} (recent : k ∈ recentKeys n used) :
    recentKeys n (used ++ [k]) = (recentKeys n used).filter (· ≠ k) ++ [k] := by
  obtain ⟨older, parted, full⟩ := exists_older n used
  have short := length_recentKeys_le n used
  have distinct := List.nodup_dedup used
  rw [parted, List.nodup_append] at distinct
  have others : older.filter (· ≠ k) = older := by
    apply List.filter_eq_self.mpr
    intro j member
    simpa using distinct.2.2 j member k recent
  have one := length_filter_ne distinct.2.1 recent
  rw [recentKeys, dedup_concat, parted, List.filter_append, others, List.append_assoc]
  apply rtake_append
  · rw [List.length_append, List.length_singleton]
    omega
  · intro some
    rw [List.length_append, List.length_singleton, one, full some]

/-- A key that is not recent comes to the end, and if there are then too many, the first one goes. -/
theorem recentKeys_insert {n : Nat} (positive : 0 < n) {used : List κ} {k : κ}
    (new : k ∉ recentKeys n used) :
    recentKeys n (used ++ [k]) =
      if n < (recentKeys n used ++ [k]).length then (recentKeys n used ++ [k]).drop 1
      else recentKeys n used ++ [k] := by
  obtain ⟨older, parted, full⟩ := exists_older n used
  have others : (recentKeys n used).filter (· ≠ k) = recentKeys n used := by
    apply List.filter_eq_self.mpr
    intro j member
    simp only [ne_eq, decide_not, Bool.not_eq_eq_eq_not, Bool.not_true, decide_eq_false_iff_not]
    rintro rfl
    exact new member
  have short := length_recentKeys_le n used
  rw [recentKeys, dedup_concat, parted, List.filter_append, others, List.append_assoc]
  split
  · rename_i many
    rw [List.length_append, List.length_singleton] at many
    obtain ⟨first, rest, parts⟩ : ∃ first rest, recentKeys n used = first :: rest := by
      apply List.exists_cons_of_ne_nil
      intro none
      rw [none, List.length_nil] at many
      omega
    rw [parts] at many short ⊢
    have apart : older.filter (· ≠ k) ++ (first :: rest ++ [k]) =
        (older.filter (· ≠ k) ++ [first]) ++ (rest ++ [k]) := by simp
    rw [apart]
    simp only [List.length_cons] at many short
    apply rtake_append
    · simp
      omega
    · intro _
      simp
      omega
  · rename_i room
    apply rtake_append
    · omega
    · intro some
      have none : older ≠ [] := by
        rintro rfl
        exact some rfl
      have filled := full none
      rw [List.length_append, List.length_singleton] at room
      omega

end

/-! ## Entries that are kept -/

namespace Recent

variable {κ α : Type} {r after : Recent κ α} {used : List κ} {n : Nat} {k : κ} {a : α}

/-- The keys of the entries, in order. -/
def keys (r : Recent κ α) : List κ := r.entries.map Prod.fst

/-- The entries have the recent ones of the keys that were used. -/
structure Holds [DecidableEq κ] (r : Recent κ α) (n : Nat) (used : List κ) : Prop where
  capacity : r.capacity = n
  keys : r.keys = recentKeys n used

/-- An insertion of a new key keeps the recent keys. -/
theorem Holds.insert [DecidableEq κ] (holds : r.Holds n used) (positive : 0 < n) (new : k ∉ r.keys)
    (a : α) : (r.insert k a).Holds n (used ++ [k]) := by
  have keys : (r.entries ++ [(k, a)]).map Prod.fst = recentKeys n used ++ [k] := by
    rw [List.map_append, ← holds.keys]
    rfl
  have length : (r.entries ++ [(k, a)]).length = (recentKeys n used ++ [k]).length := by
    rw [← keys, List.length_map]
  have kept := recentKeys_insert positive (holds.keys ▸ new)
  rw [Recent.insert]
  by_cases many : n < (recentKeys n used ++ [k]).length
  · rw [if_pos many] at kept
    rw [if_pos (by rw [holds.capacity, length]; exact_mod_cast many)]
    constructor
    · exact holds.capacity
    · rw [Recent.keys, List.map_drop, keys, kept]
  · rw [if_neg many] at kept
    rw [if_neg (by rw [holds.capacity, length]; exact_mod_cast many)]
    constructor
    · exact holds.capacity
    · rw [Recent.keys, keys, kept]

variable [BEq κ] [LawfulBEq κ]

theorem use?_eq_none_iff : r.use? k = none ↔ k ∉ r.keys := by
  have absent : r.entries.lookup k = none ↔ k ∉ r.keys := by
    rw [List.lookup_eq_none_iff, keys]
    simp only [List.mem_map, not_exists, not_and]
    constructor
    · intro others e member same
      have other := others e member
      simp [same] at other
    · intro others e member
      have other := others e member
      simpa using Ne.symm other
  rw [← absent, use?]
  cases r.entries.lookup k with
  | none => simp
  | some b => simp

/-- A key that is used has an entry. -/
theorem mem_keys_of_use? (found : r.use? k = some (a, after)) : k ∈ r.keys := by
  by_contra absent
  rw [use?_eq_none_iff.mpr absent] at found
  cases found

variable [DecidableEq κ]

theorem keys_filter (r : Recent κ α) (k : κ) :
    (r.entries.filter (!k == ·.1)).map Prod.fst = r.keys.filter (· ≠ k) := by
  rw [keys, List.filter_map]
  congr 1
  apply List.filter_congr
  intro e _
  by_cases same : k = e.1
  · simp [same]
  · simp [same, Ne.symm same]

/-- A use of a key keeps the recent keys. -/
theorem Holds.use (holds : r.Holds n used) (found : r.use? k = some (a, after)) :
    after.Holds n (used ++ [k]) := by
  have recent := mem_keys_of_use? found
  obtain ⟨-, rfl⟩ := use?_eq_some.mp found
  constructor
  · exact holds.capacity
  · rw [Recent.keys, List.map_append, keys_filter, holds.keys, recentKeys_use (holds.keys ▸ recent)]
    rfl

end Recent

/-! ## Calls for columns -/

instance : DecidableEq LogicalTable := instDecidableEqOfLawfulBEq

/-- A call for the columns of a table, with the store as the call finds it. -/
structure ColumnCall where
  store : Store
  settings : Settings
  schema : String
  table : LogicalTable

namespace ColumnCall

/-- What the columns of the table are kept by. -/
def key (call : ColumnCall) : String × LogicalTable := (call.schema, call.table)

/-- The listing of the table, made anew. -/
def listing (call : ColumnCall) : Logged (List Column) :=
  call.table.allColumns call.store call.settings call.schema

end ColumnCall

namespace ColumnListings

variable {kept : ColumnListings} {calls : List ColumnCall} {call : ColumnCall}
  {key : String × LogicalTable} {cs : List Column} {c : Nat}

/-- The answer to a call, and what is kept afterwards. -/
def answer (kept : ColumnListings) (call : ColumnCall) : Logged (List Column) × ColumnListings :=
  kept.columns call.store call.settings call.schema call.table

/-- What is kept after calls. -/
def afterAll (kept : ColumnListings) (calls : List ColumnCall) : ColumnListings :=
  calls.foldl (fun kept call => (kept.answer call).2) kept

/-- The keys of those calls that are answered with columns, in order. -/
def succeeded (kept : ColumnListings) : List ColumnCall → List (String × LogicalTable)
  | [] => []
  | call :: later =>
    match (kept.answer call).1.result with
    | .ok _ => call.key :: succeeded (kept.answer call).2 later
    | .error _ => succeeded (kept.answer call).2 later

theorem afterAll_concat (kept : ColumnListings) (calls : List ColumnCall) (call : ColumnCall) :
    kept.afterAll (calls ++ [call]) = ((kept.afterAll calls).answer call).2 := by
  rw [afterAll, List.foldl_append]
  rfl

theorem succeeded_concat (kept : ColumnListings) (calls : List ColumnCall) (call : ColumnCall) :
    kept.succeeded (calls ++ [call]) = kept.succeeded calls ++
      match ((kept.afterAll calls).answer call).1.result with
      | .ok _ => [call.key]
      | .error _ => [] := by
  induction calls generalizing kept with
  | nil =>
    rw [List.nil_append, succeeded]
    rfl
  | cons first later ih =>
    rw [List.cons_append, succeeded, succeeded, ih]
    cases (kept.answer first).1.result with
    | ok _ => rfl
    | error _ => rfl

/-- A call finds its key, or it lists the columns anew; it keeps them if that succeeds. -/
theorem answer_cases (kept : ColumnListings) (call : ColumnCall) :
    (∃ cs after, kept.use? call.key = some (cs, after) ∧
      kept.answer call = (.of (.ok cs), after)) ∨
    (∃ cs, call.key ∉ kept.keys ∧ call.listing.result = .ok cs ∧
      kept.answer call = (call.listing, kept.insert call.key cs)) ∨
    (∃ e, call.key ∉ kept.keys ∧ call.listing.result = .error e ∧
      kept.answer call = (call.listing, kept)) := by
  rw [answer, columns]
  change (∃ cs after, kept.use? (call.schema, call.table) = _ ∧ _) ∨ _
  cases found : kept.use? (call.schema, call.table) with
  | some p => exact .inl ⟨p.1, p.2, rfl, rfl⟩
  | none =>
    have absent : call.key ∉ kept.keys := Recent.use?_eq_none_iff.mp found
    cases listed : call.listing.result with
    | ok cs =>
      have made : (call.table.allColumns call.store call.settings call.schema).result = .ok cs := listed
      refine .inr (.inl ⟨cs, absent, rfl, ?_⟩)
      simp only [made]
      rfl
    | error e =>
      have failed : (call.table.allColumns call.store call.settings call.schema).result = .error e :=
        listed
      refine .inr (.inr ⟨e, absent, rfl, ?_⟩)
      simp only [failed]
      rfl

/-- The columns came in for the key with one of the calls, which listed them, and since then the key has
always been there. -/
def CameIn (capacity : Int) (calls : List ColumnCall) (key : String × LogicalTable) (cs : List Column) :
    Prop :=
  ∃ before call later, calls = before ++ call :: later ∧ call.key = key ∧
    key ∉ (afterAll { capacity } before).keys ∧ call.listing.result = .ok cs ∧
    ∀ more, more <+: later → key ∈ (afterAll { capacity } (before ++ call :: more)).keys

/-- Columns that came in and are still there after one more call. -/
theorem CameIn.concat {capacity : Int} (came : CameIn capacity calls key cs)
    (still : key ∈ (afterAll { capacity } (calls ++ [call])).keys) :
    CameIn capacity (calls ++ [call]) key cs := by
  obtain ⟨before, first, later, rfl, rfl, new, listed, always⟩ := came
  refine ⟨before, first, later ++ [call], by simp, rfl, new, listed, fun more start => ?_⟩
  rcases List.prefix_concat_iff.mp start with whole | earlier
  · rw [whole]
    simpa using still
  · exact always more earlier

/-- What is kept after calls, made known by its entries: their keys, and where their columns come from. -/
structure Kept (c : Nat) (calls : List ColumnCall) (kept : ColumnListings) : Prop where
  recent : kept.Holds c (succeeded { capacity := c } calls)
  came : ∀ e ∈ kept.entries, CameIn c calls e.1 e.2

/-- One more call leaves the keys recent and the columns such as came in. -/
theorem Kept.answer (positive : 0 < c) (state : Kept c calls (afterAll { capacity := c } calls))
    (call : ColumnCall) :
    Kept c (calls ++ [call]) (afterAll { capacity := c } (calls ++ [call])) := by
  have next := afterAll_concat { capacity := c } calls call
  have keys := succeeded_concat { capacity := c } calls call
  have inside : ∀ e ∈ (afterAll { capacity := c } (calls ++ [call])).entries,
      e ∈ (afterAll { capacity := c } calls).entries → CameIn c (calls ++ [call]) e.1 e.2 := by
    intro e there before
    apply (state.came e before).concat
    exact List.mem_map_of_mem there
  rcases answer_cases (afterAll { capacity := c } calls) call with
    ⟨cs, after, found, answered⟩ | ⟨cs, absent, listed, answered⟩ | ⟨e, absent, failed, answered⟩
  · rw [answered] at next keys
    constructor
    · rw [next, keys]
      exact state.recent.use found
    · intro e member
      apply inside e member
      rw [next] at member
      exact (Recent.mem_of_use? found).2 e member
  · rw [answered] at next keys
    rw [listed] at keys
    constructor
    · rw [next, keys]
      exact state.recent.insert positive absent cs
    · intro e member
      have origin := member
      rw [next] at origin
      rcases Recent.mem_of_mem_insert origin with before | new
      · exact inside e member before
      · subst new
        refine ⟨calls, call, [], rfl, rfl, absent, listed, fun more start => ?_⟩
        rw [List.prefix_nil.mp start]
        exact List.mem_map_of_mem member
  · rw [answered] at next keys
    rw [failed, List.append_nil] at keys
    constructor
    · rw [next, keys]
      exact state.recent
    · intro e member
      apply inside e member
      rw [next] at member
      exact member

theorem kept_afterAll (positive : 0 < c) (calls : List ColumnCall) :
    Kept c calls (afterAll { capacity := c } calls) := by
  induction calls using List.reverseRecOn with
  | nil =>
    constructor
    · exact ⟨rfl, (recentKeys_nil c).symm⟩
    · intro e member
      cases member
  | append_singleton calls call ih => exact ih.answer positive call

/-- After any calls, the listings that are kept are those of the keys whose last calls with columns are the
most recent, in the order of these calls. A call whose key is kept gets the columns that came in for it, and
nothing is asked of the store. Any other call lists the columns anew, and if that fails, what is kept stays
as it is. -/
theorem recent_listings (positive : 0 < c) (calls : List ColumnCall) :
    (afterAll { capacity := c } calls).keys = recentKeys c (succeeded { capacity := c } calls) ∧
      ∀ call,
        (call.key ∈ (afterAll { capacity := c } calls).keys →
          ∃ cs, CameIn c calls call.key cs ∧
            ((afterAll { capacity := c } calls).answer call).1 = .of (.ok cs)) ∧
        (call.key ∉ (afterAll { capacity := c } calls).keys →
          ((afterAll { capacity := c } calls).answer call).1 = call.listing) ∧
        ∀ e, ((afterAll { capacity := c } calls).answer call).1.result = .error e →
          ((afterAll { capacity := c } calls).answer call).2 = afterAll { capacity := c } calls := by
  have state := kept_afterAll positive calls
  refine ⟨state.recent.keys, fun call => ?_⟩
  rcases answer_cases (afterAll { capacity := c } calls) call with
    ⟨cs, after, found, answered⟩ | ⟨cs, absent, listed, answered⟩ | ⟨e, absent, failed, answered⟩
  · rw [answered]
    refine ⟨fun _ => ⟨cs, ?_, rfl⟩, fun absent => ?_, fun e failed => ?_⟩
    · exact state.came (call.key, cs) (Recent.mem_of_use? found).1
    · exact absurd (Recent.mem_keys_of_use? found) absent
    · cases failed
  · rw [answered]
    refine ⟨fun there => absurd there absent, fun _ => rfl, fun e failed => ?_⟩
    rw [listed] at failed
    cases failed
  · rw [answered]
    exact ⟨fun there => absurd there absent, fun _ => rfl, fun _ _ => rfl⟩

/-- A call for a table that declares its columns. -/
def declaredCall (name : String) (type : FileType) (columns : Option (List Column)) : ColumnCall where
  store := { tree := .directory [], proper := by decide }
  settings := {}
  schema := "logs"
  table := { name := name, rootPath := "/logs", fileType := type, columns := columns }

/-- One of two tables is called for again, another table cannot be read, and then there is one too many. -/
def mixedCalls : List ColumnCall :=
  [declaredCall "a" .ndjson (some []), declaredCall "b" .ndjson (some [{ name := "id", type := .integer }]),
    declaredCall "a" .ndjson (some []), declaredCall "x" .csv none, declaredCall "c" .telegraf none]

/-- The table that was called for again is still held and answers with its columns; the other one made
room, and the one that could not be read took none. -/
theorem recent_listings_mixed :
    0 < 2 ∧ (afterAll { capacity := 2 } mixedCalls).keys.map (·.2.name) = ["a", "c"] ∧
      ∃ cs, CameIn 2 mixedCalls (declaredCall "a" .ndjson (some [])).key cs ∧
        ((afterAll { capacity := 2 } mixedCalls).answer (declaredCall "a" .ndjson (some []))).1 =
          .of (.ok cs) := by
  refine ⟨by decide, by decide +kernel, ?_⟩
  exact ((recent_listings (by decide) mixedCalls).2 (declaredCall "a" .ndjson (some []))).1
    (by decide +kernel)

end ColumnListings

end SchemaOnRead
