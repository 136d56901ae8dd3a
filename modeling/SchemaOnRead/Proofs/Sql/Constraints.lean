import SchemaOnRead.Sql.Constraints
import SchemaOnRead.Sql.Evaluation

/-!
# Constraints and the conditions they come from

A constraint that is found in a condition holds on every row on which the condition is true, whatever
its other terms say, and a column stays unconstrained only if no term that has to hold equates it with
a text (`ofCondition_implied_and_complete`). What a condition comes to is said without evaluating it
(`Facts.truth`), since some of its terms may have no value here; where evaluation answers, it agrees
(`Facts.truth_of_truthOn`).
-/

namespace SchemaOnRead.Sql

namespace Expr

/-! ## Terms that have to hold -/

/-- Whether a term has to hold for a condition to hold: it is reached through `AND` and
parentheses. -/
inductive Conjunct (t : Expr) : Expr → Prop where
  | self : Conjunct t t
  | left {a b : Expr} : Conjunct t a → Conjunct t (.and a b)
  | right {a b : Expr} : Conjunct t b → Conjunct t (.and a b)
  | paren {e : Expr} : Conjunct t e → Conjunct t (.paren e)

/-- Whether a term equates a column with a text. -/
inductive Equates (outer : List String) (name s : String) : Expr → Prop where
  | columnText : Equates outer name s (.compare .equal (.column outer name) (.text s))
  | textColumn : Equates outer name s (.compare .equal (.text s) (.column outer name))
  | member : Equates outer name s (.member (.column outer name) [.text s])

/-- Whether a column is one of the table itself: it has no qualifier, or an allowed one. Without a list
of qualifiers all are. -/
def isOwn (allowed : Option (List String)) (outer : List String) : Bool :=
  match allowed, outer.getLast? with
  | some names, some qualifier => qualifier.isEmpty || names.contains qualifier
  | _, _ => true

theorem equality?_eq_some_iff {t : Expr} {q : Equality} :
    t.equality? = some q ↔ Equates q.outer q.column q.text t := by
  constructor
  · intro found
    rw [equality?.eq_def] at found
    split at found
    · cases found
      exact .columnText
    · cases found
      exact .textColumn
    · cases found
      exact .member
    · cases found
  · intro equates
    cases equates <;> rfl

theorem conjunct_of_mem {t e : Expr} (member : t ∈ e.conjuncts) : Conjunct t e := by
  fun_induction conjuncts e with
  | case1 a b left right =>
    rcases List.mem_append.mp member with first | second
    · exact .left (left first)
    · exact .right (right second)
  | case2 e inner => exact .paren (inner member)
  | case3 e =>
    cases List.mem_singleton.mp member
    exact .self

theorem Equates.mem_conjuncts {outer : List String} {name s : String} {t e : Expr}
    (equates : Equates outer name s t) (conjunct : Conjunct t e) : t ∈ e.conjuncts := by
  induction conjunct with
  | self => cases equates <;> exact List.mem_singleton.mpr rfl
  | left _ ih => exact List.mem_append_left _ ih
  | right _ ih => exact List.mem_append_right _ ih
  | paren _ ih => exact ih

theorem isAllowed_eq (allowed : Option (List String)) (q : Equality) :
    q.isAllowed allowed = isOwn allowed q.outer := by
  obtain ⟨outer, column, text⟩ := q
  simp only [Equality.isAllowed, Equality.qualifier?, isOwn]
  cases outer.getLast? with
  | none => cases allowed <;> rfl
  | some n => cases allowed <;> by_cases empty : n.isEmpty = true <;> simp [empty]

end Expr

open Sql.Expr

namespace Constraints

/-! ## Constraints of a condition -/

variable {names : List String} {allowed : Option (List String)} {e : Expr}

/-- What a term adds is what it requires of a column that is asked for. -/
theorem mem_add {found : Constraints} {c : String × String}
    (member : c ∈ add names allowed found e) : c ∈ found ∨
      c.1 ∈ names ∧ ∃ outer, isOwn allowed outer = true ∧ Equates outer c.1 c.2 e := by
  rw [add] at member
  cases required : e.equality? with
  | none =>
    rw [required] at member
    exact .inl member
  | some q =>
    rw [required] at member
    simp only at member
    split at member
    · rename_i added
      rcases List.mem_append.mp member with before | last
      · exact .inl before
      · rw [Bool.and_eq_true, Bool.and_eq_true, isAllowed_eq] at added
        cases List.mem_singleton.mp last
        exact .inr ⟨List.contains_iff_mem.mp added.1.2, q.outer, added.1.1,
          equality?_eq_some_iff.mp required⟩
    · exact .inl member

/-- A constraint of a condition is on a column that is asked for, and a term that has to hold equates
the column with its text. -/
theorem mem_ofCondition {c : String × String} (member : c ∈ ofCondition names allowed e) :
    c.1 ∈ names ∧ ∃ t outer, Conjunct t e ∧ isOwn allowed outer = true ∧
      Equates outer c.1 c.2 t := by
  -- by induction on the terms, whatever has been found in those before them
  have from' : ∀ (es : List Expr) (found : Constraints), c ∈ es.foldl (add names allowed) found →
      c ∈ found ∨ c.1 ∈ names ∧ ∃ t ∈ es, ∃ outer, isOwn allowed outer = true ∧
        Equates outer c.1 c.2 t := by
    intro es
    induction es with
    | nil => exact fun found member => .inl member
    | cons e rest ih =>
      intro found member
      rcases ih _ member with before | ⟨named, t, inside, required⟩
      · rcases mem_add before with before | ⟨named, required⟩
        · exact .inl before
        · exact .inr ⟨named, e, .head rest, required⟩
      · exact .inr ⟨named, t, .tail e inside, required⟩
  rcases from' _ _ member with none | ⟨named, t, inside, outer, own, equates⟩
  · cases none
  · exact ⟨named, t, outer, conjunct_of_mem inside, own, equates⟩

/-- The text that a term requires of a column. -/
def required? (names : List String) (allowed : Option (List String)) (n : String) (e : Expr) :
    Option String :=
  match e.equality? with
  | some q =>
    if q.isAllowed allowed && names.contains q.column && q.column == n then some q.text else none
  | none => none

theorem lookup_add (found : Constraints) (n : String) :
    (add names allowed found e).lookup n = (found.lookup n).or (required? names allowed n e) := by
  rw [add, required?]
  cases e.equality? with
  | none => simp
  | some q =>
    simp only
    generalize (q.isAllowed allowed && names.contains q.column) = asked
    cases asked with
    | false => simp
    | true =>
      by_cases same : q.column = n
      · subst same
        cases there : found.lookup q.column with
        | none => simp [there, List.lookup_append]
        | some s => simp [there]
      · have other : (n == q.column) = false := by simpa using fun h => same h.symm
        by_cases free : (found.lookup q.column).isNone = true
        · simp [free, same, List.lookup_append, List.lookup_cons, other]
        · simp [free, same]

/-- The text that a condition requires of a column is that of the first term which requires one. -/
theorem lookup_ofCondition (n : String) :
    (ofCondition names allowed e).lookup n = e.conjuncts.findSome? (required? names allowed n) := by
  have from' : ∀ (es : List Expr) (found : Constraints),
      (es.foldl (add names allowed) found).lookup n =
        (found.lookup n).or (es.findSome? (required? names allowed n)) := by
    intro es
    induction es with
    | nil => simp
    | cons e rest ih =>
      intro found
      -- what was found first is kept, so the fold looks for the first term that requires a text
      rw [List.foldl_cons, ih, lookup_add, Option.or_assoc, List.findSome?_cons]
      cases required? names allowed n e <;> rfl
  rw [ofCondition, from']
  rfl

theorem required?_eq_none_iff {n : String} (named : n ∈ names) :
    required? names allowed n e = none ↔
      ∀ outer s, Equates outer n s e → isOwn allowed outer = false := by
  constructor
  · intro nothing outer s equates
    have found : e.equality? = some ⟨outer, n, s⟩ := equality?_eq_some_iff.mpr equates
    simpa [required?, found, isAllowed_eq, named] using nothing
  · intro none
    rw [required?]
    cases found : e.equality? with
    | none => rfl
    | some q =>
      have equates := equality?_eq_some_iff.mp found
      by_cases same : q.column = n
      · subst same
        simp [isAllowed_eq, none q.outer q.text equates]
      · simp [same]

/-- A column that is asked for stays unconstrained exactly if no term that has to hold equates it, as
a column of the table, with a text. -/
theorem lookup_ofCondition_eq_none_iff {n : String} (named : n ∈ names) :
    (ofCondition names allowed e).lookup n = none ↔ ∀ t outer s, Conjunct t e →
      Equates outer n s t → isOwn allowed outer = false := by
  rw [lookup_ofCondition, List.findSome?_eq_none_iff]
  constructor
  · intro nothing t outer s conjunct equates
    exact (required?_eq_none_iff named).mp (nothing t (equates.mem_conjuncts conjunct)) outer s equates
  · intro none t member
    exact (required?_eq_none_iff named).mpr fun outer s => none t outer s (conjunct_of_mem member)

end Constraints

/-! ## Conditions in three-valued logic -/

/-- What a condition is evaluated on: the texts of a row by the names of their columns, none for a
missing one, and what comparisons of anything else and terms of other forms come to. -/
structure Facts where
  row : String → Option String
  compared : Comparison → Expr → Expr → Truth
  stated : Expr → Truth

namespace Facts

/-- What a comparison comes to. That a column of the row equals a text is equality of texts, and
unknown if the column is missing. -/
def comparison (facts : Facts) (inRow : List String → String → Bool) :
    Comparison → Expr → Expr → Truth
  | .equal, .column outer n, .text s =>
    if inRow outer n then (facts.row n).map (· == s)
    else facts.compared .equal (.column outer n) (.text s)
  | .equal, .text s, .column outer n =>
    if inRow outer n then (facts.row n).map (· == s)
    else facts.compared .equal (.text s) (.column outer n)
  | c, a, b => facts.compared c a b

/-- What a condition comes to. -/
def truth (facts : Facts) (inRow : List String → String → Bool) : Expr → Truth
  | .paren e => truth facts inRow e
  | .not e => (truth facts inRow e).not
  | .and a b => (truth facts inRow a).and (truth facts inRow b)
  | .or a b => (truth facts inRow a).or (truth facts inRow b)
  | .compare c a b => facts.comparison inRow c a b
  | .member e items => Truth.any (items.map (facts.comparison inRow .equal e))
  | e => facts.stated e

variable {facts : Facts} {inRow : List String → String → Bool} {t e : Expr}

theorem and_eq_true {a b : Truth} (holds : a.and b = some true) :
    a = some true ∧ b = some true := by
  rcases a with _ | _ | _ <;> rcases b with _ | _ | _ <;> simp_all [Truth.and]

/-- The terms that have to hold are true where a condition is. -/
theorem truth_of_conjunct (conjunct : Conjunct t e) (holds : facts.truth inRow e = some true) :
    facts.truth inRow t = some true := by
  induction conjunct with
  | self => exact holds
  | left _ ih => exact ih (and_eq_true holds).1
  | right _ ih => exact ih (and_eq_true holds).2
  | paren _ ih => exact ih holds

theorem any_singleton (a : Truth) : Truth.any [a] = a := by
  rcases a with _ | _ | _ <;> rfl

/-- A term that equates a column of the row with a text compares the two. -/
theorem truth_of_equates {outer : List String} {n s : String} (there : inRow outer n = true)
    (equates : Equates outer n s t) : facts.truth inRow t = (facts.row n).map (· == s) := by
  cases equates with
  | columnText => rw [truth, comparison, if_pos there]
  | textColumn => rw [truth, comparison, if_pos there]
  | member => rw [truth, List.map_singleton, any_singleton, comparison, if_pos there]

/-- Every constraint of a condition holds on each row on which the condition is true. -/
theorem row_of_truth {names : List String} {allowed : Option (List String)}
    (own : ∀ outer n, n ∈ names → isOwn allowed outer = true → inRow outer n = true)
    (holds : facts.truth inRow e = some true) {c : String × String}
    (member : c ∈ Constraints.ofCondition names allowed e) : facts.row c.1 = some c.2 := by
  obtain ⟨named, t, outer, conjunct, isOwn, equates⟩ := Constraints.mem_ofCondition member
  have compared := truth_of_conjunct conjunct holds
  rw [truth_of_equates (own outer c.1 named isOwn) equates] at compared
  obtain ⟨s, there, same⟩ := Option.map_eq_some_iff.mp compared
  rw [there, beq_iff_eq.mp same]

end Facts

/-! ## Conditions that are evaluated -/

namespace Expr

variable {look : Lookup} {e : Expr}

/-- The truth value of a condition on a row. -/
def truthOn (look : Lookup) (e : Expr) : Result Truth := do truth (← value look e)

theorem isTrue_iff : isTrue look e = .ok true ↔ truthOn look e = .ok (some true) := by
  rw [isTrue, truthOn]
  cases value look e with
  | error f => simp [bind, Except.bind]
  | ok v => cases found : truth v <;> simp [found, bind, Except.bind, pure, Except.pure]

theorem truth_ofTruth (t : Truth) : truth (ofTruth t) = pure t := by
  cases t <;> rfl

/-- The truth value of a condition by those of the conditions that it is made of. -/
theorem truthOn_eq (look : Lookup) (e : Expr) : truthOn look e =
    match e with
    | .paren e => truthOn look e
    | .not e => do return (← truthOn look e).not
    | .and a b => do return (← truthOn look a).and (← truthOn look b)
    | .or a b => do return (← truthOn look a).or (← truthOn look b)
    | .compare c a b => do compareValues c (← value look a) (← value look b)
    | e => truthOn look e := by
  cases e <;>
    simp only [truthOn, value, bind_assoc, pure_bind, truth_ofTruth, bind_pure]

theorem bind_eq_ok {α β : Type} {x : Result α} {f : α → Result β} {b : β} :
    (x >>= f) = .ok b ↔ ∃ a, x = .ok a ∧ f a = .ok b := by
  cases x <;> simp [bind, Except.bind]

theorem of_both {connective : Truth → Truth → Truth} {x y : Result Truth} {t : Truth}
    (answered : (do return connective (← x) (← y)) = .ok t) :
    ∃ s s', x = .ok s ∧ y = .ok s' ∧ connective s s' = t := by
  obtain ⟨s, first, more⟩ := bind_eq_ok.mp answered
  obtain ⟨s', second, same⟩ := bind_eq_ok.mp more
  exact ⟨s, s', first, second, Except.ok.inj same⟩

theorem of_truthOn_member {items : List Expr} {t : Truth}
    (answered : truthOn look (.member e items) = .ok t) : ∃ x ys ts, value look e = .ok x ∧
      values look items = .ok ys ∧ ys.mapM (compareValues .equal x) = .ok ts ∧ Truth.any ts = t := by
  cases items with
  | nil =>
    rw [truthOn, value] at answered
    cases answered
  | cons item rest =>
    rw [truthOn, value, List.isEmpty_cons, if_neg Bool.false_ne_true] at answered
    simp only [bind_assoc, pure_bind, truth_ofTruth] at answered
    obtain ⟨x, left, more⟩ := bind_eq_ok.mp answered
    obtain ⟨ys, right, more⟩ := bind_eq_ok.mp more
    obtain ⟨ts, compared, same⟩ := bind_eq_ok.mp more
    exact ⟨x, ys, ts, left, right, compared, Except.ok.inj same⟩

theorem equal_holds_iff {a b : String} :
    Comparison.equal.holds (compareOfLessAndEq a b) = true ↔ a = b := by
  rw [Comparison.holds, beq_iff_eq, compareOfLessAndEq_eq_eq String.le_refl String.not_le]

theorem compareValues_text (text? : Option String) (s : String) :
    compareValues .equal (text?.map .text) (some (.text s)) = .ok (text?.map (· == s)) := by
  cases text? with
  | none => rfl
  | some s' =>
    have same : Comparison.equal.holds (compareOfLessAndEq s' s) = (s' == s) :=
      Bool.eq_iff_iff.mpr (equal_holds_iff.trans beq_iff_eq.symm)
    exact congrArg (Except.ok <| some ·) same

theorem compareValues_ofText (text? : Option String) (s : String) :
    compareValues .equal (some (.text s)) (text?.map .text) = .ok (text?.map (· == s)) := by
  cases text? with
  | none => rfl
  | some s' =>
    have same : Comparison.equal.holds (compareOfLessAndEq s s') = (s' == s) :=
      Bool.eq_iff_iff.mpr (equal_holds_iff.trans (eq_comm.trans beq_iff_eq.symm))
    exact congrArg (Except.ok <| some ·) same

end Expr

namespace Facts

/-- What evaluation finds on a row, unknown where it has no answer. -/
def ofLookup (look : Lookup) (row : String → Option String) : Facts where
  row := row
  compared c a b := (do compareValues c (← value look a) (← value look b)).toOption.join
  stated e := (truthOn look e).toOption.join

/-- Whether a look-up finds the texts of a row in its columns. -/
def Finds (inRow : List String → String → Bool) (look : Lookup) (row : String → Option String) :
    Prop :=
  ∀ outer n, inRow outer n = true → look outer n = .ok ((row n).map .text)

variable {inRow : List String → String → Bool} {look : Lookup} {row : String → Option String}
  {e : Expr}

/-- Where evaluation compares two expressions, it finds what the facts say. -/
theorem comparison_of_values (finds : Finds inRow look row) {c : Comparison} {a b : Expr}
    {x y : Option Scalar} {t : Truth} (left : value look a = .ok x) (right : value look b = .ok y)
    (compared : compareValues c x y = .ok t) :
    (ofLookup look row).comparison inRow c a b = t := by
  have otherwise : (ofLookup look row).compared c a b = t := by
    simp [ofLookup, left, right, compared, bind, Except.bind, Except.toOption]
  rw [comparison.eq_def]
  split
  · rename_i outer n s
    split
    · rename_i there
      rw [value, finds outer n there] at left
      rw [value] at right
      cases left
      cases right
      rw [compareValues_text] at compared
      exact Except.ok.inj compared
    · exact otherwise
  · rename_i s outer n
    split
    · rename_i there
      rw [value] at left
      rw [value, finds outer n there] at right
      cases left
      cases right
      rw [compareValues_ofText] at compared
      exact Except.ok.inj compared
    · exact otherwise
  · exact otherwise

theorem comparisons_of_values (finds : Finds inRow look row) {x : Option Scalar}
    (left : value look e = .ok x) {items : List Expr} {ys : List (Option Scalar)} {ts : List Truth}
    (right : values look items = .ok ys) (compared : ys.mapM (compareValues .equal x) = .ok ts) :
    items.map ((ofLookup look row).comparison inRow .equal e) = ts := by
  induction items generalizing ys ts with
  | nil =>
    rw [values] at right
    cases right
    cases compared
    rfl
  | cons item rest ih =>
    rw [values] at right
    obtain ⟨y, first, more⟩ := bind_eq_ok.mp right
    obtain ⟨ys', others, same⟩ := bind_eq_ok.mp more
    cases same
    rw [List.mapM_cons] at compared
    obtain ⟨t, here, more⟩ := bind_eq_ok.mp compared
    obtain ⟨ts', there, same⟩ := bind_eq_ok.mp more
    cases same
    rw [List.map_cons, comparison_of_values finds left first here, ih others there]

/-- Where evaluation gives a condition a truth value, it is the one by the facts that it finds. -/
theorem truth_of_truthOn (finds : Finds inRow look row) {t : Truth}
    (answered : truthOn look e = .ok t) : (ofLookup look row).truth inRow e = t := by
  -- the cases are those of the meaning: all that has none of its own is as it was evaluated
  fun_induction Facts.truth (ofLookup look row) inRow e generalizing t with
  | case1 e ih => exact ih ((truthOn_eq look (.paren e)).symm.trans answered)
  | case2 e ih =>
    rw [truthOn_eq] at answered
    obtain ⟨s, inner, same⟩ := bind_eq_ok.mp answered
    cases same
    rw [ih inner]
  | case3 a b left right =>
    rw [truthOn_eq] at answered
    obtain ⟨s, s', first, second, rfl⟩ := of_both answered
    rw [left first, right second]
  | case4 a b left right =>
    rw [truthOn_eq] at answered
    obtain ⟨s, s', first, second, rfl⟩ := of_both answered
    rw [left first, right second]
  | case5 c a b =>
    rw [truthOn_eq] at answered
    obtain ⟨x, left, more⟩ := bind_eq_ok.mp answered
    obtain ⟨y, right, compared⟩ := bind_eq_ok.mp more
    exact comparison_of_values finds left right compared
  | case6 e items =>
    obtain ⟨x, ys, ts, left, right, compared, same⟩ := of_truthOn_member answered
    rw [comparisons_of_values finds left right compared, same]
  | case7 e =>
    change (truthOn look e).toOption.join = t
    rw [answered]
    rfl

end Facts

/-! ## Rows that a condition leaves -/

namespace Constraints

/-- On each row on which a condition is true, every constraint of the condition holds, whatever the
row's other columns are and whatever terms of other forms come to; so it does on each row on which
evaluation finds the condition true. A column that is asked for is left unconstrained exactly if no
term that has to hold equates it, as a column of the table, with a text. -/
theorem ofCondition_implied_and_complete (names : List String) (allowed : Option (List String))
    (e : Expr) :
    (∀ inRow : List String → String → Bool,
      (∀ outer n, n ∈ names → isOwn allowed outer = true → inRow outer n = true) →
      (∀ facts : Facts, facts.truth inRow e = some true →
        ∀ c ∈ ofCondition names allowed e, facts.row c.1 = some c.2) ∧
      ∀ look row, Facts.Finds inRow look row → isTrue look e = .ok true →
        ∀ c ∈ ofCondition names allowed e, row c.1 = some c.2) ∧
    ∀ n ∈ names, (ofCondition names allowed e).lookup n = none ↔
      ∀ t outer s, Conjunct t e → Equates outer n s t → isOwn allowed outer = false := by
  refine ⟨fun inRow own => ⟨fun facts holds c member => Facts.row_of_truth own holds member,
    fun look row finds found c member => ?_⟩, fun n named => lookup_ofCondition_eq_none_iff named⟩
  have holds := Facts.truth_of_truthOn finds (isTrue_iff.mp found)
  exact Facts.row_of_truth own holds member

/-- The condition `e.server = 'a' AND (NOT m.year = '1999' AND ('04' = month OR id = 3)) AND day IN
('07')`. -/
def joined : Expr :=
  .and (.and (.compare .equal (.column ["e"] "server") (.text "a"))
    (.paren (.and (.not (.compare .equal (.column ["m"] "year") (.text "1999")))
      (.paren (.or (.compare .equal (.text "04") (.column [] "month"))
        (.compare .equal (.column [] "id") (.number "3")))))))
    (.member (.column [] "day") [.text "07"])

/-- The columns of one of the joined tables on a row. -/
def joinedRow (n : String) : Option String :=
  [("server", "a"), ("month", "04"), ("day", "07")].lookup n

/-- What evaluation finds on the row; the other table has one column. -/
def joinedLookup : Lookup := fun outer n =>
  .ok (if outer = ["m"] then some (.text "1998") else (joinedRow n).map .text)

/-- A row of the joined tables on which the condition holds has the values of the two constraints, and
there is none for `year`: the only comparison with it is negated and about the other table. -/
theorem ofCondition_joined :
    (∀ c ∈ ofCondition ["server", "year", "month", "day"] (some ["e", "events"]) joined,
      joinedRow c.1 = some c.2) ∧
    ofCondition ["server", "year", "month", "day"] (some ["e", "events"]) joined =
      [("server", "a"), ("day", "07")] ∧
    (∀ t outer s, Conjunct t joined → Equates outer "year" s t →
      isOwn (some ["e", "events"]) outer = false) := by
  have finds : Facts.Finds (fun outer _ => isOwn (some ["e", "events"]) outer) joinedLookup
      joinedRow := by
    intro outer n own
    have other : outer ≠ ["m"] := by
      rintro rfl
      have foreign : isOwn (some ["e", "events"]) ["m"] = false := by decide
      exact absurd (foreign.symm.trans own) Bool.false_ne_true
    rw [joinedLookup, if_neg other]
  have sound := ofCondition_implied_and_complete ["server", "year", "month", "day"]
    (some ["e", "events"]) joined
  exact ⟨(sound.1 _ fun outer n _ own => own).2 joinedLookup joinedRow finds rfl,
    by decide +kernel, (sound.2 "year" (by decide)).mp (by decide +kernel)⟩

end Constraints

end SchemaOnRead.Sql
