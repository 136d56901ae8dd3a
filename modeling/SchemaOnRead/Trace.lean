import SchemaOnRead.Failure

/-!
# Traces

A trace is a lazy enumeration written out: the steps it will take when its items are asked for one
after another. A step either has an effect that others can see or yields an item. At the end of its
steps an enumeration is over, or it fails; after a failure it is over.
-/

namespace SchemaOnRead

/-- An enumeration with effects of type `ε` and items of type `α`. -/
structure Trace (ε α : Type) where
  steps : List (ε ⊕ α)
  failure : Option Failure := none

namespace Trace

variable {ε α β : Type}

/-- The enumeration that is over. -/
def ended : Trace ε α := ⟨[], none⟩

/-- The enumeration that fails at once. -/
def failing (f : Failure) : Trace ε α := ⟨[], some f⟩

/-- An effect in front. -/
def effect (e : ε) (t : Trace ε α) : Trace ε α := { t with steps := .inl e :: t.steps }

/-- An item in front. -/
def yield (a : α) (t : Trace ε α) : Trace ε α := { t with steps := .inr a :: t.steps }

/-- One enumeration after another; the second one is not reached if the first one fails. -/
def append (t u : Trace ε α) : Trace ε α :=
  match t.failure with
  | some f => ⟨t.steps, some f⟩
  | none => ⟨t.steps ++ u.steps, u.failure⟩

/-- What asking for the next item gives: the effects until then, the item or none at the end, and the
rest of the enumeration. -/
structure Pulled (ε α : Type) where
  effects : List ε
  item : Result (Option α)
  rest : Trace ε α

/-- Asks for the next item, when some effects have happened, last first. -/
def pullFrom (failure : Option Failure) : List ε → List (ε ⊕ α) → Pulled ε α
  | done, [] =>
    match failure with
    | some f => ⟨done.reverse, .error f, ended⟩
    | none => ⟨done.reverse, .ok none, ended⟩
  | done, .inl e :: rest => pullFrom failure (e :: done) rest
  | done, .inr a :: rest => ⟨done.reverse, .ok (some a), ⟨rest, failure⟩⟩

/-- Asks for the next item. -/
def pull (t : Trace ε α) : Pulled ε α := pullFrom t.failure [] t.steps

/-- All items. -/
def items (t : Trace ε α) : List α := t.steps.filterMap fun
  | .inl _ => none
  | .inr a => some a

/-- All effects. -/
def effects (t : Trace ε α) : List ε := t.steps.filterMap fun
  | .inl e => some e
  | .inr _ => none

/-- All items, if the enumeration does not fail. -/
def toList (t : Trace ε α) : Result (List α) :=
  match t.failure with
  | some f => .error f
  | none => .ok t.items

/-- Keeps, changes or drops items. A failure of the function ends the enumeration. -/
def selectFrom (f : α → Result (Option β)) (failure : Option Failure) :
    List (ε ⊕ α) → Trace ε β
  | [] => ⟨[], failure⟩
  | .inl e :: rest => (selectFrom f failure rest).effect e
  | .inr a :: rest =>
    match f a with
    | .error e => failing e
    | .ok none => selectFrom f failure rest
    | .ok (some b) => (selectFrom f failure rest).yield b

/-- Keeps, changes or drops items. -/
def select (f : α → Result (Option β)) (t : Trace ε α) : Trace ε β := selectFrom f t.failure t.steps

/-- The effects and the items of the first steps, up to item `n`; all of them if there are fewer
items. -/
def takeSteps : Nat → List (ε ⊕ α) → List (ε ⊕ α)
  | 0, _ => []
  | _, [] => []
  | n, .inl e :: rest => .inl e :: takeSteps n rest
  | n + 1, .inr a :: rest => .inr a :: takeSteps n rest

/-- An enumeration of which only the first `n` items are asked for. -/
def take (n : Nat) (t : Trace ε α) : Trace ε α :=
  if n ≤ t.items.length then ⟨takeSteps n t.steps, none⟩ else t

/-! ## Items and failures of composed enumerations -/

@[simp] theorem items_ended : (ended : Trace ε α).items = [] := rfl

@[simp] theorem items_failing (f : Failure) : (failing f : Trace ε α).items = [] := rfl

@[simp] theorem items_effect (e : ε) (t : Trace ε α) : (t.effect e).items = t.items := rfl

@[simp] theorem items_yield (a : α) (t : Trace ε α) : (t.yield a).items = a :: t.items := rfl

@[simp] theorem failure_ended : (ended : Trace ε α).failure = none := rfl

@[simp] theorem failure_failing (f : Failure) : (failing f : Trace ε α).failure = some f := rfl

@[simp] theorem failure_effect (e : ε) (t : Trace ε α) : (t.effect e).failure = t.failure := rfl

@[simp] theorem failure_yield (a : α) (t : Trace ε α) : (t.yield a).failure = t.failure := rfl

theorem failure_append (t u : Trace ε α) : (t.append u).failure = t.failure.or u.failure := by
  rw [append]
  cases t.failure <;> rfl

theorem items_append {t : Trace ε α} (whole : t.failure = none) (u : Trace ε α) :
    (t.append u).items = t.items ++ u.items := by
  rw [append, whole, items, List.filterMap_append]
  rfl

/-- Selecting goes through if the enumeration does and no item makes the function fail. -/
theorem failure_select {f : α → Result (Option β)} {t : Trace ε α} :
    (t.select f).failure = none ↔ t.failure = none ∧ ∀ a ∈ t.items, ∃ b, f a = .ok b := by
  obtain ⟨steps, failure⟩ := t
  rw [select]
  show (selectFrom f failure steps).failure = none ↔ failure = none ∧ _
  induction steps with
  | nil => simp [selectFrom, items]
  | cons s rest ih =>
    cases s with
    | inl e => simpa [selectFrom, items] using ih
    | inr a =>
      have step : (⟨.inr a :: rest, failure⟩ : Trace ε α).items =
          a :: (⟨rest, failure⟩ : Trace ε α).items := rfl
      rw [step, List.forall_mem_cons, selectFrom]
      cases answer : f a with
      | error e => simp
      | ok b => cases b <;> simpa using ih

/-- The items selected from an enumeration. -/
theorem items_select {f : α → Result (Option β)} {t : Trace ε α}
    (settled : ∀ a ∈ t.items, ∃ b, f a = .ok b) :
    (t.select f).items = t.items.filterMap fun a => (f a).toOption.join := by
  obtain ⟨steps, failure⟩ := t
  rw [select]
  show (selectFrom f failure steps).items = _
  induction steps with
  | nil => rfl
  | cons s rest ih =>
    cases s with
    | inl e => exact ih settled
    | inr a =>
      have step : (⟨.inr a :: rest, failure⟩ : Trace ε α).items =
          a :: (⟨rest, failure⟩ : Trace ε α).items := rfl
      rw [step, List.forall_mem_cons] at settled
      obtain ⟨⟨b, answer⟩, later⟩ := settled
      rw [step, List.filterMap_cons, selectFrom, answer]
      cases b with
      | none => exact ih later
      | some b => exact congrArg (b :: ·) (ih later)

/-- What is selected comes from an item, also when the enumeration fails later on. -/
theorem exists_of_mem_select {f : α → Result (Option β)} {t : Trace ε α} {b : β}
    (member : b ∈ (t.select f).items) : ∃ a ∈ t.items, f a = .ok (some b) := by
  obtain ⟨steps, failure⟩ := t
  rw [select] at member
  change b ∈ (selectFrom f failure steps).items at member
  induction steps with
  | nil => cases member
  | cons step rest ih =>
    cases step with
    | inl e => exact ih member
    | inr a =>
      rw [selectFrom] at member
      have later : (∃ a ∈ (⟨rest, failure⟩ : Trace ε α).items, f a = .ok (some b)) →
          ∃ a' ∈ (⟨.inr a :: rest, failure⟩ : Trace ε α).items, f a' = .ok (some b) := by
        rintro ⟨a', there, answer⟩
        exact ⟨a', List.mem_cons_of_mem a there, answer⟩
      cases answer : f a with
      | error e =>
        rw [answer] at member
        cases member
      | ok b? =>
        rw [answer] at member
        cases b? with
        | none => exact later (ih member)
        | some b' =>
          rcases List.mem_cons.mp member with rfl | further
          · exact ⟨a, List.mem_cons_self .., answer⟩
          · exact later (ih further)

end Trace

end SchemaOnRead
