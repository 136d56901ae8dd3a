import Mathlib.Data.List.Forall2
import SchemaOnRead.Failure

/-!
# Lists of results

What it takes to go through a list with something that may fail: all of it is answered, in order, or
it fails as one of the items does.
-/

namespace SchemaOnRead

variable {α β : Type} {read : α → Result β} {items : List α}

/-- Where a reader answers for each item, the answers stand in the order of the items. -/
theorem forall₂_of_mapM {answers : List β} (all : items.mapM read = .ok answers) :
    List.Forall₂ (fun a b => read a = .ok b) items answers := by
  induction items generalizing answers with
  | nil =>
    cases all
    exact .nil
  | cons a rest ih =>
    rw [List.mapM_cons] at all
    obtain ⟨b, first, all⟩ := ok_of_bind all
    obtain ⟨others, later, all⟩ := ok_of_bind all
    cases all
    exact .cons first (ih later)

/-- Items of related lists have partners in the other list. -/
theorem exists_of_mem_forall₂ {R : α → β → Prop} {answers : List β}
    (related : List.Forall₂ R items answers) :
    (∀ b ∈ answers, ∃ a ∈ items, R a b) ∧ ∀ a ∈ items, ∃ b ∈ answers, R a b := by
  induction related with
  | nil => exact ⟨List.forall_mem_nil _, List.forall_mem_nil _⟩
  | @cons a b rest others first _ ih =>
    refine ⟨List.forall_mem_cons.mpr ⟨⟨a, .head _, first⟩, fun b' member => ?_⟩,
      List.forall_mem_cons.mpr ⟨⟨b, .head _, first⟩, fun a' member => ?_⟩⟩
    · obtain ⟨a', there, same⟩ := ih.1 b' member
      exact ⟨a', .tail _ there, same⟩
    · obtain ⟨b', there, same⟩ := ih.2 a' member
      exact ⟨b', .tail _ there, same⟩

/-- Every answer is that for an item, and every item has an answer. -/
theorem exists_of_mem_mapM {answers : List β} (all : items.mapM read = .ok answers) :
    (∀ b ∈ answers, ∃ a ∈ items, read a = .ok b) ∧ ∀ a ∈ items, ∃ b ∈ answers, read a = .ok b :=
  exists_of_mem_forall₂ (forall₂_of_mapM all)

/-- A reader that answers for each item answers for the list. -/
theorem mapM_eq_ok {answer : α → β} (each : ∀ a ∈ items, read a = .ok (answer a)) :
    items.mapM read = .ok (items.map answer) := by
  induction items with
  | nil => rfl
  | cons a rest ih =>
    obtain ⟨first, others⟩ := List.forall_mem_cons.mp each
    rw [List.mapM_cons, first, ih others]
    rfl

/-- A reader that fails on a list fails on an item, after answering for all items before it. -/
theorem first_of_mapM_error {f : Failure} (failed : items.mapM read = .error f) :
    ∃ before a after, items = before ++ a :: after ∧ (∀ b ∈ before, ∃ answer, read b = .ok answer) ∧
      read a = .error f := by
  induction items with
  | nil => cases failed
  | cons a rest ih =>
    rw [List.mapM_cons] at failed
    cases first : read a with
    | error g =>
      rw [first] at failed
      cases failed
      exact ⟨[], a, rest, rfl, List.forall_mem_nil _, first⟩
    | ok b =>
      rw [first] at failed
      change (rest.mapM read).bind _ = _ at failed
      cases later : rest.mapM read with
      | error g =>
        rw [later] at failed
        cases failed
        obtain ⟨before, a', after, rfl, answered, same⟩ := ih later
        exact ⟨a :: before, a', after, rfl, List.forall_mem_cons.mpr ⟨⟨b, first⟩, answered⟩, same⟩
      | ok bs =>
        rw [later] at failed
        cases failed

theorem exists_of_mapM_error {f : Failure} (failed : items.mapM read = .error f) :
    ∃ a ∈ items, read a = .error f := by
  obtain ⟨before, a, after, rfl, -, same⟩ := first_of_mapM_error failed
  exact ⟨a, List.mem_append_right _ (.head _), same⟩

/-! ## Going through a list twice -/

section

variable {γ : Type} {again : β → Result γ}

/-- Two readers that answer one after the other for each item answer for the list. -/
theorem bind_mapM_eq_ok {answer : α → γ}
    (each : ∀ a ∈ items, (read a).bind again = .ok (answer a)) :
    (items.mapM read).bind (·.mapM again) = .ok (items.map answer) := by
  induction items with
  | nil => rfl
  | cons a rest ih =>
    obtain ⟨first, others⟩ := List.forall_mem_cons.mp each
    have later := ih others
    obtain ⟨b, read, again⟩ := ok_of_bind first
    obtain ⟨bs, reads, agains⟩ := ok_of_bind later
    rw [List.mapM_cons, read, reads]
    change (b :: bs).mapM _ = _
    rw [List.mapM_cons, again, agains]
    rfl

/-- Two readers that answer for a list answer one after the other for each item. -/
theorem ok_of_bind_mapM {answers : List γ}
    (all : (items.mapM read).bind (·.mapM again) = .ok answers) :
    ∀ a ∈ items, ∃ c, (read a).bind again = .ok c := by
  obtain ⟨bs, reads, agains⟩ := ok_of_bind all
  intro a member
  obtain ⟨b, there, read⟩ := (exists_of_mem_mapM reads).2 a member
  obtain ⟨c, -, again⟩ := (exists_of_mem_mapM agains).2 b there
  exact ⟨c, by rw [read]; exact again⟩

/-- Two readers that fail on a list fail on an item. -/
theorem exists_of_bind_mapM_error {f : Failure}
    (failed : (items.mapM read).bind (·.mapM again) = .error f) :
    ∃ a ∈ items, (read a).bind again = .error f := by
  cases reads : items.mapM read with
  | error g =>
    rw [reads] at failed
    cases failed
    obtain ⟨a, member, first⟩ := exists_of_mapM_error reads
    exact ⟨a, member, by rw [first]; rfl⟩
  | ok bs =>
    rw [reads] at failed
    obtain ⟨b, there, second⟩ := exists_of_mapM_error (show bs.mapM again = .error f from failed)
    obtain ⟨a, member, first⟩ := (exists_of_mem_mapM reads).1 b there
    exact ⟨a, member, by rw [first]; exact second⟩

end

end SchemaOnRead
