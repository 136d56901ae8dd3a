import SchemaOnRead.Value

/-!
# Recent entries

A bounded list of entries, the one used last at the end. An entry that is found moves to the end. A
new one is put at the end, and if there are then more entries than the bound, the first one goes.
-/

namespace SchemaOnRead

/-- Entries by key, in the order of their last use. -/
structure Recent (κ α : Type) where
  capacity : Int
  entries : List (κ × α) := []

namespace Recent

variable {κ α : Type} [BEq κ]

/-- The value of a key with the entries after its use. -/
def use? (r : Recent κ α) (key : κ) : Option (α × Recent κ α) :=
  match r.entries.lookup key with
  | some a => some (a, { r with entries := r.entries.filter (!key == ·.1) ++ [(key, a)] })
  | none => none

/-- Adds an entry whose key is not there. -/
def insert (r : Recent κ α) (key : κ) (a : α) : Recent κ α :=
  let entries := r.entries ++ [(key, a)]
  if r.capacity < entries.length then { r with entries := entries.drop 1 }
  else { r with entries := entries }

theorem use?_eq_some {r after : Recent κ α} {key : κ} {a : α} :
    r.use? key = some (a, after) ↔ r.entries.lookup key = some a ∧
      after = { r with entries := r.entries.filter (!key == ·.1) ++ [(key, a)] } := by
  rw [use?]
  cases r.entries.lookup key with
  | none => simp
  | some b =>
    simp only [Option.some.injEq, Prod.mk.injEq]
    constructor
    · rintro ⟨rfl, rfl⟩
      exact ⟨rfl, rfl⟩
    · rintro ⟨rfl, rfl⟩
      exact ⟨rfl, rfl⟩

/-- A use gives the value of an entry, and no entry is new after it. -/
theorem mem_of_use? [LawfulBEq κ] {r after : Recent κ α} {key : κ} {a : α}
    (used : r.use? key = some (a, after)) :
    (key, a) ∈ r.entries ∧ ∀ e ∈ after.entries, e ∈ r.entries := by
  obtain ⟨found, rfl⟩ := use?_eq_some.mp used
  have there := mem_of_lookup_eq_some found
  refine ⟨there, fun e member => ?_⟩
  rcases List.mem_append.mp member with others | last
  · exact (List.mem_filter.mp others).1
  · cases List.mem_singleton.mp last
    exact there

omit [BEq κ] in
/-- After an insertion the new entry is there, and perhaps others that were there before. -/
theorem mem_of_mem_insert {r : Recent κ α} {key : κ} {a : α} {e : κ × α}
    (member : e ∈ (r.insert key a).entries) : e ∈ r.entries ∨ e = (key, a) := by
  have whole : e ∈ r.entries ++ [(key, a)] := by
    rw [insert] at member
    split at member
    · exact List.mem_of_mem_drop member
    · exact member
  exact (List.mem_append.mp whole).imp_right List.mem_singleton.mp

end Recent

end SchemaOnRead
