import SchemaOnRead.Failure

/-!
# Accesses to a store

A computation over a store keeps a log of what it asks of the store. The log goes on until the
computation ends, whether it succeeds or fails.
-/

namespace SchemaOnRead

/-- What a store is asked for: a directory's entries, or a file's bytes, all or those of a range. -/
inductive Access where
  | listing (path : String)
  | reading (path : String) (range : Option (Nat × Int))
  deriving DecidableEq, Repr

/-- Whether an access reads a file. -/
def Access.isReading : Access → Bool
  | reading .. => true
  | listing _ => false

/-- The outcome of a computation with the accesses that it made, in order. -/
structure Logged (α : Type) where
  accesses : List Access
  result : Result α

namespace Logged

/-- An outcome without accesses. -/
def of {α : Type} (r : Result α) : Logged α := ⟨[], r⟩

/-- Goes on with a result; a failure ends the computation. -/
def bind {α β : Type} (x : Logged α) (f : α → Logged β) : Logged β :=
  match x.result with
  | .error e => ⟨x.accesses, .error e⟩
  | .ok a => ⟨x.accesses ++ (f a).accesses, (f a).result⟩

instance : Monad Logged where
  pure a := of (.ok a)
  bind := bind

/-- Going on with a result that is there. -/
theorem of_ok_bind {α β : Type} (a : α) (f : α → Logged β) : (of (.ok a) >>= f) = f a := rfl

/-- Two computations one after another give a result if both do. -/
theorem bind_eq_ok {α β : Type} {x : Logged α} {f : α → Logged β} {b : β} :
    (x >>= f).result = .ok b ↔ ∃ a, x.result = .ok a ∧ (f a).result = .ok b := by
  change (bind x f).result = .ok b ↔ _
  rw [bind]
  cases x.result <;> simp

/-- Changes what is reported when a computation fails. -/
def mapFailure {α : Type} (f : Failure → Failure) (x : Logged α) : Logged α :=
  { x with result := x.result.mapError f }

/-- One access with its outcome. -/
def access {α : Type} (a : Access) (r : Result α) : Logged α := ⟨[a], r⟩

end Logged

end SchemaOnRead
