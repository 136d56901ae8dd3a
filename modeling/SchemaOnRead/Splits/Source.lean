import SchemaOnRead.Trace

/-!
# Split sources

A source hands out the items of a lazy enumeration in batches. To tell whether it is finished, it
asks for one item beyond a batch and keeps it for the next one. A closed source hands out nothing.
-/

namespace SchemaOnRead

/-- A source of items: what is left of their enumeration, the item it is ahead, and whether the
enumeration is over or the source closed. -/
structure SplitSource (ε α : Type) where
  rest : Trace ε α
  lookahead : Option α := none
  finished : Bool := false
  closed : Bool := false

namespace SplitSource

variable {ε α : Type}

/-- A source of the items of an enumeration. -/
def of (t : Trace ε α) : SplitSource ε α := { rest := t }

/-- Whether nothing more is to come. -/
def isFinished (s : SplitSource ε α) : Bool := s.finished || s.closed

/-- Closes the source. -/
def close (s : SplitSource ε α) : SplitSource ε α := { s with closed := true, lookahead := none }

/-- What a request gives: the effects that it had, its result, and the source after it. -/
structure Reply (ε α β : Type) where
  effects : List ε
  result : Result β
  source : SplitSource ε α

/-- Takes the next item: the one the source is ahead, or one of the enumeration. -/
def pull (s : SplitSource ε α) : Reply ε α (Option α) :=
  match s.lookahead with
  | some a => ⟨[], .ok (some a), { s with lookahead := none }⟩
  | none =>
    let p := s.rest.pull
    ⟨p.effects, p.item, { s with rest := p.rest }⟩

/-- Takes up to `n` items; `batch` holds those taken before, last first. -/
def fill : Nat → List ε → List α → SplitSource ε α → Reply ε α (List α)
  | 0, done, batch, s => ⟨done, .ok batch.reverse, s⟩
  | n + 1, done, batch, s =>
    let r := s.pull
    match r.result with
    | .error f => ⟨done ++ r.effects, .error f, r.source⟩
    | .ok none => ⟨done ++ r.effects, .ok batch.reverse, { r.source with finished := true }⟩
    | .ok (some a) => fill n (done ++ r.effects) (a :: batch) r.source

/-- Gets ahead by one item after a batch. -/
def lookAhead (r : Reply ε α (List α)) (batch : List α) : Reply ε α (List α) :=
  let next := r.source.pull
  let effects := r.effects ++ next.effects
  match next.result with
  | .error f => ⟨effects, .error f, next.source⟩
  | .ok none => ⟨effects, .ok batch, { next.source with finished := true }⟩
  | .ok (some a) => ⟨effects, .ok batch, { next.source with lookahead := some a }⟩

/-- The next batch of at most `size` items. A failure of the enumeration costs the batch. -/
def nextBatch (size : Int) (s : SplitSource ε α) : Reply ε α (List α) :=
  if size < 1 then ⟨[], .error (Failure.mk (.batchSizeNotPositive size) []), s⟩
  else if s.isFinished then ⟨[], .ok [], s⟩
  else
    let r := fill size.toNat [] [] s
    match r.result with
    | .error _ => r
    | .ok batch => if r.source.finished then r else lookAhead r batch

/-- Asks for batches until a source is finished; `done` holds the items handed out before. Each batch
takes one step. -/
def drainFrom (size : Int) : Nat → List α → SplitSource ε α → Result (List α)
  | 0, done, _ => .ok done
  | fuel + 1, done, s =>
    if s.isFinished then .ok done
    else
      let r := s.nextBatch size
      match r.result with
      | .error f => .error f
      | .ok batch => drainFrom size fuel (done ++ batch) r.source

/-- All items of a source, asked for in batches. -/
def drain (size : Int) (s : SplitSource ε α) : Result (List α) :=
  drainFrom size (s.rest.items.length + 2) [] s

end SplitSource

end SchemaOnRead
