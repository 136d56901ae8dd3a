import SchemaOnRead.Splits.Source

/-!
# Draining a source

A source that is asked for batches until it is finished hands out the items of its enumeration, all
of them, once each and in order; if the enumeration fails, draining it fails in the same way
(`drain_of`). The size of the batches makes no difference.
-/

namespace SchemaOnRead.SplitSource

variable {ε α : Type}

/-- A source that is neither finished nor closed, and the items and the failure that are still to
come from it. -/
structure Coming (s : SplitSource ε α) (items : List α) (failure : Option Failure) : Prop where
  running : s.isFinished = false
  items_eq : s.lookahead.toList ++ s.rest.items = items
  failure_eq : s.rest.failure = failure

theorem coming_of (t : Trace ε α) : Coming (of t) t.items t.failure := ⟨rfl, rfl, rfl⟩

/-- What an enumeration amounts to that ends in some way after giving a value. -/
def ended {β : Type} (failure : Option Failure) (b : β) : Result β :=
  match failure with
  | some f => .error f
  | none => .ok b

theorem toList_eq_ended (t : Trace ε α) : t.toList = ended t.failure t.items := rfl

/-! ## Pulling -/

theorem pullFrom_nil {failure : Option Failure} {steps : List (ε ⊕ α)} (done : List ε)
    (exhausted : (⟨steps, failure⟩ : Trace ε α).items = []) :
    (Trace.pullFrom failure done steps).item = ended failure none ∧
      (Trace.pullFrom failure done steps).rest = Trace.ended := by
  induction steps generalizing done with
  | nil => cases failure <;> exact ⟨rfl, rfl⟩
  | cons step rest ih =>
    cases step with
    | inl e => exact ih (e :: done) exhausted
    | inr a => cases exhausted

theorem pullFrom_cons {failure : Option Failure} {steps : List (ε ⊕ α)} (done : List ε) {a : α}
    {later : List α} (first : (⟨steps, failure⟩ : Trace ε α).items = a :: later) :
    (Trace.pullFrom failure done steps).item = .ok (some a) ∧
      (Trace.pullFrom failure done steps).rest.items = later ∧
      (Trace.pullFrom failure done steps).rest.failure = failure := by
  induction steps generalizing done with
  | nil => cases first
  | cons step rest ih =>
    cases step with
    | inl e => exact ih (e :: done) first
    | inr b =>
      have split : b :: (⟨rest, failure⟩ : Trace ε α).items = a :: later := first
      cases split
      exact ⟨rfl, rfl, rfl⟩

/-- The next item is the first of those to come. -/
theorem pull_cons {s : SplitSource ε α} {a : α} {later : List α} {failure : Option Failure}
    (coming : Coming s (a :: later) failure) :
    s.pull.result = .ok (some a) ∧ Coming s.pull.source later failure := by
  obtain ⟨rest, lookahead, finished, closed⟩ := s
  obtain ⟨running, items, fails⟩ := coming
  cases lookahead with
  | some b =>
    have split : b :: rest.items = a :: later := items
    cases split
    exact ⟨rfl, running, rfl, fails⟩
  | none =>
    obtain ⟨item, more, same⟩ := pullFrom_cons [] items
    exact ⟨item, running, more, same.trans fails⟩

/-- When no item is to come, a source is over or fails as its enumeration does. Either way, nothing
comes from it after that. -/
theorem pull_nil {s : SplitSource ε α} {failure : Option Failure} (coming : Coming s [] failure) :
    s.pull.result = ended failure none ∧ Coming s.pull.source [] none := by
  obtain ⟨rest, lookahead, finished, closed⟩ := s
  obtain ⟨running, items, fails⟩ := coming
  cases lookahead with
  | some b => cases items
  | none =>
    subst fails
    obtain ⟨item, nothing⟩ := pullFrom_nil [] items
    refine ⟨item, running, ?_, ?_⟩
    · exact congrArg Trace.items nothing
    · exact congrArg Trace.failure nothing

/-! ## Batches -/

/-- A batch that can be filled holds the first items to come. -/
theorem fill_of_le {failure : Option Failure} {n : Nat} {items : List α} (enough : n ≤ items.length)
    {s : SplitSource ε α} (coming : Coming s items failure) (done : List ε) (batch : List α) :
    (fill n done batch s).result = .ok (batch.reverse ++ items.take n) ∧
      Coming (fill n done batch s).source (items.drop n) failure := by
  induction n generalizing items s done batch with
  | zero => exact ⟨by simp [fill], coming⟩
  | succ n ih =>
    cases items with
    | nil => simp at enough
    | cons a later =>
      obtain ⟨pulled, rest⟩ := pull_cons coming
      have inner := ih (Nat.le_of_succ_le_succ enough) rest (done ++ s.pull.effects) (a :: batch)
      rw [fill]
      simpa [pulled] using inner

/-- A source that is finished, and nothing is left in it. -/
structure Over (s : SplitSource ε α) : Prop where
  finished : s.isFinished = true
  empty : s.lookahead.toList ++ s.rest.items = []

/-- Nothing is left in a source that notices that nothing comes from it. -/
theorem Coming.spent {s : SplitSource ε α} (coming : Coming s [] none) :
    Over { s with finished := true } := ⟨rfl, coming.items_eq⟩

/-- A batch that cannot be filled holds all items to come, unless the enumeration fails. -/
theorem fill_of_lt {failure : Option Failure} {n : Nat} {items : List α} (few : items.length < n)
    {s : SplitSource ε α} (coming : Coming s items failure) (done : List ε) (batch : List α) :
    match failure with
    | some f => (fill n done batch s).result = .error f ∧ Coming (fill n done batch s).source [] none
    | none => (fill n done batch s).result = .ok (batch.reverse ++ items) ∧
        (fill n done batch s).source.finished = true ∧ Over (fill n done batch s).source := by
  induction n generalizing items s done batch with
  | zero => cases few
  | succ n ih =>
    cases items with
    | nil =>
      obtain ⟨pulled, nothing⟩ := pull_nil coming
      rw [fill]
      cases failure with
      | some f => simpa [pulled, ended] using nothing
      | none => simpa [pulled, ended] using nothing.spent
    | cons a later =>
      obtain ⟨pulled, rest⟩ := pull_cons coming
      have inner := ih (Nat.lt_of_succ_lt_succ few) rest (done ++ s.pull.effects) (a :: batch)
      rw [fill]
      cases failure <;> simpa [pulled] using inner

/-- What asking a source for a batch of at most `size` of the items to come leads to: a full batch
if there are more of them; else a batch of all, after which the source is finished, or the failure of
the enumeration, after which nothing comes. -/
inductive Batched (size : Nat) (items : List α) (failure : Option Failure)
    (r : Reply ε α (List α)) : Prop where
  | more (fits : size < items.length) (batch : r.result = .ok (items.take size))
      (left : Coming r.source (items.drop size) failure)
  | last (few : items.length ≤ size) (whole : failure = none) (batch : r.result = .ok items)
      (spent : Over r.source)
  | failed {f : Failure} (few : items.length ≤ size) (fails : failure = some f)
      (raised : r.result = .error f) (left : Coming r.source [] none)

/-- Getting ahead by one item tells whether the source is finished. -/
theorem batched_lookAhead {items : List α} {failure : Option Failure} {n : Nat}
    (enough : n ≤ items.length) {r : Reply ε α (List α)}
    (coming : Coming r.source (items.drop n) failure) :
    Batched n items failure (lookAhead r (items.take n)) := by
  rw [lookAhead]
  cases left : items.drop n with
  | nil =>
    rw [left] at coming
    obtain ⟨pulled, nothing⟩ := pull_nil coming
    have few : items.length ≤ n := List.drop_eq_nil_iff.mp left
    cases failure with
    | some f =>
      refine .failed few rfl ?_ ?_
      · simp [pulled, ended]
      · simpa [pulled, ended] using nothing
    | none =>
      refine .last few rfl ?_ ?_
      · simp [pulled, ended, List.take_of_length_le few]
      · simpa [pulled, ended] using nothing.spent
  | cons a later =>
    rw [left] at coming
    obtain ⟨pulled, running, rest, fails⟩ := pull_cons coming
    have more : n < items.length := by
      have := congrArg List.length left
      simp only [List.length_drop, List.length_cons] at this
      omega
    -- The item taken ahead is put back in front of the others.
    have empty : r.source.pull.source.lookahead = none := by
      rw [pull]
      cases r.source.lookahead <;> rfl
    refine .more more (by simp [pulled]) ?_
    rw [left]
    rw [empty] at rest
    simp only [pulled]
    exact ⟨running, congrArg (a :: ·) rest, fails⟩

theorem batched_nextBatch {size : Nat} (positive : 0 < size) {s : SplitSource ε α} {items : List α}
    {failure : Option Failure} (coming : Coming s items failure) :
    Batched size items failure (s.nextBatch size) := by
  rw [nextBatch, if_neg (by omega), coming.running, if_neg (by simp), Int.toNat_natCast]
  by_cases enough : size ≤ items.length
  · obtain ⟨filled, rest⟩ := fill_of_le enough coming [] []
    have running : (fill size [] [] s).source.finished = false := by
      have := rest.running
      rw [isFinished, Bool.or_eq_false_iff] at this
      exact this.1
    simp only [filled, running, List.reverse_nil, List.nil_append]
    exact batched_lookAhead enough rest
  · have few : items.length < size := Nat.lt_of_not_le enough
    have filled := fill_of_lt few coming [] []
    cases failure with
    | some f =>
      obtain ⟨raised, nothing⟩ := filled
      refine .failed (Nat.le_of_lt few) rfl ?_ ?_
      · simp only [raised]
      · simpa only [raised] using nothing
    | none =>
      obtain ⟨all, exhausted, spent⟩ := filled
      rw [List.reverse_nil, List.nil_append] at all
      refine .last (Nat.le_of_lt few) rfl ?_ ?_
      · simp only [all, exhausted, if_true]
      · simpa only [all, exhausted, if_true] using spent

/-- A source that is finished or closed answers with nothing, and stays as it is. -/
theorem nextBatch_of_isFinished {s : SplitSource ε α} (finished : s.isFinished = true) {size : Nat}
    (positive : 0 < size) : s.nextBatch size = ⟨[], .ok [], s⟩ := by
  rw [nextBatch, if_neg (by omega), if_pos finished]

/-! ## Draining -/

theorem drainFrom_coming {size : Nat} (positive : 0 < size) {failure : Option Failure} {fuel : Nat}
    {items : List α} (enough : items.length < fuel) {s : SplitSource ε α}
    (coming : Coming s items failure) (done : List α) :
    drainFrom size fuel done s = ended failure (done ++ items) := by
  induction fuel generalizing items s done with
  | zero => cases enough
  | succ fuel ih =>
    rw [drainFrom, coming.running, if_neg (by simp)]
    cases batched_nextBatch positive coming with
    | more fits batch left =>
      simp only [batch]
      rw [ih (by rw [List.length_drop]; omega) left, List.append_assoc, List.take_append_drop]
    | last few whole batch spent =>
      subst whole
      simp only [batch, ended]
      cases fuel with
      | zero => rfl
      | succ fuel => rw [drainFrom, spent.finished, if_pos rfl]
    | failed few fails raised left =>
      subst fails
      simp only [raised, ended]

/-- Draining a source in batches of any size gives what its enumeration gives. -/
theorem drain_of {size : Int} (positive : 0 < size) (t : Trace ε α) :
    (of t).drain size = t.toList := by
  obtain ⟨n, rfl⟩ := Int.eq_ofNat_of_zero_le (Int.le_of_lt positive)
  rw [drain, drainFrom_coming (by omega) (by simp [of]) (coming_of t), List.nil_append,
    toList_eq_ended]

end SchemaOnRead.SplitSource
