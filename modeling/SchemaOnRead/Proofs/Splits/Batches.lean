import Mathlib.Algebra.GroupWithZero.Nat
import SchemaOnRead.Proofs.Splits.Draining

/-!
# Batches over a run of requests

A source is asked for batches one after another, and may be closed at any point. If its enumeration
does not fail, what it has handed out, the item it is ahead and what it has not asked for yet are
always the items of the enumeration, in order (`batches_exact`). If the enumeration fails, the request
that meets the failure takes items with it that no later batch gives back, and a further request finds
the source finished (`failure_costs_items`).
-/

namespace SchemaOnRead.SplitSource

variable {ε α : Type}

/-- What can be asked of a source: a batch of at most some items, or to close. -/
inductive Request where
  | batch (size : Nat)
  | close
  deriving DecidableEq, Repr

/-- The items that a request hands out. -/
def handed (s : SplitSource ε α) : Request → List α
  | .batch size => (s.nextBatch size).result.toOption.getD []
  | .close => []

theorem handed_of_ok {s : SplitSource ε α} {size : Nat} {batch : List α}
    (answered : (s.nextBatch size).result = .ok batch) : s.handed (.batch size) = batch := by
  rw [handed, answered]
  rfl

theorem handed_of_error {s : SplitSource ε α} {size : Nat} {f : Failure}
    (failed : (s.nextBatch size).result = .error f) : s.handed (.batch size) = [] := by
  rw [handed, failed]
  rfl

/-- The source after a request. -/
def after (s : SplitSource ε α) : Request → SplitSource ε α
  | .batch size => (s.nextBatch size).source
  | .close => s.close

/-- The items that requests hand out one after another. -/
def handedAll (s : SplitSource ε α) : List Request → List α
  | [] => []
  | r :: later => s.handed r ++ (s.after r).handedAll later

/-- The source after requests one after another. -/
def afterAll (s : SplitSource ε α) : List Request → SplitSource ε α
  | [] => s
  | r :: later => (s.after r).afterAll later

/-- Whether all batches that are asked for may hold an item. -/
def Proper (requests : List Request) : Prop := ∀ size, .batch size ∈ requests → 0 < size

theorem Proper.of_cons {r : Request} {later : List Request} (proper : Proper (r :: later)) :
    Proper later :=
  fun size member => proper size (.tail r member)

/-! ## An enumeration that does not fail -/

/-- What a source owes for the items of an enumeration when some are handed out: all others as long
as it is open, none when it is finished. It has asked for at most one item that it has not handed
out, also when it is closed. -/
inductive Account (items given : List α) (s : SplitSource ε α) : Bool → Prop where
  | running {left : List α} (all : given ++ left = items) (coming : Coming s left none) :
    Account items given s false
  | spent (all : given = items) (spent : Over s) : Account items given s false
  | closed {ahead : Option α} (all : given ++ ahead.toList ++ s.rest.items = items)
    (finished : s.isFinished = true) : Account items given s true

variable {items given : List α} {s : SplitSource ε α} {isClosed : Bool}

theorem Account.batch (account : Account items given s isClosed) {size : Nat} (positive : 0 < size) :
    Account items (given ++ s.handed (.batch size)) (s.after (.batch size)) isClosed := by
  rw [after]
  cases account with
  | running all coming =>
    cases batched_nextBatch positive coming with
    | more fits batch left =>
      rw [handed_of_ok batch]
      refine .running ?_ left
      rw [List.append_assoc, List.take_append_drop, all]
    | last few whole batch spent =>
      rw [handed_of_ok batch]
      exact .spent all spent
    | failed few fails raised left => cases fails
  | spent all spent =>
    have still := nextBatch_of_isFinished spent.finished positive
    rw [handed_of_ok (congrArg Reply.result still), still, List.append_nil]
    exact .spent all spent
  | closed all finished =>
    have still := nextBatch_of_isFinished finished positive
    rw [handed_of_ok (congrArg Reply.result still), still, List.append_nil]
    exact .closed all finished

theorem Account.close (account : Account items given s isClosed) :
    Account items (given ++ s.handed .close) (s.after .close) true := by
  have finished : s.close.isFinished = true := by simp [SplitSource.close, isFinished]
  rw [handed, after, List.append_nil]
  cases account with
  | running all coming =>
    -- the item that the source is ahead is given up
    have asked : given ++ s.lookahead.toList ++ s.rest.items = items := by
      rw [List.append_assoc, coming.items_eq, all]
    exact .closed asked finished
  | spent all spent =>
    have asked : given ++ s.lookahead.toList ++ s.rest.items = items := by
      rw [List.append_assoc, spent.empty, List.append_nil, all]
    exact .closed asked finished
  | closed all _ => exact .closed all finished

theorem Account.request (account : Account items given s isClosed) {r : Request}
    (proper : ∀ size, r = .batch size → 0 < size) :
    Account items (given ++ s.handed r) (s.after r) (isClosed || r == .close) := by
  cases r with
  | batch size =>
    have unchanged : (isClosed || Request.batch size == .close) = isClosed := by simp
    rw [unchanged]
    exact account.batch (proper size rfl)
  | close =>
    rw [beq_self_eq_true, Bool.or_true]
    exact account.close

/-- Requests keep the account, one after another. -/
theorem Account.requests (account : Account items given s isClosed) {requests : List Request}
    (proper : Proper requests) :
    Account items (given ++ s.handedAll requests) (s.afterAll requests)
      (isClosed || requests.contains .close) := by
  induction requests generalizing given s isClosed with
  | nil => simpa [handedAll, afterAll] using account
  | cons r later ih =>
    have first := account.request fun size same => proper size (same ▸ .head later)
    have rest := ih first proper.of_cons
    rw [List.append_assoc, Bool.or_assoc] at rest
    rw [handedAll, afterAll, List.contains_cons, BEq.comm (a := Request.close)]
    exact rest

theorem account_of (t : Trace ε α) (whole : t.failure = none) :
    Account t.items [] (of t) false := .running (List.nil_append _) (whole ▸ coming_of t)

/-- What is accounted for is all of the enumeration, in order. -/
theorem Account.whole (account : Account items given s isClosed) :
    ∃ ahead : Option α, given ++ ahead.toList ++ s.rest.items = items := by
  cases account with
  | running all coming =>
    refine ⟨s.lookahead, ?_⟩
    rw [List.append_assoc, coming.items_eq, all]
  | spent all spent =>
    refine ⟨s.lookahead, ?_⟩
    rw [List.append_assoc, spent.empty, List.append_nil, all]
  | @closed ahead all _ => exact ⟨ahead, all⟩

/-- Until a source is closed, it answers with the next items, and notices when none is left. -/
theorem Account.answer (account : Account items given s false) {size : Nat} (positive : 0 < size) :
    (s.nextBatch size).result = .ok ((items.drop given.length).take size) ∧
      ((s.nextBatch size).source.isFinished = true ↔ items.length ≤ given.length + size) := by
  cases account with
  | @running left all coming =>
    subst all
    rw [List.drop_left, List.length_append]
    cases batched_nextBatch positive coming with
    | more fits batch later =>
      refine ⟨batch, ?_⟩
      rw [later.running]
      simpa using fits
    | last few _ batch spent =>
      rw [List.take_of_length_le few, spent.finished]
      refine ⟨batch, ?_⟩
      simpa using few
    | failed few fails raised _ => cases fails
  | spent all spent =>
    subst all
    rw [nextBatch_of_isFinished spent.finished positive]
    simp [spent.finished]

/-- A closed source answers with nothing, and stays as it is. -/
theorem Account.answer_closed (account : Account items given s true) :
    s.isFinished = true ∧ ∀ size : Nat, 0 < size → s.nextBatch size = ⟨[], .ok [], s⟩ := by
  cases account with
  | closed _ finished =>
    exact ⟨finished, fun size positive => nextBatch_of_isFinished finished positive⟩

/-- The batches of a source whose enumeration does not fail. After any requests, the items handed
out, at most one more, and those that the enumeration has not been asked for are the items of the
enumeration, in order. Until the source is closed, a batch holds the next items, as many as it may
hold or as are left, and the source is finished after it exactly if none is left. Once it is closed,
it is finished, and a batch holds nothing and changes nothing. -/
theorem batches_exact {t : Trace ε α} (whole : t.failure = none) {requests : List Request}
    (proper : Proper requests) :
    (∃ ahead : Option α, (of t).handedAll requests ++ ahead.toList ++
        ((of t).afterAll requests).rest.items = t.items) ∧
      (.close ∉ requests → ∀ size : Nat, 0 < size →
        (((of t).afterAll requests).nextBatch size).result =
            .ok ((t.items.drop ((of t).handedAll requests).length).take size) ∧
          ((((of t).afterAll requests).nextBatch size).source.isFinished = true ↔
            t.items.length ≤ ((of t).handedAll requests).length + size)) ∧
      (.close ∈ requests → ((of t).afterAll requests).isFinished = true ∧
        ∀ size : Nat, 0 < size →
          ((of t).afterAll requests).nextBatch size = ⟨[], .ok [], (of t).afterAll requests⟩) := by
  have account := (account_of t whole).requests proper
  rw [List.nil_append, Bool.false_or] at account
  refine ⟨account.whole, fun never size positive => ?_, fun closing => ?_⟩
  · rw [eq_false_of_ne_true (mt List.contains_iff_mem.mp never)] at account
    exact account.answer positive
  · rw [List.contains_iff_mem.mpr closing] at account
    exact account.answer_closed

/-- Five items, each with an effect before it. -/
def fiveItems : Trace Nat Nat := ⟨(List.range 5).flatMap fun n => [.inl n, .inr n], none⟩

/-- The last batch may be shorter, and after closing nothing is handed out. -/
theorem batches_fiveItems :
    fiveItems.failure = none ∧ Proper [.batch 2, .batch 2] ∧ Proper [.batch 2, .close] ∧
      (((of fiveItems).afterAll [.batch 2, .batch 2]).nextBatch 2).result = .ok [4] ∧
      (((of fiveItems).afterAll [.batch 2, .batch 2]).nextBatch 2).source.isFinished = true ∧
      (((of fiveItems).afterAll [.batch 2, .close]).nextBatch 3).result = .ok [] := by
  have twice : Proper [.batch 2, .batch 2] := by
    intro size member
    simp at member
    omega
  have closing : Proper [.batch 2, .close] := by
    intro size member
    simp at member
    omega
  obtain ⟨batch, finished⟩ := (batches_exact (t := fiveItems) rfl twice).2.1 (by decide) 2 (by decide)
  have still := ((batches_exact (t := fiveItems) rfl closing).2.2 (by decide)).2 3 (by decide)
  exact ⟨rfl, twice, closing, batch, finished.mpr (by decide), congrArg Reply.result still⟩

/-! ## An enumeration that fails -/

/-- The requests for batches of some sizes. -/
def batchesOf (sizes : List Nat) : List Request := sizes.map .batch

theorem batchesOf_append (first later : List Nat) :
    batchesOf (first ++ later) = batchesOf first ++ batchesOf later := List.map_append

theorem handedAll_batchesOf_cons (s : SplitSource ε α) (size : Nat) (rest : List Nat) :
    s.handedAll (batchesOf (size :: rest)) =
      s.handed (.batch size) ++ (s.nextBatch size).source.handedAll (batchesOf rest) := rfl

theorem afterAll_batchesOf_cons (s : SplitSource ε α) (size : Nat) (rest : List Nat) :
    s.afterAll (batchesOf (size :: rest)) =
      (s.nextBatch size).source.afterAll (batchesOf rest) := rfl

theorem handedAll_append (s : SplitSource ε α) (first later : List Request) :
    s.handedAll (first ++ later) = s.handedAll first ++ (s.afterAll first).handedAll later := by
  induction first generalizing s with
  | nil => rfl
  | cons r rest ih =>
    rw [List.cons_append, handedAll, handedAll, afterAll, ih, List.append_assoc]

theorem afterAll_append (s : SplitSource ε α) (first later : List Request) :
    s.afterAll (first ++ later) = (s.afterAll first).afterAll later := by
  induction first generalizing s with
  | nil => rfl
  | cons r rest ih => exact ih (s.after r)

/-- Whether batches of some sizes can all be handed out when an enumeration fails after `count`
items: getting ahead by one must not meet the failure either. -/
def Answerable (count : Nat) (sizes : List Nat) : Prop := sizes = [] ∨ sizes.sum < count

/-- Batches that can be handed out before a failure are all of the items only if there is none. -/
theorem Answerable.take_eq_iff {items : List α} {sizes : List Nat}
    (answerable : Answerable items.length sizes) : items.take sizes.sum = items ↔ items = [] := by
  rcases answerable with rfl | small
  · exact eq_comm
  · constructor
    · intro everything
      have many : items.length ≤ sizes.sum := by
        rw [← everything, List.length_take]
        exact Nat.min_le_left _ _
      exact absurd small (Nat.not_lt.mpr many)
    · rintro rfl
      cases small

/-- Among batches that cannot all be handed out there is a first one that cannot. -/
theorem answerable_or_split (count : Nat) (sizes : List Nat) :
    Answerable count sizes ∨ ∃ before size later, sizes = before ++ size :: later ∧
      Answerable count before ∧ count ≤ before.sum + size := by
  induction sizes generalizing count with
  | nil => exact .inl (.inl rfl)
  | cons size rest ih =>
    by_cases fits : size < count
    · rcases ih (count - size) with answerable | ⟨before, next, later, split, answerable, many⟩
      · refine .inl (.inr ?_)
        rcases answerable with rfl | small
        · simpa using fits
        · rw [List.sum_cons]
          omega
      · refine .inr ⟨size :: before, next, later, ?_, .inr ?_, ?_⟩
        · rw [split, List.cons_append]
        · rw [List.sum_cons]
          rcases answerable with rfl | small
          · simpa using fits
          · omega
        · rw [List.sum_cons]
          omega
    · refine .inr ⟨[], size, rest, rfl, .inl rfl, ?_⟩
      simpa using fits

/-- Batches that an enumeration can answer before it fails are handed out in full. -/
theorem handedAll_of_answerable {f : Failure} {left : List α} (coming : Coming s left (some f))
    {sizes : List Nat} (positive : ∀ size ∈ sizes, 0 < size)
    (answerable : Answerable left.length sizes) :
    s.handedAll (batchesOf sizes) = left.take sizes.sum ∧
      Coming (s.afterAll (batchesOf sizes)) (left.drop sizes.sum) (some f) := by
  induction sizes generalizing s left with
  | nil => exact ⟨rfl, coming⟩
  | cons size rest ih =>
    have small : size + rest.sum < left.length := by
      rcases answerable with none | small
      · cases none
      · simpa using small
    rw [handedAll_batchesOf_cons, afterAll_batchesOf_cons, List.sum_cons]
    cases batched_nextBatch (positive size (.head rest)) coming with
    | more fits batch next =>
      have later : Answerable (left.drop size).length rest := by
        rw [List.length_drop]
        exact .inr (by omega)
      obtain ⟨others, coming'⟩ := ih next (fun n member => positive n (.tail size member)) later
      rw [List.drop_drop] at coming'
      refine ⟨?_, coming'⟩
      rw [handed_of_ok batch, others, List.take_add]
    | last few whole _ _ => cases whole
    | failed few _ _ _ => omega

theorem afterAll_of_isFinished (finished : s.isFinished = true) {sizes : List Nat}
    (positive : ∀ size ∈ sizes, 0 < size) :
    s.handedAll (batchesOf sizes) = [] ∧ s.afterAll (batchesOf sizes) = s := by
  induction sizes with
  | nil => exact ⟨rfl, rfl⟩
  | cons size rest ih =>
    have still := nextBatch_of_isFinished finished (positive size (.head rest))
    obtain ⟨others, same⟩ := ih fun n member => positive n (.tail size member)
    rw [handedAll_batchesOf_cons, afterAll_batchesOf_cons, handed_of_ok (congrArg Reply.result still),
      still]
    exact ⟨others, same⟩

/-- When nothing comes from a source any more, it hands out nothing, and it is finished after any
request. -/
theorem afterAll_of_nothing (nothing : Coming s [] none) {sizes : List Nat}
    (positive : ∀ size ∈ sizes, 0 < size) :
    s.handedAll (batchesOf sizes) = [] ∧
      ((s.afterAll (batchesOf sizes)).isFinished = true ↔ sizes ≠ []) := by
  cases sizes with
  | nil => exact ⟨rfl, by simp [batchesOf, afterAll, nothing.running]⟩
  | cons size rest =>
    rw [handedAll_batchesOf_cons, afterAll_batchesOf_cons]
    cases batched_nextBatch (positive size (.head rest)) nothing with
    | more fits _ _ => cases fits
    | last few whole batch spent =>
      obtain ⟨others, same⟩ := afterAll_of_isFinished spent.finished
        fun n member => positive n (.tail size member)
      rw [handed_of_ok batch, others, same]
      simp [spent.finished]
    | failed few fails _ _ => cases fails

/-- What batches of some sizes come to when the enumeration of a source fails after its items. Either
the failure has not been met, and all batches have been handed out in full, or one request met it:
the first one whose batch, with the item to get ahead by, goes beyond the items. This request fails,
and the items that were not handed out before it never are, so nothing is lost only if there is no
item. The source is not finished by the failure, but it is after any further request. -/
theorem failure_costs_items {t : Trace ε α} {f : Failure} (fails : t.failure = some f)
    {sizes : List Nat} (positive : ∀ size ∈ sizes, 0 < size) :
    (Answerable t.items.length sizes ∧
        (of t).handedAll (batchesOf sizes) = t.items.take sizes.sum ∧
        ((of t).afterAll (batchesOf sizes)).isFinished = false) ∨
      ∃ before size later, sizes = before ++ size :: later ∧
        Answerable t.items.length before ∧ t.items.length ≤ before.sum + size ∧
        (((of t).afterAll (batchesOf before)).nextBatch size).result = .error f ∧
        (of t).handedAll (batchesOf sizes) = t.items.take before.sum ∧
        ((of t).handedAll (batchesOf sizes) = t.items ↔ t.items = []) ∧
        (((of t).afterAll (batchesOf sizes)).isFinished = true ↔ later ≠ []) := by
  have coming : Coming (of t) t.items (some f) := fails ▸ coming_of t
  rcases answerable_or_split t.items.length sizes with
    answerable | ⟨before, size, later, rfl, answerable, many⟩
  · obtain ⟨all, rest⟩ := handedAll_of_answerable coming positive answerable
    exact .inl ⟨answerable, all, rest.running⟩
  · rw [List.forall_mem_append, List.forall_mem_cons] at positive
    obtain ⟨positiveBefore, positiveSize, positiveLater⟩ := positive
    obtain ⟨all, rest⟩ := handedAll_of_answerable coming positiveBefore answerable
    refine .inr ⟨before, size, later, rfl, answerable, many, ?_⟩
    rw [batchesOf_append, handedAll_append, afterAll_append, handedAll_batchesOf_cons,
      afterAll_batchesOf_cons, all]
    cases batched_nextBatch positiveSize rest with
    | more fits _ _ =>
      rw [List.length_drop] at fits
      omega
    | last _ whole _ _ => cases whole
    | failed few same raised nothing =>
      cases same
      obtain ⟨others, finished⟩ := afterAll_of_nothing nothing positiveLater
      rw [handed_of_error raised, others, List.append_nil, List.append_nil]
      exact ⟨raised, rfl, answerable.take_eq_iff, finished⟩

/-- How a listing breaks off. -/
def brokenOff : Failure := .mk (.other .foreign) []

/-- Three items, after which the enumeration fails. -/
def threeItems : Trace Nat Nat := ⟨(List.range 3).map .inr, some brokenOff⟩

/-- The third item is lost in the second batch, and the source is finished after the third. -/
theorem threeItems_lost :
    threeItems.failure = some brokenOff ∧ (∀ size ∈ [2, 2, 2], 0 < size) ∧
      (∃ (before : List Nat) (size : Nat) (later : List Nat), [2, 2, 2] = before ++ size :: later ∧
        (((of threeItems).afterAll (batchesOf before)).nextBatch size).result = .error brokenOff ∧
        (of threeItems).handedAll (batchesOf [2, 2, 2]) = threeItems.items.take before.sum) ∧
      (of threeItems).handedAll (batchesOf [2, 2, 2]) ≠ threeItems.items ∧
      ((of threeItems).afterAll (batchesOf [2, 2, 2])).isFinished = true := by
  have positive : ∀ size ∈ [2, 2, 2], 0 < size := by decide
  refine ⟨rfl, positive, ?_⟩
  rcases failure_costs_items (t := threeItems) rfl positive with
    ⟨none | small, -⟩ | ⟨before, size, later, split, -, -, failed, handed, lost, -⟩
  · cases none
  · exact absurd small (by decide)
  · refine ⟨⟨before, size, later, split, failed, handed⟩, ?_, by decide⟩
    intro all
    exact absurd (lost.mp all) (by decide)

end SchemaOnRead.SplitSource
