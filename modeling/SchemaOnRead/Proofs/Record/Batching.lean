import SchemaOnRead.Proofs.Record.Lifecycle
import SchemaOnRead.Proofs.Results
import SchemaOnRead.Record.Batch

/-!
# How rows come into batches

Reading an object gives rows, each with the line of its record, and a failure if one ends it
(`RecordSet.reading`). The batches are made from these rows alone: as many rows as a batch holds at a
time and, unless reading fails, the rows left over at the end. Each batch is stored as a whole, under
the line of its last row, and the first one that cannot be stored ends them all (`batches_eq`).
-/

namespace SchemaOnRead

open Cursor

/-- A cursor on a record. -/
def Cursor.on (c : Cursor) (r : Record) : Cursor :=
  { c with state := .positioned, fields := r.fields, line := r.line }

namespace RecordSet

/-! ## Reading -/

/-- The rows of an object as far as they can be read, each with the line of its record, and the
failure that ends them if there is one. -/
structure Reading where
  rows : List (Nat × Row)
  failure : Option Failure

/-- Puts a row in front. -/
def Reading.cons (row : Nat × Row) (rd : Reading) : Reading := { rd with rows := row :: rd.rows }

/-- Reads the rows of records. The first one that cannot be read ends them. -/
def readRows (start : Cursor) (failure : Option Failure) : List Record → Reading
  | [] => ⟨[], failure⟩
  | r :: later =>
    match row (start.on r) with
    | .error f => ⟨[], some f⟩
    | .ok cells => (readRows start failure later).cons (r.line, cells)

/-- Reads the rows of an object. -/
def reading (s : Store) (r : RecordSet) : Reading :=
  match r.cursor with
  | .error f => ⟨[], some f⟩
  | .ok start =>
    match openObject s start.path start.limit with
    | .error f => ⟨[], some f⟩
    | .ok rs => readRows start rs.failure rs.records

/-- If each record's row can be read, there is a row for each record, and reading ends as the records
do. -/
theorem readRows_whole {start : Cursor} {records : List Record} (failure : Option Failure)
    {Reads : Record → Row → Prop}
    (each : ∀ r ∈ records, ∃ cells, row (start.on r) = .ok cells ∧ Reads r cells) :
    (readRows start failure records).failure = failure ∧
      List.Forall₂ (fun r q => Reads r q.2) records (readRows start failure records).rows := by
  induction records with
  | nil => exact ⟨rfl, .nil⟩
  | cons r later ih =>
    obtain ⟨⟨cells, first, reads⟩, others⟩ := List.forall_mem_cons.mp each
    obtain ⟨ends, rows⟩ := ih others
    rw [readRows, first]
    exact ⟨ends, .cons reads rows⟩

/-! ## Batches of a reading -/

/-- Lists of as many items as the size and the items left over; `pending` are the first items of the
next list, last first. A size below one counts as one. -/
def divide {α : Type} (size : Int) : List α → List α → List (List α) × List α
  | pending, [] => ([], pending.reverse)
  | pending, a :: later =>
    if size ≤ (a :: pending).length then
      let (lists, left) := divide size [] later
      ((a :: pending).reverse :: lists, left)
    else divide size (a :: pending) later

/-- The rows that are stored together when some rows are pending: those left over only if reading
does not fail. -/
def Reading.chunks (size : Int) (pending : List (Nat × Row)) (rd : Reading) :
    List (List (Nat × Row)) :=
  let (full, left) := divide size pending rd.rows
  if rd.failure.isSome || left.isEmpty then full else full ++ [left]

/-- The line of the last of some rows. -/
def lastLine (chunk : List (Nat × Row)) : Nat := (chunk.getLast?.map (·.1)).getD 0

/-- Stores rows in batches, which end with a failure if one of them cannot be stored. -/
def storeChunks (path : String) (columns : List Column) (failure : Option Failure) :
    List (List (Nat × Row)) → List (List Row) × Option Failure
  | [] => ([], failure)
  | chunk :: later =>
    match storeRows path (lastLine chunk) columns (chunk.map (·.2)) with
    | .error f => ([], some f)
    | .ok batch =>
      let (batches, failure) := storeChunks path columns failure later
      (batch :: batches, failure)

/-- Dividing keeps all items in order. -/
theorem divide_flatten {α : Type} (size : Int) (pending items : List α) :
    (divide size pending items).1.flatten ++ (divide size pending items).2 =
      pending.reverse ++ items := by
  induction items generalizing pending with
  | nil => simp [divide]
  | cons a later ih =>
    rw [divide]
    split
    · simp only [List.flatten_cons, List.append_assoc, ih]
      simp
    · rw [ih, List.reverse_cons, List.append_assoc]
      rfl

theorem chunks_flatten (size : Int) {rd : Reading} (whole : rd.failure = none) :
    (rd.chunks size []).flatten = rd.rows := by
  have all := divide_flatten size [] rd.rows
  rw [List.reverse_nil, List.nil_append] at all
  rw [Reading.chunks, whole]
  by_cases none : (divide size [] rd.rows).2 = []
  · rw [none, List.append_nil] at all
    simp [none, all]
  · simp [none, all]

/-- The rows that are stored are among those read. -/
theorem mem_of_mem_chunks {size : Int} {rd : Reading} {chunk : List (Nat × Row)} {p : Nat × Row}
    (there : chunk ∈ rd.chunks size []) (member : p ∈ chunk) : p ∈ rd.rows := by
  have all := divide_flatten size [] rd.rows
  rw [List.reverse_nil, List.nil_append] at all
  rw [← all, List.mem_append]
  rw [Reading.chunks] at there
  simp only at there
  split at there
  · exact .inl (List.mem_flatten.mpr ⟨chunk, there, member⟩)
  · rcases List.mem_append.mp there with full | left
    · exact .inl (List.mem_flatten.mpr ⟨chunk, full, member⟩)
    · rw [List.mem_singleton.mp left] at member
      exact .inr member

theorem chunks_cons (size : Int) (pending : List (Nat × Row)) (p : Nat × Row) (rd : Reading) :
    (rd.cons p).chunks size pending =
      if size ≤ (p :: pending).length then (p :: pending).reverse :: rd.chunks size []
      else rd.chunks size (p :: pending) := by
  simp only [Reading.chunks, Reading.cons, divide]
  split
  · simp only
    split <;> rfl
  · rfl

theorem lastLine_reverse (p : Nat × Row) (pending : List (Nat × Row)) :
    lastLine (p :: pending).reverse = p.1 := by
  rw [lastLine, List.getLast?_reverse]
  rfl

/-! ## The batches of an object -/

/-- The row of the record that a cursor is on depends on the record only. -/
theorem row_on {start c : Cursor} (same : Same start c) {r : Record} (state : c.state = .positioned)
    (fields : c.fields = r.fields) (line : c.line = r.line) : row c = row (start.on r) := by
  have getValue (i : Nat) : c.getValue i = (start.on r).getValue i := by
    rw [Cursor.getValue, Cursor.getValue, Cursor.raw, Cursor.raw, Cursor.column, Cursor.column]
    simp only [Cursor.on, state, fields, line, same.path, same.columns, same.partitionValues]
    rfl
  rw [row, row, same.columns]
  simp only [getValue]
  rfl

/-- A move that finds no record leaves the line as it is. -/
theorem line_advance {s : Store} {c : Cursor} (none : (c.advance s).1 ≠ .ok true) :
    (c.advance s).2.line = c.line := by
  have step (c : Cursor) (rs : Records) (none : (c.step rs).1 ≠ .ok true) :
      (c.step rs).2.line = c.line := by
    rw [Cursor.step] at none ⊢
    split at none
    · exact absurd rfl none
    · simp only
      split <;> rfl
  rw [advance] at none ⊢
  split at none
  · rfl
  · rfl
  · simp only at none ⊢
    split at none
    · rfl
    · exact step _ _ none
  · split at none
    · exact step c _ none
    · rfl

variable {s : Store} {start c : Cursor} {count : Nat} {rs : Records}

/-- No more records are found than there are. -/
theorem count_le (opened : openObject s start.path start.limit = .ok rs)
    (phase : Phase s start count c) (going : ¬ c.IsOver) : count ≤ rs.records.length := by
  cases phase with
  | unstarted => exact Nat.zero_le _
  | positioned opened' here _ _ _ _ _ =>
    cases opened.symm.trans opened'
    exact (List.getElem?_eq_some_iff.mp here).1
  | exhausted _ _ state _ _ _ => exact absurd (.inl state) going
  | closed state _ _ => exact absurd (.inr state) going

/-- What a move comes to for reading rows, when some records have been found: it is on the next
record, whose row it reads, or there is none and it ends as the records do. -/
inductive Step (s : Store) (start : Cursor) (rs : Records) (count line : Nat) :
    Result Bool × Cursor → Prop where
  | record {r : Record} {d : Cursor}
      (rest : rs.records.drop count = r :: rs.records.drop (count + 1))
      (phase : Phase s start (count + 1) d) (going : ¬ d.IsOver) (here : d.line = r.line)
      (read : row d = row (start.on r)) : Step s start rs count line (.ok true, d)
  | failure {f : Failure} {d : Cursor} (nothing : rs.records.drop count = [])
      (fails : rs.failure = some f) : Step s start rs count line (.error f, d)
  | finished {d : Cursor} (nothing : rs.records.drop count = []) (whole : rs.failure = none)
      (here : d.line = line) : Step s start rs count line (.ok false, d)

theorem step_advance (fresh : Fresh start) (opened : openObject s start.path start.limit = .ok rs)
    (phase : Phase s start count c) (going : ¬ c.IsOver) (same : Same start c) :
    Step s start rs count c.line (c.advance s) := by
  have moved := moved_advance fresh phase going
  have result := moved.result
  have still := line_advance (s := s) (c := c)
  have same := same.trans (same_advance s c)
  generalize c.advance s = m at *
  obtain ⟨answer, d⟩ := m
  simp only [opened, outcome, Except.bind] at result still same
  by_cases more : count < rs.records.length
  · rw [if_pos more] at result
    subst result
    obtain ⟨phase, onRecord⟩ := moved.found rfl
    obtain ⟨rs', r, opened', here, -, line, fields⟩ := moved.record rfl
    cases opened.symm.trans opened'
    have rest : rs.records.drop count = r :: rs.records.drop (count + 1) := by
      obtain ⟨_, rfl⟩ := List.getElem?_eq_some_iff.mp here
      exact List.drop_eq_getElem_cons more
    have going : ¬ d.IsOver := by
      have state : d.state = .positioned := onRecord
      simp [IsOver, state]
    exact .record rest phase going line (row_on same onRecord fields line)
  · have nothing : rs.records.drop count = [] := List.drop_eq_nil_iff.mpr (Nat.not_lt.mp more)
    rw [if_neg more] at result
    cases fails : rs.failure with
    | some f =>
      simp only [fails] at result
      subst result
      exact .failure nothing fails
    | none =>
      simp only [fails] at result
      subst result
      exact .finished nothing fails (still (by simp))

/-- The batches that are still to come when a cursor has read some records, by induction on the moves
left. The pending rows are those of the records read last, so the line of the last one of them is
where the cursor is. -/
theorem batchesFrom_eq (fresh : Fresh start)
    (opened : openObject s start.path start.limit = .ok rs) (size : Int)
    (phase : Phase s start count c) (going : ¬ c.IsOver) (same : Same start c)
    (pending : List (Nat × Row)) (line : ∀ p ∈ pending.head?, p.1 = c.line) (fuel : Nat)
    (enough : rs.records.length < fuel + count) :
    let b := batchesFrom s size fuel (pending.map (·.2)) (c.advance s)
    let rd := readRows start rs.failure (rs.records.drop count)
    (b.batches, b.failure) =
      storeChunks start.path start.columns rd.failure (rd.chunks size pending) := by
  induction fuel generalizing c count pending with
  | zero =>
    have most := count_le opened phase going
    omega
  | succ fuel ih =>
    have step := step_advance fresh opened phase going same
    have same := same.trans (same_advance s c)
    generalize c.advance s = m at *
    cases step with
    | @record r d rest phase going here read =>
      simp only [rest, readRows, batchesFrom, read]
      cases row (start.on r) with
      | error f => rfl
      | ok cells =>
        simp only [chunks_cons, List.length_cons, List.length_map]
        split
        · have further := ih phase going same [] (by simp) (by omega)
          rw [storeChunks, lastLine_reverse, same.path, same.columns, here, List.map_reverse,
            List.map_cons]
          cases storeRows start.path r.line start.columns (cells :: pending.map (·.2)).reverse with
          | error f => rfl
          | ok batch => exact congrArg (fun b => (batch :: b.1, b.2)) further
        · exact ih phase going same ((r.line, cells) :: pending) (by simp [here]) (by omega)
    | failure nothing fails =>
      simp only [nothing, readRows, fails]
      rfl
    | @finished d nothing whole here =>
      simp only [nothing, readRows, whole, batchesFrom]
      cases pending with
      | nil => rfl
      | cons p pending =>
        have chunks : (⟨[], none⟩ : Reading).chunks size (p :: pending) = [(p :: pending).reverse] := by
          simp [Reading.chunks, divide]
        rw [chunks, storeChunks, lastLine_reverse, line p rfl, ← here, same.path, same.columns,
          List.map_reverse]
        cases storeRows start.path d.line start.columns ((p :: pending).map (·.2)).reverse <;> rfl

/-- The batches of an object are those of the rows that can be read. -/
theorem batches_eq (s : Store) (r : RecordSet) (size : Int) :
    ((r.batches s size).batches, (r.batches s size).failure) =
      storeChunks r.path r.columns (r.reading s).failure ((r.reading s).chunks size []) := by
  rw [batches, reading]
  cases made : r.cursor with
  | error f => rfl
  | ok start =>
    obtain ⟨fresh, path, limit, columns⟩ := fresh_of made
    have going : ¬ start.IsOver := by simp [IsOver, fresh.state]
    cases opened : openObject s start.path start.limit with
    | error f =>
      have failed : (start.advance s).1 = .error f := by
        rw [(moved_advance fresh .unstarted going).result, opened]
        rfl
      simp only [opened]
      generalize start.advance s = m at *
      obtain ⟨answer, d⟩ := m
      simp only at failed
      subst failed
      rw [batchesFrom]
      rfl
    | ok rs =>
      have enough : rs.records.length < movesLeft (start.advance s).2 := by
        simp only [advance, fresh.state, opened, Cursor.step]
        cases rs.records <;> simp [movesLeft]
      have all := batchesFrom_eq fresh opened size .unstarted going (.refl start) []
        (by simp) (movesLeft (start.advance s).2) (by omega)
      rw [path, columns] at all
      simp only [opened]
      exact all

end RecordSet

end SchemaOnRead
