import SchemaOnRead.Proofs.Record.Cursors
import SchemaOnRead.Proofs.Record.Lines

/-!
# The life of a cursor

Whatever is asked of a cursor, in whatever order, its state only moves forward, its object is opened
at most once, and its stream is released as soon as it is exhausted or closed. Each move that finds a
record brings the next one of the object (`lifecycle`); after a move that finds none, after a failure
and after closing, nothing more can be found or read.
-/

namespace SchemaOnRead

namespace Records

/-- Records that end without a failure are those of lines that nothing stops. -/
theorem ofLinesFrom_whole {path : String} {limit : Int} {ls : Lines} {count : Nat} {b : Buffer}
    {lines : List Line} (whole : (ofLinesFrom path limit ls count b lines).failure = none) :
    ls.stop = none ∧ (ofLinesFrom path limit ls count b lines).bytesRead = ls.bytesRead := by
  induction lines generalizing count b with
  | nil =>
    rw [ofLinesFrom, ending] at whole
    cases stop : ls.stop with
    | some stop' => simp [stop] at whole
    | none => exact ⟨rfl, rfl⟩
  | cons l rest ih =>
    rw [ofLinesFrom] at whole ⊢
    cases added : b.add (count + 1) l.text with
    | none =>
      simp only [added] at whole ⊢
      exact ih whole
    | some b =>
      simp only [added] at whole ⊢
      cases left : (drain path (b.text.length + 1) b).rest.bind (Buffer.within path limit) with
      | error f => simp [left, prepend] at whole
      | ok b =>
        simp only [left] at whole ⊢
        exact ih whole

/-- Records that end without a failure are those of intact contents, all bytes of which have been
read. -/
theorem bytesRead_ofContents {path : String} {limit : Int} {c : Contents}
    (whole : (ofContents path limit c).failure = none) :
    c.failure = none ∧ (ofContents path limit c).bytesRead = c.bytes.length := by
  rw [ofContents] at whole ⊢
  obtain ⟨unstopped, all⟩ := ofLinesFrom_whole whole
  obtain ⟨intact, length⟩ := Lines.bytesRead_ofContents unstopped
  exact ⟨intact, all.trans length⟩

end Records

namespace Cursor

/-! ## Calls -/

/-- The ways to read a field. -/
inductive Accessor where
  | isNull
  | boolean
  | integer
  | double
  | text
  | object
  | value
  deriving DecidableEq, Repr

/-- What reading a field gives. -/
def Accessor.Answer : Accessor → Type
  | .isNull => Bool
  | .boolean => Bool
  | .integer => Int
  | .double => Binary64
  | .text => String
  | .object => Cell
  | .value => Option Cell

/-- Whether columns of a type can be read in a way: only some have structured values. -/
def Accessor.supports (type : ColumnType) : Accessor → Bool
  | .object => (CellPlace.objectReader type).isSome
  | _ => true

/-- Reads a field in a way. -/
def access (c : Cursor) (field : Int) : (a : Accessor) → Result a.Answer
  | .isNull => c.isNull field
  | .boolean => c.getBoolean field
  | .integer => c.getInteger field
  | .double => c.getDouble field
  | .text => c.getText field
  | .object => c.getObject field
  | .value => c.getValue field

/-- What can be asked of a cursor: to move, to close, or to read a field. -/
inductive Call where
  | advance
  | close
  | access (a : Accessor) (field : Int)
  deriving DecidableEq, Repr

/-- The cursor after a call. Reading a field leaves it as it is. -/
def after (s : Store) (c : Cursor) : Call → Cursor
  | .advance => (c.advance s).2
  | .close => c.close
  | .access .. => c

/-- The cursor after calls one after another. -/
def afterAll (s : Store) (c : Cursor) : List Call → Cursor
  | [] => c
  | call :: later => (c.after s call).afterAll s later

/-- Whether a call moves the cursor to a record. -/
def moves (s : Store) (c : Cursor) : Call → Bool
  | .advance => (c.advance s).1.toOption == some true
  | _ => false

/-- How many of some calls move the cursor to a record. -/
def movesAll (s : Store) (c : Cursor) : List Call → Nat
  | [] => 0
  | call :: later => (if c.moves s call then 1 else 0) + (c.after s call).movesAll s later

/-- Whether a call ends the life of a cursor: it closes it, or is a move that finds no record or
fails. -/
def Ends (s : Store) (c : Cursor) (call : Call) : Prop :=
  call = .close ∨ call = .advance ∧ (c.advance s).1 ≠ .ok true

/-- Whether one of some calls ends the life of a cursor. -/
def Ended (s : Store) (c : Cursor) (calls : List Call) : Prop :=
  ∃ before call later, calls = before ++ call :: later ∧ (c.afterAll s before).Ends s call

/-- Whether a cursor is exhausted or closed. -/
def IsOver (c : Cursor) : Prop := c.state = .exhausted ∨ c.state = .closed

/-- What a move comes to after `count` moves to records: it finds a record as long as there is one;
then it finds none, or fails as the records do. A move fails if the object cannot be opened. -/
def outcome (opened : Result Records) (count : Nat) : Result Bool :=
  opened.bind fun rs => if count < rs.records.length then .ok true
    else match rs.failure with
      | some f => .error f
      | none => .ok false

/-! ## One move -/

/-- Where a cursor is after `count` moves to records: on the last record that it moved to, or without
a stream. Before its first move it is as it was made. -/
inductive Phase (s : Store) (start : Cursor) : Nat → Cursor → Prop where
  | unstarted : Phase s start 0 start
  | positioned {count : Nat} {rs : Records} {r : Record} {c : Cursor}
      (opened : openObject s start.path start.limit = .ok rs)
      (here : rs.records[count]? = some r) (state : c.state = .positioned)
      (ahead : c.ahead = some { rs with records := rs.records.drop (count + 1) })
      (fields : c.fields = r.fields) (line : c.line = r.line) (once : c.opens = 1) :
      Phase s start (count + 1) c
  | exhausted {count : Nat} {rs : Records} {c : Cursor}
      (opened : openObject s start.path start.limit = .ok rs) (whole : rs.failure = none)
      (state : c.state = .exhausted) (released : c.ahead = none)
      (bytes : c.completedBytes = rs.bytesRead) (once : c.opens = 1) : Phase s start count c
  | closed {count : Nat} {c : Cursor} (state : c.state = .closed) (released : c.ahead = none)
      (once : c.opens ≤ 1) : Phase s start count c

/-- What a move after `count` moves to records leads to. -/
structure Moved (s : Store) (start : Cursor) (count : Nat) (m : Result Bool × Cursor) : Prop where
  result : m.1 = outcome (openObject s start.path start.limit) count
  found : m.1 = .ok true → Phase s start (count + 1) m.2 ∧ m.2.state = .positioned
  stopped : m.1 ≠ .ok true → Phase s start count m.2 ∧ m.2.IsOver

variable {s : Store} {start c : Cursor} {count : Nat}

/-- Taking a record from an open stream. -/
theorem moved_step {rs : Records} (opened : openObject s start.path start.limit = .ok rs)
    (once : c.opens = 1) :
    Moved s start count (c.step { rs with records := rs.records.drop count }) := by
  cases left : rs.records.drop count with
  | cons r later =>
    have here : rs.records[count]? = some r := by
      have first : (rs.records.drop count)[0]? = rs.records[count]? := List.getElem?_drop
      rw [left] at first
      exact first.symm
    have others : rs.records.drop (count + 1) = later := by
      rw [← List.tail_drop, left, List.tail_cons]
    have more : count < rs.records.length := (List.getElem?_eq_some_iff.mp here).1
    rw [step]
    refine ⟨?_, fun _ => ⟨?_, rfl⟩, fun none => absurd rfl none⟩
    · simp only [opened, outcome, Except.bind, if_pos more]
    · exact .positioned opened here rfl (by rw [others]) rfl rfl once
  | nil =>
    have none : ¬ count < rs.records.length := Nat.not_lt.mpr (List.drop_eq_nil_iff.mp left)
    rw [step]
    cases fails : rs.failure with
    | some f =>
      simp only
      refine ⟨?_, fun found => (by cases found), fun _ => ⟨?_, .inr rfl⟩⟩
      · simp only [opened, outcome, Except.bind, if_neg none, fails]
      · exact .closed rfl rfl (Nat.le_of_eq once)
    | none =>
      simp only
      refine ⟨?_, fun found => (by cases found), fun _ => ⟨?_, .inl rfl⟩⟩
      · simp only [opened, outcome, Except.bind, if_neg none, fails]
      · exact .exhausted opened fails rfl rfl rfl once

/-- A cursor that has not been used. -/
structure Fresh (start : Cursor) : Prop where
  state : start.state = .unstarted
  ahead : start.ahead = none
  opens : start.opens = 0

theorem fresh_of {path : String} {columns : List Column} {partition : Option PartitionDefinition}
    {totalBytes : Option Int} {limit : Int}
    (made : Cursor.of path columns partition totalBytes limit = .ok start) :
    Fresh start ∧ start.path = path ∧ start.limit = limit ∧ start.columns = columns := by
  obtain ⟨values, rfl, -⟩ := of_eq_new made
  exact ⟨⟨rfl, rfl, rfl⟩, rfl, rfl, rfl⟩

/-- A move of a cursor that is neither exhausted nor closed. -/
theorem moved_advance (fresh : Fresh start) (phase : Phase s start count c) (going : ¬ c.IsOver) :
    Moved s start count (c.advance s) := by
  cases phase with
  | unstarted =>
    rw [advance, fresh.state]
    simp only
    have once : start.opens + 1 = 1 := by rw [fresh.opens]
    cases opened : openObject s start.path start.limit with
    | error f =>
      simp only
      refine ⟨?_, fun found => (by cases found), fun _ => ⟨.closed rfl rfl ?_, .inr rfl⟩⟩
      · rw [opened]
        rfl
      · exact Nat.le_of_eq once
    | ok rs => exact @moved_step s start _ 0 rs opened once
  | positioned opened here state ahead fields line once =>
    rw [advance, state]
    simp only [ahead]
    exact moved_step opened once
  | exhausted _ _ state _ _ _ => exact absurd (.inl state) going
  | closed state _ _ => exact absurd (.inr state) going

/-- A cursor that is exhausted or closed does not move. -/
theorem advance_of_isOver (isOver : c.IsOver) : c.advance s = (.ok false, c) := by
  rw [advance]
  rcases isOver with state | state <;> rw [state]

/-! ## Runs -/

theorem Phase.opens_le (fresh : Fresh start) (phase : Phase s start count c) : c.opens ≤ 1 := by
  cases phase with
  | unstarted =>
    rw [fresh.opens]
    exact Nat.zero_le 1
  | positioned _ _ _ _ _ _ once => exact Nat.le_of_eq once
  | exhausted _ _ _ _ _ once => exact Nat.le_of_eq once
  | closed _ _ once => exact once

theorem moves_advance_iff : c.moves s .advance = true ↔ (c.advance s).1 = .ok true := by
  rw [moves]
  cases (c.advance s).1 with
  | error f => simp [Except.toOption]
  | ok found => simp [Except.toOption]

/-- A call leads on in the life of a cursor. -/
theorem phase_after (fresh : Fresh start) (phase : Phase s start count c) (call : Call) :
    Phase s start (count + if c.moves s call then 1 else 0) (c.after s call) := by
  cases call with
  | advance =>
    rw [after]
    by_cases isOver : c.IsOver
    · have still : ¬ c.moves s .advance = true := by
        rw [moves_advance_iff, advance_of_isOver isOver]
        exact fun found => nomatch found
      rw [if_neg still, advance_of_isOver isOver]
      exact phase
    · have moved := moved_advance fresh phase isOver
      -- the count goes up exactly if the move finds a record
      by_cases found : (c.advance s).1 = .ok true
      · rw [if_pos (moves_advance_iff.mpr found)]
        exact (moved.found found).1
      · rw [if_neg (mt moves_advance_iff.mp found)]
        exact (moved.stopped found).1
  | close =>
    have once := phase.opens_le fresh
    exact .closed rfl rfl once
  | access a field => exact phase

theorem phase_afterAll (fresh : Fresh start) (phase : Phase s start count c) (calls : List Call) :
    Phase s start (count + c.movesAll s calls) (c.afterAll s calls) := by
  induction calls generalizing count c with
  | nil => exact phase
  | cons call later ih =>
    rw [movesAll, afterAll, ← Nat.add_assoc]
    exact ih (phase_after fresh phase call)

theorem isOver_after (fresh : Fresh start) (phase : Phase s start count c) (call : Call) :
    (c.after s call).IsOver ↔ c.IsOver ∨ c.Ends s call := by
  cases call with
  | advance =>
    by_cases isOver : c.IsOver
    · simp only [after, advance_of_isOver isOver, isOver, true_or]
    · have moved := moved_advance fresh phase isOver
      by_cases found : (c.advance s).1 = .ok true
      · have going : ¬ (c.advance s).2.IsOver := by
          rw [IsOver, (moved.found found).2]
          simp
        simp [after, isOver, going, Ends, found]
      · simp [after, (moved.stopped found).2, Ends, found]
  | close => simp [after, close, release, IsOver, Ends]
  | access a field => simp [after, Ends]

theorem ended_cons {call : Call} {later : List Call} :
    c.Ended s (call :: later) ↔ c.Ends s call ∨ (c.after s call).Ended s later := by
  constructor
  · rintro ⟨before, last, rest, split, ends⟩
    cases before with
    | nil =>
      cases split
      exact .inl ends
    | cons first before =>
      cases split
      exact .inr ⟨before, last, rest, rfl, ends⟩
  · rintro (ends | ⟨before, last, rest, rfl, ends⟩)
    · exact ⟨[], call, later, rfl, ends⟩
    · exact ⟨call :: before, last, rest, rfl, ends⟩

/-- A cursor is over exactly if a call has ended its life. -/
theorem isOver_afterAll (fresh : Fresh start) (phase : Phase s start count c) (calls : List Call) :
    (c.afterAll s calls).IsOver ↔ c.IsOver ∨ c.Ended s calls := by
  induction calls generalizing count c with
  | nil => simp [afterAll, Ended]
  | cons call later ih =>
    rw [afterAll, ih (phase_after fresh phase call), isOver_after fresh phase, ended_cons, or_assoc]

/-- No call leads back in the order of the states. -/
theorem rank_le_after (fresh : Fresh start) (phase : Phase s start count c) (call : Call) :
    c.state.rank ≤ (c.after s call).state.rank := by
  cases call with
  | advance =>
    rw [after]
    by_cases isOver : c.IsOver
    · simp [advance_of_isOver isOver]
    · have before : c.state.rank ≤ 1 := by
        cases phase with
        | unstarted => simp [fresh.state, CursorState.rank]
        | positioned _ _ state _ _ _ _ => simp [state, CursorState.rank]
        | exhausted _ _ state _ _ _ => exact absurd (.inl state) isOver
        | closed state _ _ => exact absurd (.inr state) isOver
      have moved := moved_advance fresh phase isOver
      refine Nat.le_trans before ?_
      by_cases found : (c.advance s).1 = .ok true
      · simp [(moved.found found).2, CursorState.rank]
      · rcases (moved.stopped found).2 with state | state <;> simp [state, CursorState.rank]
  | close =>
    change c.state.rank ≤ CursorState.closed.rank
    cases c.state <;> decide
  | access a field => exact Nat.le_refl _

theorem rank_le_afterAll (fresh : Fresh start) (phase : Phase s start count c) (calls : List Call) :
    c.state.rank ≤ (c.afterAll s calls).state.rank := by
  induction calls generalizing count c with
  | nil => exact Nat.le_refl _
  | cons call later ih =>
    exact Nat.le_trans (rank_le_after fresh phase call) (ih (phase_after fresh phase call))

/-- Once a cursor has begun, it does not look into a store again. -/
theorem advance_of_hasStarted (fresh : Fresh start) (phase : Phase s start count c)
    (started : c.hasStarted = true) (s' : Store) : c.advance s' = c.advance s := by
  rw [advance, advance]
  cases state : c.state with
  | unstarted =>
    cases phase with
    | unstarted => simp [hasStarted, fresh.opens] at started
    | positioned _ _ state' _ _ _ _ => cases state.symm.trans state'
    | exhausted _ _ state' _ _ _ => cases state.symm.trans state'
    | closed state' _ _ => cases state.symm.trans state'
  | positioned | exhausted | closed => rfl

theorem same_after (s : Store) (c : Cursor) (call : Call) : Same c (c.after s call) := by
  cases call with
  | advance => exact same_advance s c
  | close => exact ⟨rfl, rfl, rfl⟩
  | access a field => exact .refl c

theorem same_afterAll (s : Store) (c : Cursor) (calls : List Call) : Same c (c.afterAll s calls) := by
  induction calls generalizing c with
  | nil => exact .refl c
  | cons call later ih => exact (same_after s c call).trans (ih _)

/-! ## Reading fields -/

/-- Without a record there is nothing to read, in whatever way. -/
theorem access_of_not_positioned (off : c.state ≠ .positioned) {i : Nat} {column : Column}
    (there : c.columns[i]? = some column) {a : Accessor} (supported : a.supports column.type = true) :
    c.access i a = .error (.mk (.notPositioned c.path c.state.name) []) := by
  have nothing : c.raw i = .error (.mk (.notPositioned c.path c.state.name) []) := by
    rw [raw, column_of_getElem? there]
    simp only [bind, Except.bind, ne_eq, off, not_false_eq_true, if_true]
    rfl
  have absent {α : Type} (read : CellPlace → Value → Result α) :
      c.present i read = .error (.mk (.notPositioned c.path c.state.name) []) := by
    rw [present, nothing]
    rfl
  cases a with
  | isNull =>
    rw [access, isNull, nothing]
    rfl
  | boolean =>
    rw [access, getBoolean]
    exact absent _
  | integer => exact absent _
  | double =>
    rw [access, getDouble]
    exact absent _
  | text => exact absent _
  | object =>
    obtain ⟨read, reads⟩ := Option.isSome_iff_exists.mp supported
    rw [access, getObject, column_of_getElem? there]
    simp only [bind, Except.bind, reads]
    exact absent _
  | value =>
    rw [access, getValue, nothing]
    rfl

/-! ## The life of a cursor -/

/-- The records of an object that can be opened are those of its contents. -/
theorem openObject_eq_ok {path : String} {limit : Int} {rs : Records}
    (opened : openObject s path limit = .ok rs) : ∃ bytes, s.read path = .ok bytes ∧
      rs = Records.ofContents path limit (.ofObject path bytes.toList) := by
  rw [openObject] at opened
  cases read : s.read path with
  | error f =>
    rw [read] at opened
    cases opened
  | ok bytes =>
    rw [read] at opened
    exact ⟨bytes, rfl, (Except.ok.inj opened).symm⟩

/-- A move that finds a record is on the one after those that were found before. -/
theorem Moved.record {m : Result Bool × Cursor} (moved : Moved s start count m)
    (found : m.1 = .ok true) : ∃ rs r, openObject s start.path start.limit = .ok rs ∧
      rs.records[count]? = some r ∧ m.2.state = .positioned ∧ m.2.line = r.line ∧
      m.2.fields = r.fields := by
  obtain ⟨phase, onRecord⟩ := moved.found found
  cases phase with
  | positioned opened here state ahead fields line once =>
    exact ⟨_, _, opened, here, state, line, fields⟩
  | exhausted _ _ state _ _ _ => cases onRecord.symm.trans state
  | closed state _ _ => cases onRecord.symm.trans state

/-- No stream is open when a cursor is exhausted or closed. -/
theorem Phase.released (fresh : Fresh start) (phase : Phase s start count c) (isOver : c.IsOver) :
    c.ahead = none := by
  cases phase with
  | unstarted => exact fresh.ahead
  | positioned _ _ state _ _ _ _ => simp [IsOver, state] at isOver
  | exhausted _ _ _ released _ _ => exact released
  | closed _ released _ => exact released

/-- A cursor that is exhausted has read all bytes of the contents, which are intact. -/
theorem Phase.bytesRead (fresh : Fresh start) (phase : Phase s start count c)
    (exhausted : c.state = .exhausted) : ∃ bytes, s.read start.path = .ok bytes ∧
      (Contents.ofObject start.path bytes.toList).failure = none ∧
      c.completedBytes = (Contents.ofObject start.path bytes.toList).bytes.length := by
  cases phase with
  | unstarted => simp [fresh.state] at exhausted
  | positioned _ _ state _ _ _ _ => simp [state] at exhausted
  | exhausted opened whole _ _ bytes _ =>
    obtain ⟨stored, read, same⟩ := openObject_eq_ok opened
    rw [same] at whole bytes
    obtain ⟨intact, all⟩ := Records.bytesRead_ofContents whole
    exact ⟨stored, read, intact, bytes.trans all⟩
  | closed state _ _ => simp [state] at exhausted

/-- What holds of a cursor after any calls. Unless its life has ended, a move comes to what the records
of the object say after those that were found; if it finds one, the cursor is on the next record, with
its line and its fields. When its life has ended, it finds no record, and no way to read a field that
the column's type has succeeds. Its state never goes back, whatever is called, its object is opened at
most once, and a store is not looked into again; no stream is open when it is exhausted or closed, and
when it is exhausted, it has read all bytes of the contents. -/
theorem lifecycle {path : String} {columns : List Column} {partition : Option PartitionDefinition}
    {totalBytes : Option Int} {limit : Int}
    (made : Cursor.of path columns partition totalBytes limit = .ok start) {calls : List Call}
    (reached : start.afterAll s calls = c) :
    (¬ start.Ended s calls →
        (c.advance s).1 = outcome (openObject s path limit) (start.movesAll s calls)) ∧
      ((c.advance s).1 = .ok true → ∃ rs r, openObject s path limit = .ok rs ∧
        rs.records[start.movesAll s calls]? = some r ∧ (c.advance s).2.state = .positioned ∧
        (c.advance s).2.line = r.line ∧ (c.advance s).2.fields = r.fields) ∧
      (start.Ended s calls → (c.advance s).1 = .ok false ∧
        ∀ (a : Accessor) (i : Nat) (column : Column), columns[i]? = some column →
          a.supports column.type = true → ∃ f, c.access i a = .error f ∧ f.report.kind = .runtime) ∧
      (∀ later, c.state.rank ≤ (c.afterAll s later).state.rank) ∧
      c.opens ≤ 1 ∧ (c.hasStarted = true → ∀ s', c.advance s' = c.advance s) ∧
      (c.state = .exhausted ∨ c.state = .closed → c.ahead = none) ∧
      (c.state = .exhausted → ∃ bytes, s.read path = .ok bytes ∧
        (Contents.ofObject path bytes.toList).failure = none ∧
        c.completedBytes = (Contents.ofObject path bytes.toList).bytes.length) := by
  obtain ⟨fresh, rfl, rfl, rfl⟩ := fresh_of made
  have notOver : ¬ start.IsOver := by
    rw [IsOver, fresh.state]
    simp
  have ended := isOver_afterAll fresh (.unstarted (s := s)) calls
  have same := same_afterAll s start calls
  have phase := phase_afterAll fresh (.unstarted (s := s)) calls
  rw [Nat.zero_add] at phase
  rw [reached] at ended same phase
  refine ⟨?_, ?_, ?_, rank_le_afterAll fresh phase, phase.opens_le fresh,
    advance_of_hasStarted fresh phase, phase.released fresh, phase.bytesRead fresh⟩
  · intro going
    have notOver : ¬ c.IsOver := by
      rw [ended]
      rintro (isOver | hasEnded)
      · exact notOver isOver
      · exact going hasEnded
    exact (moved_advance fresh phase notOver).result
  · intro found
    have notOver : ¬ c.IsOver := by
      intro isOver
      rw [advance_of_isOver isOver] at found
      cases found
    exact (moved_advance fresh phase notOver).record found
  · intro hasEnded
    have isOver := ended.mpr (.inr hasEnded)
    refine ⟨by rw [advance_of_isOver isOver], fun a i column there supported => ?_⟩
    have off : c.state ≠ .positioned := by
      rcases isOver with state | state <;> simp [state]
    rw [← same.columns] at there
    exact ⟨_, access_of_not_positioned off there supported, rfl⟩

/-- A store with an object of two records. -/
def twoRecords : Store :=
  { tree := .directory [("a.json", .file (String.toUTF8 "\x7b\"a\": 1\x7d\n\x7b\"a\": 2\x7d\n"))]
    proper := by decide +kernel }

/-- A cursor over the object. -/
def twoRecordsCursor : Cursor :=
  { path := "/a.json", columns := [{ name := "a", type := .integer }], limit := 64
    totalBytes := none, partitionValues := [] }

/-- The second move finds the second record, although a field is read between the moves; after closing,
no field can be read. -/
theorem lifecycle_twoRecords :
    Cursor.of "/a.json" twoRecordsCursor.columns none none 64 = .ok twoRecordsCursor ∧
      (∃ c, twoRecordsCursor.afterAll twoRecords [.advance, .access .value 0] = c ∧ ∃ rs r,
        openObject twoRecords "/a.json" 64 = .ok rs ∧ rs.records[1]? = some r ∧
          (c.advance twoRecords).2.line = r.line ∧ (c.advance twoRecords).2.fields = r.fields) ∧
      ∃ c, twoRecordsCursor.afterAll twoRecords [.advance, .close] = c ∧
        ∃ f, c.access 0 .integer = .error f ∧ f.report.kind = .runtime := by
  have made : Cursor.of "/a.json" twoRecordsCursor.columns none none 64 = .ok twoRecordsCursor := rfl
  have one : twoRecordsCursor.movesAll twoRecords [.advance, .access .value 0] = 1 := by
    decide +kernel
  have found : ((twoRecordsCursor.afterAll twoRecords [.advance, .access .value 0]).advance
      twoRecords).1.toOption = some true := by decide +kernel
  refine ⟨made, ⟨_, rfl, ?_⟩, _, rfl, ?_⟩
  · have reached : twoRecordsCursor.afterAll twoRecords [.advance, .access .value 0] = _ := rfl
    obtain ⟨-, exposes, -⟩ := lifecycle made reached
    obtain ⟨rs, r, opened, here, -, line, fields⟩ := exposes (ok_of_toOption found)
    rw [one] at here
    exact ⟨rs, r, opened, here, line, fields⟩
  · have reached : twoRecordsCursor.afterAll twoRecords [.advance, .close] = _ := rfl
    obtain ⟨-, -, afterEnd, -⟩ := lifecycle made reached
    exact (afterEnd ⟨[.advance], .close, [], rfl, .inl rfl⟩).2 .integer 0 _ rfl rfl

end Cursor

end SchemaOnRead
