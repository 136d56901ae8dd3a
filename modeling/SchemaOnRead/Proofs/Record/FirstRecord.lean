import SchemaOnRead.Proofs.Json.Continuation
import SchemaOnRead.Proofs.Record.Lifecycle
import SchemaOnRead.Proofs.Record.WholeText

/-!
# The first record of an object

The first record is the object that the text begins with, blanks aside, whatever comes after it
(`ofContents_beginsWith`). The limit matters only if that object goes on in another line: what stands
on one line is decoded before its length is compared. A new cursor moves to that record
(`Cursor.advance_first`).
-/

namespace SchemaOnRead

open Text

namespace Text

theorem stripLeft_append_of_blank {before : List Char} (blank : stripLeft before = [])
    (rest : List Char) : stripLeft (before ++ rest) = stripLeft rest := by
  simp only [stripLeft] at blank ⊢
  simp [List.dropWhile_append, blank]

theorem stripLeft_append_of_nonblank {cs : List Char} (nonblank : stripLeft cs ≠ [])
    (rest : List Char) : stripLeft (cs ++ rest) = stripLeft cs ++ rest := by
  rw [stripLeft, List.dropWhile_append, if_neg (by simpa [stripLeft] using nonblank)]
  rfl

/-- What is dropped at the end of a text are blanks after it. -/
theorem exists_stripRight_append (cs : List Char) : ∃ blanks, cs = stripRight cs ++ blanks := by
  refine ⟨(cs.reverse.takeWhile isBlank).reverse, ?_⟩
  rw [stripRight, ← List.reverse_append, List.takeWhile_append_dropWhile, List.reverse_reverse]

end Text

namespace Records

open WholeText

/-- Records begin with one that has some fields. -/
def BeginsWith (rs : Records) (fields : Value.Fields) : Prop :=
  ∃ r later, rs.records = r :: later ∧ r.fields = fields

theorem beginsWith_prepend (number : Nat) (fields : Value.Fields) (found : List (Nat × Value.Fields))
    (bytesRead : Nat) (rs : Records) :
    (prepend ((number, fields) :: found) bytesRead rs).BeginsWith fields := ⟨_, _, rfl, rfl⟩

/-- A buffer that has taken a line in is not blank: it was waiting with some text, or the line is not
blank. -/
theorem nonblank_of_add {b next : Buffer} {number : Nat} {text : List Char}
    (added : b.add number text = some next) (waiting : Waiting b.text) : stripLeft next.text ≠ [] := by
  intro blank
  rw [Buffer.add] at added
  by_cases empty : b.text = []
  · by_cases all : text.all isBlank = true
    · simp [empty, all] at added
    · simp only [empty, all, List.isEmpty_nil, if_true] at added
      cases added
      apply all
      simpa [stripLeft] using blank
  · have some : stripLeft b.text ≠ [] := waiting.1.symm ▸ empty
    rw [if_neg (by simpa using empty)] at added
    cases added
    rw [stripLeft_append_of_nonblank some] at blank
    simp [some] at blank

section

variable {path : String} {limit : Int} {object : List Char} {fields : Value.Fields}

/-- A buffer that begins with an object gives it, whatever stands after it and whatever the limit. -/
theorem beginsWith_of_complete {ls : Lines} {count : Nat} {b next : Buffer} {l : Line} {rest : List Line}
    {after : List Char} (added : b.add (count + 1) l.text = some next)
    (nonblank : stripLeft next.text ≠ [])
    (read : Json.value (stripLeft next.text) = .ok (.object fields, after)) :
    (ofLinesFrom path limit ls count b (l :: rest)).BeginsWith fields := by
  rw [ofLinesFrom, added]
  simp only [drain_of_object path next.text.length nonblank read, Drained.cons]
  split
  · exact beginsWith_prepend ..
  · exact beginsWith_prepend ..

/-- A buffer that an object is cut off in waits for the next line. -/
theorem ofLinesFrom_of_cut {ls : Lines} {count : Nat} {b next : Buffer} {l : Line} {rest : List Line}
    (added : b.add (count + 1) l.text = some next) (nonblank : stripLeft next.text ≠ [])
    (fits : ((stripLeft next.text).length : Int) ≤ limit) {problem : Json.Problem}
    (cut : Json.value (stripLeft next.text) = .error (.malformed problem 0)) :
    ofLinesFrom path limit ls count b (l :: rest) = prepend [] l.bytesRead
      (ofLinesFrom path limit ls (count + 1) ⟨stripLeft next.text, next.firstLine⟩ rest) := by
  have short : Buffer.within path limit ⟨stripLeft next.text, next.firstLine⟩ =
      .ok ⟨stripLeft next.text, next.firstLine⟩ := within_eq_ok path fits
  rw [ofLinesFrom, added]
  simp only [drain_of_malformed path next.text.length nonblank cut, atEnd_zero, if_true,
    Except.bind, short]

/-- The part of an object before the end of a line is malformed at its end. -/
theorem malformed_of_cut (read : Json.value object = .ok (.object fields, [])) {part later : List Char}
    (whole : object = part ++ later) (more : later ≠ []) (ended : LineEnded part) :
    ∃ problem, Json.value part = .error (.malformed problem 0) := by
  have extended := Json.extends_value ended later
  rw [← whole, read] at extended
  cases first : Json.value part with
  | ok found =>
    rw [first] at extended
    cases found
    simp only [Json.Extends, Except.ok.injEq, Prod.mk.injEq, List.nil_eq, List.append_eq_nil_iff]
      at extended
    exact absurd extended.2.2 more
  | error fault =>
    rw [first] at extended
    cases fault with
    | malformed problem remaining =>
      rcases extended with ⟨rfl, -⟩ | impossible
      · exact ⟨problem, rfl⟩
      · cases impossible
    | exponentOutOfRange => cases extended
    | tooManyDigits => cases extended

/-- An object that goes on in another line fits, and so does its part on the lines before. -/
theorem length_le_of_cut (fits : (∀ c ∈ object, isBreak c = false) ∨ (object.length : Int) ≤ limit)
    {part later : List Char} (whole : object = part ++ later) (some : part ≠ [])
    (ended : LineEnded part) : (part.length : Int) ≤ limit := by
  have lengths := congrArg List.length whole
  rw [List.length_append] at lengths
  rcases fits with oneLine | fits
  · have last := ended _ (List.getLast?_eq_some_getLast some)
    rw [oneLine _ (whole ▸ List.mem_append_left _ (List.getLast_mem some))] at last
    cases last
  · omega

/-- By induction on the lines: the buffer waits with the part of the object that the lines so far
have, and ends where a line ends as long as there are more of them. -/
theorem ofLinesFrom_beginsWith (read : Json.value object = .ok (.object fields, []))
    (fits : (∀ c ∈ object, isBreak c = false) ∨ (object.length : Int) ≤ limit) {after : List Char}
    {ls : Lines} {lines : List Line} (ended : ∀ l ∈ lines.dropLast, LineEnded l.text) (count : Nat)
    {b : Buffer} (waiting : Waiting b.text) (bufferEnded : lines ≠ [] → LineEnded b.text)
    (begins : stripLeft (b.text ++ (lines.map Line.text).flatten) = object ++ after) :
    (ofLinesFrom path limit ls count b lines).BeginsWith fields := by
  induction lines generalizing count b with
  | nil =>
    obtain ⟨stripped, problem, remaining, unread⟩ := waiting
    simp only [List.map_nil, List.flatten_nil, List.append_nil, stripped] at begins
    rw [begins, Json.value_append read rfl] at unread
    cases unread
  | cons l rest ih =>
    obtain ⟨lineEnded, restEnded⟩ := forall_mem_dropLast_cons.mp ended
    rw [List.map_cons, List.flatten_cons, ← List.append_assoc] at begins
    have lastLine : rest = [] → (rest.map Line.text).flatten = [] := by
      rintro rfl
      rfl
    generalize (rest.map Line.text).flatten = more at begins ih lastLine
    rcases add_cases b (count + 1) l.text with ⟨passed, empty, blank⟩ | ⟨next, added, text⟩
    · rw [empty, List.nil_append, stripLeft_append_of_blank blank] at begins
      rw [ofLinesFrom, passed]
      apply ih restEnded (count + 1) waiting (fun _ => empty ▸ .nil)
      rw [empty]
      exact begins
    · have nonblank := nonblank_of_add added waiting
      rw [← text, stripLeft_append_of_nonblank nonblank] at begins
      rcases List.append_eq_append_iff.mp begins with ⟨later, whole, left⟩ | ⟨rest', whole, -⟩
      · by_cases complete : later = []
        · rw [complete, List.append_nil] at whole
          exact beginsWith_of_complete added nonblank (whole ▸ read)
        · have others : rest ≠ [] := by
            intro none
            have ending := lastLine none
            simp [left, complete] at ending
          have nextEnded : LineEnded next.text :=
            text ▸ (bufferEnded (by simp)).append (lineEnded others)
          have partEnded := nextEnded.suffix (stripLeft_suffix next.text)
          obtain ⟨problem, cut⟩ := malformed_of_cut read whole complete partEnded
          have short := length_le_of_cut fits whole nonblank partEnded
          have stripped := stripLeft_stripLeft next.text
          have still : stripLeft (stripLeft next.text ++ more) = object ++ after := by
            rw [stripLeft_append_of_nonblank (by rwa [stripped]), stripped]
            exact begins
          obtain ⟨r, records, first, same⟩ := ih restEnded (count + 1)
            (b := ⟨stripLeft next.text, next.firstLine⟩) ⟨stripped, problem, 0, cut⟩
            (fun _ => partEnded) still
          rw [ofLinesFrom_of_cut added nonblank short cut]
          exact ⟨r, records, first, same⟩
      · rw [whole] at nonblank
        have first := Json.value_append read rfl rest'
        rw [← whole] at first
        exact beginsWith_of_complete added (whole ▸ nonblank) first

/-- The first record of contents is the object that their text begins with, if it stands on one line
or is no longer than the limit. -/
theorem ofContents_beginsWith {c : Contents} {text after : List Char} (intact : c.failure = none)
    (decoded : Utf8.text? c.bytes = .ok text) (begins : stripLeft text = object ++ after)
    (read : Json.value object = .ok (.object fields, []))
    (fits : (∀ c ∈ object, isBreak c = false) ∨ (object.length : Int) ≤ limit) :
    (ofContents path limit c).BeginsWith fields := by
  have covers := Lines.covers_ofContents intact decoded
  rw [← covers.texts, ← List.nil_append (List.flatten _)] at begins
  exact ofLinesFrom_beginsWith read fits covers.ended 0 waiting_nil (fun _ => .nil) begins

end

end Records

namespace Cursor

/-- A new cursor moves to the first record. -/
theorem advance_first {s : Store} {start : Cursor} (fresh : Fresh start) {rs : Records}
    (opened : openObject s start.path start.limit = .ok rs) {fields : Value.Fields}
    (begins : rs.BeginsWith fields) :
    (start.advance s).1 = .ok true ∧ (start.advance s).2.state = .positioned ∧
      (start.advance s).2.fields = fields := by
  obtain ⟨r, later, records, same⟩ := begins
  have going : ¬ start.IsOver := by simp [IsOver, fresh.state]
  have moved := moved_advance fresh (.unstarted (s := s)) going
  have found : (start.advance s).1 = .ok true := by
    rw [moved.result, opened]
    simp [outcome, Except.bind, records]
  obtain ⟨rs', r', opened', here, state, -, fields'⟩ := moved.record found
  cases opened.symm.trans opened'
  simp only [records, List.getElem?_cons_zero, Option.some.injEq] at here
  refine ⟨found, state, ?_⟩
  rw [fields', ← here, same]

end Cursor

end SchemaOnRead
