import SchemaOnRead.Proofs.Record.FirstRecord

/-!
# Steps of reading records

Reading goes step by step: a line is taken into the buffer, and as long as the buffer begins with an
object, that is a record and reading goes on with what is left (`goOn_object`). A buffer that is blank is
emptied, one in which a value is cut off waits for the next line if it is not too long (`goOn_waits`), and
any other one ends the records.
-/

namespace SchemaOnRead.Records

open Text

variable {path : String} {limit : Int} {ls : Lines} {count : Nat} {bytesRead : Nat} {b : Buffer}
  {lines : List Line}

/-- The records of a buffer and of the lines after it, when `count` lines have been read, and `bytesRead`
bytes with them. -/
def goOn (path : String) (limit : Int) (ls : Lines) (count bytesRead : Nat) (b : Buffer)
    (lines : List Line) : Records :=
  match (drain path (b.text.length + 1) b).rest.bind (Buffer.within path limit) with
  | .error f => prepend (drain path (b.text.length + 1) b).found bytesRead ⟨[], some f, bytesRead⟩
  | .ok rest =>
    prepend (drain path (b.text.length + 1) b).found bytesRead (ofLinesFrom path limit ls count rest lines)

/-- The records of a buffer that has to wait for more lines. -/
def waitFor (path : String) (limit : Int) (ls : Lines) (count bytesRead : Nat) (b : Buffer)
    (lines : List Line) : Records :=
  if limit < b.text.length then ⟨[], some (malformed path b.line (.tooLong limit)), bytesRead⟩
  else ofLinesFrom path limit ls count b lines

/-! ## Lines -/

theorem ofLinesFrom_passed {l : Line} (passed : b.add (count + 1) l.text = none) :
    ofLinesFrom path limit ls count b (l :: lines) = ofLinesFrom path limit ls (count + 1) b lines := by
  rw [ofLinesFrom, passed]

theorem ofLinesFrom_added {l : Line} {next : Buffer} (added : b.add (count + 1) l.text = some next) :
    ofLinesFrom path limit ls count b (l :: lines) =
      goOn path limit ls (count + 1) l.bytesRead next lines := by
  rw [ofLinesFrom, added]
  rfl

/-! ## Buffers -/

/-- A buffer is decoded in any number of steps that is enough for its text. -/
theorem drain_congr {n m : Nat} (many : b.text.length < n) (many' : b.text.length < m) :
    drain path n b = drain path m b := by
  induction n generalizing m b with
  | zero => exact absurd many (by omega)
  | succ n ih =>
    cases m with
    | zero => exact absurd many' (by omega)
    | succ m =>
      by_cases blank : stripLeft b.text = []
      · rw [drain_of_blank path n blank, drain_of_blank path m blank]
      · cases read : Json.value (stripLeft b.text) with
        | ok found =>
          obtain ⟨v, rest⟩ := found
          have shorter := (Json.leaves_value read).length_lt
          have stripped := length_stripLeft_le b.text
          by_cases object : ∃ fields, v = .object fields
          · obtain ⟨fields, rfl⟩ := object
            rw [drain_of_object path n blank read, drain_of_object path m blank read,
              ih (m := m) (by simp only; omega) (by simp only; omega)]
          · have noObject : ∀ fields, v ≠ .object fields := fun fields same => object ⟨fields, same⟩
            rw [drain_of_notObject path n blank noObject read,
              drain_of_notObject path m blank noObject read]
        | error fault =>
          cases fault with
          | malformed problem remaining =>
            rw [drain_of_malformed path n blank read, drain_of_malformed path m blank read]
          | exponentOutOfRange =>
            rw [drain_of_exponentOutOfRange path n blank read,
              drain_of_exponentOutOfRange path m blank read]
          | tooManyDigits =>
            rw [drain_of_tooManyDigits path n blank read,
              drain_of_tooManyDigits path m blank read]

theorem prepend_append (first second : List (Nat × Value.Fields)) (bytesRead : Nat) (rs : Records) :
    prepend (first ++ second) bytesRead rs = prepend first bytesRead (prepend second bytesRead rs) := by
  rw [prepend, prepend, prepend, List.map_append, List.append_assoc]

/-- What is left of a buffer in which nothing was found waits for more lines. -/
theorem goOn_of_rest {rest : Buffer} (left : drain path (b.text.length + 1) b = ⟨[], .ok rest⟩) :
    goOn path limit ls count bytesRead b lines = waitFor path limit ls count bytesRead rest lines := by
  rw [goOn, left, waitFor]
  simp only [Except.bind, Buffer.within]
  split
  · rename_i f long
    split at long
    · cases long
      rename_i longer
      rw [if_pos longer]
      rfl
    · cases long
  · rename_i next short
    split at short
    · cases short
    · cases short
      rename_i shorter
      rw [if_neg shorter]
      rfl

theorem goOn_of_failure {f : Failure} (failed : drain path (b.text.length + 1) b = ⟨[], .error f⟩) :
    goOn path limit ls count bytesRead b lines = ⟨[], some f, bytesRead⟩ := by
  rw [goOn, failed]
  rfl

theorem goOn_blank (blank : stripLeft b.text = []) : goOn path limit ls count bytesRead b lines =
    waitFor path limit ls count bytesRead { b with text := [] } lines :=
  goOn_of_rest (drain_of_blank path _ blank)

section

variable (nonblank : stripLeft b.text ≠ [])
include nonblank

/-- An object that a buffer begins with is a record, and reading goes on after it. -/
theorem goOn_object {fields : Value.Fields} {rest : List Char}
    (read : Json.value (stripLeft b.text) = .ok (.object fields, rest)) :
    goOn path limit ls count bytesRead b lines = prepend [(b.firstLine, fields)] bytesRead
      (goOn path limit ls count bytesRead ⟨rest, b.firstLine +
        ((stripLeft b.text).take ((stripLeft b.text).length - rest.length)).count '\n'⟩ lines) := by
  have shorter := (Json.leaves_value read).length_lt
  have stripped := length_stripLeft_le b.text
  rw [goOn, goOn, drain_of_object path _ nonblank read, Drained.cons]
  rw [drain_congr (m := rest.length + 1) (by simp only; omega) (by simp only; omega)]
  generalize drain path (rest.length + 1) _ = d
  simp only
  rw [← List.singleton_append]
  cases d.rest.bind (Buffer.within path limit) with
  | error f => exact prepend_append ..
  | ok left => exact prepend_append ..

/-- A buffer in which a value is cut off waits for more lines. -/
theorem goOn_waits {problem : Json.Problem} {remaining : Nat}
    (read : Json.value (stripLeft b.text) = .error (.malformed problem remaining))
    (waits : atEnd (stripLeft b.text) remaining = true) :
    goOn path limit ls count bytesRead b lines =
      waitFor path limit ls count bytesRead ⟨stripLeft b.text, b.firstLine⟩ lines := by
  apply goOn_of_rest
  rw [drain_of_malformed path _ nonblank read, if_pos waits]

/-- A buffer that begins with anything else ends the records; the line in the failure is that on which
the buffer begins. -/
theorem goOn_fails (noObject : ∀ fields rest, Json.value (stripLeft b.text) ≠ .ok (.object fields, rest))
    (goes : ∀ problem remaining, Json.value (stripLeft b.text) = .error (.malformed problem remaining) →
      atEnd (stripLeft b.text) remaining = false) :
    ∃ f, goOn path limit ls count bytesRead b lines = ⟨[], some f, bytesRead⟩ ∧
      ∀ line defect, f = malformed path line defect → line = b.firstLine := by
  cases read : Json.value (stripLeft b.text) with
  | ok found =>
    obtain ⟨v, rest⟩ := found
    have other : ∀ fields, v ≠ .object fields := by
      rintro fields rfl
      exact noObject fields rest read
    refine ⟨_, goOn_of_failure (drain_of_notObject path _ nonblank other read), ?_⟩
    intro line defect same
    cases same
    rfl
  | error fault =>
    cases fault with
    | malformed problem remaining =>
      have failed := drain_of_malformed path b.text.length nonblank read
      rw [if_neg (by rw [goes problem remaining read]; decide)] at failed
      refine ⟨_, goOn_of_failure failed, ?_⟩
      intro line defect same
      cases same
      rfl
    | exponentOutOfRange =>
      exact ⟨_, goOn_of_failure (drain_of_exponentOutOfRange path _ nonblank read), nofun⟩
    | tooManyDigits =>
      exact ⟨_, goOn_of_failure (drain_of_tooManyDigits path _ nonblank read), nofun⟩

end

end SchemaOnRead.Records
