import Mathlib.Data.List.DropRight
import SchemaOnRead.Proofs.Json.CutOff
import SchemaOnRead.Proofs.Record.Lines
import SchemaOnRead.Record.Reader

/-!
# Records of a whole text

The plain way to decode a text is to have all of it: skip blanks, decode one value, and go on with
what is left (`WholeText.decode`). The records of an object come from a buffer that grows line by
line, and are the same (`Records.ofContents_agrees`): a buffer that is cut off where a line ends
fails at its end, if at all, so waiting for the next line loses nothing.
-/

namespace SchemaOnRead

open Text

theorem Text.stripLeft_stripLeft (cs : List Char) : stripLeft (stripLeft cs) = stripLeft cs :=
  List.dropWhile_idempotent isBlank cs

/-! ## Decoding a text as a whole -/

/-- How decoding a text ends: nothing but blanks is left, or there is a value that is malformed, cut
off or no object, or a number that the reader refuses. -/
inductive WholeText.Ending where
  | finished
  | rejected
  | exponentOutOfRange
  | tooManyDigits
  deriving DecidableEq, Repr

/-- The objects that a text begins with, and how decoding it ends after them. -/
structure WholeText where
  found : List Value.Fields
  ending : WholeText.Ending

namespace WholeText

/-- Puts objects in front. -/
def prepend (fields : List Value.Fields) (w : WholeText) : WholeText :=
  { w with found := fields ++ w.found }

/-- Decodes a text: skips the blanks that it begins with, decodes the value at the start of what is
left, and goes on after it if it is an object. -/
def decode (cs : List Char) : WholeText :=
  if stripLeft cs = [] then ⟨[], .finished⟩
  else match _read : Json.value (stripLeft cs) with
    | .ok (.object fields, rest) => (decode rest).prepend [fields]
    | .ok _ => ⟨[], .rejected⟩
    | .error (.malformed ..) => ⟨[], .rejected⟩
    | .error .exponentOutOfRange => ⟨[], .exponentOutOfRange⟩
    | .error .tooManyDigits => ⟨[], .tooManyDigits⟩
termination_by cs.length
decreasing_by exact Nat.lt_of_lt_of_le (Json.leaves_value _read).length_lt (length_stripLeft_le cs)

variable {cs rest : List Char}

theorem decode_blank (blank : stripLeft cs = []) : decode cs = ⟨[], .finished⟩ := by
  rw [decode, if_pos blank]

/-- Decoding a text in terms of the value at its start. -/
theorem decode_eq (nonblank : stripLeft cs ≠ []) :
    decode cs = match Json.value (stripLeft cs) with
      | .ok (.object fields, rest) => (decode rest).prepend [fields]
      | .ok _ => ⟨[], .rejected⟩
      | .error (.malformed ..) => ⟨[], .rejected⟩
      | .error .exponentOutOfRange => ⟨[], .exponentOutOfRange⟩
      | .error .tooManyDigits => ⟨[], .tooManyDigits⟩ := by
  rw [decode, if_neg nonblank]
  split
  · rename_i fields rest read
    rw [read]
  · rename_i found noObject read
    rw [read]
    split
    · rename_i same
      exact absurd (Except.ok.inj same) (noObject _ _)
    · rfl
    all_goals rename_i same; cases same
  · rename_i read
    rw [read]
  · rename_i read
    rw [read]
  · rename_i read
    rw [read]

/-- Blanks that have been skipped make no difference, whatever follows them. -/
theorem decode_stripLeft_append (cs more : List Char) :
    decode (stripLeft cs ++ more) = decode (cs ++ more) := by
  have same : stripLeft (stripLeft cs ++ more) = stripLeft (cs ++ more) := by
    simp only [stripLeft, List.dropWhile_append, List.dropWhile_idempotent]
  by_cases blank : stripLeft (cs ++ more) = []
  · rw [decode_blank blank, decode_blank (same.trans blank)]
  · rw [decode_eq blank, decode_eq (same ▸ blank), same]

theorem prepend_prepend (first second : List Value.Fields) (w : WholeText) :
    (w.prepend second).prepend first = w.prepend (first ++ second) := by
  rw [prepend, prepend, prepend, List.append_assoc]

/-- The kind of the failure that ends records. -/
def Ending.kind : Ending → Option Kind
  | finished => none
  | rejected => some .fileFormat
  | exponentOutOfRange => some .foreign
  | tooManyDigits => some .badValue

theorem Ending.kind_eq_none {e : Ending} : e.kind = none ↔ e = .finished := by
  cases e <;> decide

theorem Ending.kind_eq_fileFormat {e : Ending} : e.kind = some .fileFormat ↔ e = .rejected := by
  cases e <;> decide

end WholeText

namespace Records

open WholeText

/-! ## One buffer -/

/-- What is left of a buffer when it waits for more text: a text that begins with no blank and holds
no complete value. -/
def Waiting (cs : List Char) : Prop :=
  stripLeft cs = cs ∧ ∃ problem remaining, Json.value cs = .error (.malformed problem remaining)

theorem waiting_nil : Waiting [] := ⟨rfl, .expectingValue, 0, Json.valueFrom_nil _⟩

/-- A text that waits for more and gets none is rejected, if there is any. -/
theorem Waiting.decode {cs : List Char} (waiting : Waiting cs) (some : cs ≠ []) :
    decode cs = ⟨[], .rejected⟩ := by
  obtain ⟨stripped, problem, remaining, read⟩ := waiting
  rw [decode_eq (stripped.symm ▸ some), stripped, read]

/-- What decoding a buffer gave agrees with decoding its text with `more` after it. -/
def Drained.Agrees (d : Drained) (cs more : List Char) : Prop :=
  match d.rest with
  | .ok b => b.text <:+ cs ∧ Waiting b.text ∧
      decode (cs ++ more) = (decode (b.text ++ more)).prepend (d.found.map Prod.snd)
  | .error f => ∃ ending, WholeText.Ending.kind ending = some f.report.kind ∧
      decode (cs ++ more) = ⟨d.found.map Prod.snd, ending⟩

theorem Drained.Agrees.cons {d : Drained} {cs before more : List Char} (agrees : d.Agrees cs more)
    (line : Nat) {fields : Value.Fields} (later : cs <:+ before)
    (first : decode (before ++ more) = (decode (cs ++ more)).prepend [fields]) :
    (d.cons line fields).Agrees before more := by
  obtain ⟨found, rest⟩ := d
  cases rest with
  | ok b =>
    obtain ⟨left, waiting, same⟩ := agrees
    refine ⟨left.trans later, waiting, ?_⟩
    rw [first, same, prepend_prepend]
    rfl
  | error f =>
    obtain ⟨ending, kind, same⟩ := agrees
    refine ⟨ending, kind, ?_⟩
    rw [first, same]
    rfl

theorem atEnd_zero (text : List Char) : atEnd text 0 = true := by
  have shorter : (stripRight text).length ≤ text.length := by
    rw [stripRight, List.length_reverse]
    exact (List.dropWhile_suffix _).length_le.trans (List.length_reverse).le
  rw [atEnd, decide_eq_true_eq]
  exact shorter

theorem extends_of_cut {cs more : List Char} (cut : LineEnded cs ∨ more = []) :
    Json.Extends more (Json.value cs) (Json.value (cs ++ more)) := by
  rcases cut with ended | rfl
  · exact Json.extends_value ended more
  · rw [List.append_nil]
    exact .nil

/-- Decoding a text whose blanks have been skipped, in terms of the value at its start. -/
theorem decode_append_eq {cs : List Char} (nonblank : stripLeft cs ≠ []) (more : List Char) :
    decode (cs ++ more) = match Json.value (stripLeft cs ++ more) with
      | .ok (.object fields, rest) => (decode rest).prepend [fields]
      | .ok _ => ⟨[], .rejected⟩
      | .error (.malformed ..) => ⟨[], .rejected⟩
      | .error .exponentOutOfRange => ⟨[], .exponentOutOfRange⟩
      | .error .tooManyDigits => ⟨[], .tooManyDigits⟩ := by
  have whole : stripLeft (cs ++ more) = stripLeft cs ++ more := by
    rw [stripLeft, List.dropWhile_append, if_neg (by simpa [stripLeft] using nonblank)]
    rfl
  rw [decode_eq, whole]
  rw [whole]
  exact List.append_ne_nil_of_left_ne_nil nonblank more

/-! ## Steps of decoding a buffer -/

/-- The line on which a buffer begins once its blanks are skipped. -/
def Buffer.firstLine (b : Buffer) : Nat :=
  b.line + (b.text.take (b.text.length - (stripLeft b.text).length)).count '\n'

section

variable (path : String) (fuel : Nat) {b : Buffer}

theorem drain_of_blank (blank : stripLeft b.text = []) :
    drain path (fuel + 1) b = ⟨[], .ok { b with text := [] }⟩ := by
  obtain ⟨text, line⟩ := b
  cases text with
  | nil => rfl
  | cons c rest =>
    rw [drain, if_neg (by simp)]
    exact if_pos (List.isEmpty_iff.mpr blank)

variable (nonblank : stripLeft b.text ≠ [])
include nonblank

theorem text_isEmpty_of_nonblank : ¬ b.text.isEmpty = true := by
  intro empty
  rw [List.isEmpty_iff.mp empty] at nonblank
  exact nonblank rfl

theorem drain_of_object {fields : Value.Fields} {rest : List Char}
    (read : Json.value (stripLeft b.text) = .ok (.object fields, rest)) :
    drain path (fuel + 1) b =
      (drain path fuel ⟨rest, b.firstLine +
        ((stripLeft b.text).take ((stripLeft b.text).length - rest.length)).count '\n'⟩).cons
          b.firstLine fields := by
  rw [drain, if_neg (text_isEmpty_of_nonblank nonblank)]
  simp only [List.isEmpty_iff, nonblank, if_false, read, Buffer.firstLine]

theorem drain_of_notObject {v : Value} {rest : List Char} (noObject : ∀ fields, v ≠ .object fields)
    (read : Json.value (stripLeft b.text) = .ok (v, rest)) :
    drain path (fuel + 1) b =
      ⟨[], .error (malformed path b.firstLine (.notObject v.kind))⟩ := by
  rw [drain, if_neg (text_isEmpty_of_nonblank nonblank)]
  simp only [List.isEmpty_iff, nonblank, if_false, read, Buffer.firstLine]

theorem drain_of_malformed {problem : Json.Problem} {remaining : Nat}
    (read : Json.value (stripLeft b.text) = .error (.malformed problem remaining)) :
    drain path (fuel + 1) b =
      if atEnd (stripLeft b.text) remaining then ⟨[], .ok ⟨stripLeft b.text, b.firstLine⟩⟩
      else ⟨[], .error (malformed path b.firstLine (.malformed problem.message))⟩ := by
  rw [drain, if_neg (text_isEmpty_of_nonblank nonblank)]
  simp only [List.isEmpty_iff, nonblank, if_false, read, Buffer.firstLine]

theorem drain_of_exponentOutOfRange
    (read : Json.value (stripLeft b.text) = .error .exponentOutOfRange) :
    drain path (fuel + 1) b = ⟨[], .error (Failure.mk (.other .foreign) [])⟩ := by
  rw [drain, if_neg (text_isEmpty_of_nonblank nonblank)]
  simp only [List.isEmpty_iff, nonblank, if_false, read]

theorem drain_of_tooManyDigits (read : Json.value (stripLeft b.text) = .error .tooManyDigits) :
    drain path (fuel + 1) b = ⟨[], .error (Failure.mk (.other .badValue) [])⟩ := by
  rw [drain, if_neg (text_isEmpty_of_nonblank nonblank)]
  simp only [List.isEmpty_iff, nonblank, if_false, read]

end

/-- A buffer that ends where a line ends, or with the text, is decoded as the whole text is. -/
theorem drain_agrees (path : String) {fuel : Nat} {b : Buffer} (many : b.text.length < fuel)
    {more : List Char} (cut : LineEnded b.text ∨ more = []) :
    (drain path fuel b).Agrees b.text more := by
  induction fuel generalizing b with
  | zero => exact absurd many (by omega)
  | succ fuel ih =>
    by_cases blank : stripLeft b.text = []
    · rw [drain_of_blank path fuel blank]
      refine ⟨List.nil_suffix, waiting_nil, ?_⟩
      rw [← decode_stripLeft_append, blank]
      rfl
    · have later := stripLeft_suffix b.text
      have next := decode_append_eq blank more
      have extended := extends_of_cut (cut.imp_left fun ended => ended.suffix later)
      cases read : Json.value (stripLeft b.text) with
      | ok found =>
        obtain ⟨v, rest⟩ := found
        rw [read] at extended
        rw [show Json.value (stripLeft b.text ++ more) = _ from extended] at next
        by_cases object : ∃ fields, v = .object fields
        · obtain ⟨fields, rfl⟩ := object
          have used := Json.leaves_value read
          have shorter := used.length_lt
          have stripped := length_stripLeft_le b.text
          have restCut := cut.imp_left fun ended => ended.suffix (used.suffix.trans later)
          rw [drain_of_object path fuel blank read]
          exact (ih (by simp only; omega) restCut).cons _ (used.suffix.trans later) next
        · have noObject : ∀ fields, v ≠ .object fields := fun fields same => object ⟨fields, same⟩
          rw [drain_of_notObject path fuel blank noObject read]
          cases v with
          | object fields => exact absurd rfl (noObject fields)
          | _ => exact ⟨.rejected, rfl, next⟩
      | error fault =>
        rw [read] at extended
        cases fault with
        | malformed problem remaining =>
          rw [drain_of_malformed path fuel blank read]
          by_cases waits : atEnd (stripLeft b.text) remaining = true
          · rw [if_pos waits]
            have stripped := stripLeft_stripLeft b.text
            exact ⟨later, ⟨stripped, problem, remaining, read⟩,
              (decode_stripLeft_append b.text more).symm⟩
          · rw [if_neg waits]
            rcases extended with ⟨atCut, -⟩ | same
            · exact absurd (atCut ▸ atEnd_zero _) waits
            · rw [same] at next
              exact ⟨.rejected, rfl, next⟩
        | exponentOutOfRange =>
          rw [show Json.value (stripLeft b.text ++ more) = _ from extended] at next
          rw [drain_of_exponentOutOfRange path fuel blank read]
          exact ⟨.exponentOutOfRange, rfl, next⟩
        | tooManyDigits =>
          rw [show Json.value (stripLeft b.text ++ more) = _ from extended] at next
          rw [drain_of_tooManyDigits path fuel blank read]
          exact ⟨.tooManyDigits, rfl, next⟩

/-! ## All lines -/

/-- Records agree with decoding a text as a whole: they are the same objects in the same order, and
they end in the same way. -/
structure Agree (rs : Records) (w : WholeText) : Prop where
  fields : rs.records.map Record.fields = w.found
  ending : rs.failure.map (fun f => f.report.kind) = w.ending.kind

theorem map_fields_mk (bytesRead : Nat) (found : List (Nat × Value.Fields)) :
    (found.map fun p => Record.mk p.1 p.2 bytesRead).map Record.fields = found.map Prod.snd := by
  rw [List.map_map]
  rfl

theorem Agree.prepend {rs : Records} {w : WholeText} (agree : Agree rs w)
    (found : List (Nat × Value.Fields)) (bytesRead : Nat) :
    Agree (rs.prepend found bytesRead) (w.prepend (found.map Prod.snd)) := by
  refine ⟨?_, agree.ending⟩
  rw [Records.prepend, List.map_append, map_fields_mk, agree.fields]
  rfl

theorem ending_agrees (path : String) {ls : Lines} (whole : ls.stop = none) (count : Nat) {b : Buffer}
    (waiting : Waiting b.text) : Agree (ending path ls count b) (decode b.text) := by
  rw [ending, whole]
  by_cases empty : b.text = []
  · rw [empty, decode_blank rfl]
    exact ⟨rfl, rfl⟩
  · have visible : ¬ b.text.all isBlank = true := by
      intro blank
      exact empty (waiting.1 ▸ stripLeft_of_all_blank blank)
    simp only
    rw [waiting.decode empty, if_neg visible]
    exact ⟨rfl, rfl⟩

/-- Taking a line into a buffer adds its text, unless there is nothing to decode. -/
theorem add_cases (b : Buffer) (number : Nat) (text : List Char) :
    (b.add number text = none ∧ b.text = [] ∧ stripLeft text = []) ∨
      ∃ next, b.add number text = some next ∧ next.text = b.text ++ text := by
  rw [Buffer.add]
  by_cases empty : b.text = []
  · by_cases blank : text.all isBlank = true
    · exact .inl ⟨by simp [empty, blank], empty, stripLeft_of_all_blank blank⟩
    · exact .inr ⟨⟨text, number⟩, by simp only [empty, blank, List.isEmpty_nil, if_true, if_false,
        Bool.false_eq_true], by rw [empty, List.nil_append]⟩
  · exact .inr ⟨_, if_neg (by simp [empty]), rfl⟩

theorem within_eq_ok (path : String) {limit : Int} {b : Buffer} (fits : b.text.length ≤ limit) :
    b.within path limit = .ok b := if_neg (by omega)

/-- A line that is taken into a buffer: if what is left of the buffer with the later lines agrees with
the whole, so does the buffer with them. -/
theorem ofLinesFrom_cons_agrees {path : String} {limit : Int} {ls : Lines} {count : Nat}
    {b next : Buffer} {l : Line} {rest : List Line} {more : List Char}
    (added : b.add (count + 1) l.text = some next) (fits : next.text.length ≤ limit)
    (agrees : (drain path (next.text.length + 1) next).Agrees next.text more)
    (later : ∀ left : Buffer, left.text <:+ next.text → Waiting left.text →
      Agree (ofLinesFrom path limit ls (count + 1) left rest) (decode (left.text ++ more))) :
    Agree (ofLinesFrom path limit ls count b (l :: rest)) (decode (next.text ++ more)) := by
  rw [ofLinesFrom, added]
  simp only
  generalize drain path (next.text.length + 1) next = d at agrees
  obtain ⟨found, outcome⟩ := d
  cases outcome with
  | error f =>
    obtain ⟨ending, kind, same⟩ := agrees
    have agree : Agree ⟨[], some f, l.bytesRead⟩ ⟨[], ending⟩ := ⟨rfl, kind.symm⟩
    have whole := agree.prepend found l.bytesRead
    rw [WholeText.prepend, List.append_nil] at whole
    rw [same]
    exact whole
  | ok left =>
    obtain ⟨suffix, waiting, same⟩ := agrees
    have short : left.text.length ≤ limit := by
      have := suffix.length_le
      omega
    rw [same]
    simp only [Except.bind, within_eq_ok path short]
    exact (later left suffix waiting).prepend found l.bytesRead

theorem forall_mem_dropLast_cons {α : Type} {P : α → Prop} {a : α} {rest : List α} :
    (∀ c ∈ (a :: rest).dropLast, P c) ↔ (rest ≠ [] → P a) ∧ ∀ c ∈ rest.dropLast, P c := by
  cases rest with
  | nil => simp
  | cons d rest =>
    rw [List.dropLast_cons_cons, List.forall_mem_cons]
    simp

/-- The records of lines agree with decoding the buffer and the lines as a whole. By induction on the
lines: the buffer waits, and ends where a line ends as long as there are more of them. -/
theorem ofLinesFrom_agrees (path : String) (limit : Int) {ls : Lines} (whole : ls.stop = none)
    {lines : List Line} (ended : ∀ l ∈ lines.dropLast, LineEnded l.text) (count : Nat) {b : Buffer}
    (bufferEnded : lines ≠ [] → LineEnded b.text) (waiting : Waiting b.text)
    (fits : ((b.text ++ (lines.map Line.text).flatten).length : Int) ≤ limit) :
    Agree (ofLinesFrom path limit ls count b lines)
      (decode (b.text ++ (lines.map Line.text).flatten)) := by
  induction lines generalizing count b with
  | nil =>
    rw [ofLinesFrom, List.map_nil, List.flatten_nil, List.append_nil]
    exact ending_agrees path whole count waiting
  | cons l rest ih =>
    obtain ⟨lineEnded, restEnded⟩ := forall_mem_dropLast_cons.mp ended
    have lastLine : rest = [] → (rest.map Line.text).flatten = [] := fun none => by rw [none]; rfl
    rw [List.map_cons, List.flatten_cons, ← List.append_assoc] at fits ⊢
    generalize (rest.map Line.text).flatten = more at fits ih lastLine ⊢
    rcases add_cases b (count + 1) l.text with ⟨passed, empty, blank⟩ | ⟨next, added, text⟩
    · have shorter : ((b.text ++ more).length : Int) ≤ limit := by
        simp only [List.length_append] at fits ⊢
        omega
      have agree := ih restEnded (count + 1) (fun _ => empty ▸ .nil) waiting shorter
      rw [empty] at agree ⊢
      rw [List.nil_append, ← decode_stripLeft_append, blank, ofLinesFrom, passed]
      exact agree
    · have nextEnded : rest ≠ [] → LineEnded next.text := fun some =>
        text ▸ (bufferEnded (by simp)).append (lineEnded some)
      have cut : LineEnded next.text ∨ more = [] := by
        by_cases none : rest = []
        · exact .inr (lastLine none)
        · exact .inl (nextEnded none)
      rw [← text, List.length_append] at fits
      rw [← text]
      refine ofLinesFrom_cons_agrees added (by omega)
        (drain_agrees path (Nat.lt_succ_self _) cut) fun left suffix leftWaiting => ?_
      refine ih restEnded (count + 1) (fun some => (nextEnded some).suffix suffix) leftWaiting ?_
      have := suffix.length_le
      rw [List.length_append]
      omega

/-- The records of contents that hold a text agree with decoding the text as a whole. -/
theorem ofContents_agrees (path : String) {limit : Int} {c : Contents} {text : List Char}
    (intact : c.failure = none) (decoded : Utf8.text? c.bytes = .ok text)
    (fits : text.length ≤ limit) : Agree (ofContents path limit c) (decode text) := by
  have covers := Lines.covers_ofContents intact decoded
  have agree := ofLinesFrom_agrees path limit covers.whole covers.ended 0 (b := {})
    (fun _ => .nil) waiting_nil
  rw [covers.texts] at agree
  exact agree fits

/-- The records of contents that hold a text are the objects that decoding the text as a whole gives.
They end without a failure exactly if that comes to the end of the text, and with a malformed file
exactly if that meets a value which is malformed, cut off or no object. -/
theorem ofContents_eq_decode (path : String) {limit : Int} {c : Contents} {text : List Char}
    (intact : c.failure = none) (decoded : Utf8.text? c.bytes = .ok text)
    (fits : text.length ≤ limit) :
    (ofContents path limit c).records.map Record.fields = (decode text).found ∧
      ((ofContents path limit c).failure = none ↔ (decode text).ending = .finished) ∧
      ((∃ f, (ofContents path limit c).failure = some f ∧ f.report.kind = .fileFormat) ↔
        (decode text).ending = .rejected) := by
  have agree := ofContents_agrees path intact decoded fits
  refine ⟨agree.fields, ?_, ?_⟩
  · rw [← Ending.kind_eq_none, ← agree.ending, Option.map_eq_none_iff]
  · rw [← Ending.kind_eq_fileFormat, ← agree.ending, Option.map_eq_some_iff]

/-- Two objects, the first of which goes on in the second line, and one that is cut off. -/
def acrossLines : List Char := "\x7b\"a\": [1,\n2]\x7d \x7b\"b\": 3\x7d\r\n\x7b\"c\"".toList

def acrossLinesContents : Contents := ⟨acrossLines.flatMap String.utf8EncodeChar, none⟩

/-- The line decoder finds both objects and then the defect, as the decoder of the whole text does: the
first object is not cut off by the end of its first line. -/
theorem decode_acrossLines :
    acrossLinesContents.failure = none ∧ Utf8.text? acrossLinesContents.bytes = .ok acrossLines ∧
      (acrossLines.length : Int) ≤ 64 ∧ (decode acrossLines).found.length = 2 ∧
      (decode acrossLines).ending = .rejected := by
  have decoded : Utf8.text? acrossLinesContents.bytes = .ok acrossLines := Utf8.text?_utf8 acrossLines
  have fits : (acrossLines.length : Int) ≤ 64 := by decide +kernel
  obtain ⟨fields, -, rejected⟩ := ofContents_eq_decode "/t/x.json" rfl decoded fits
  have two : (ofContents "/t/x.json" 64 acrossLinesContents).records.length = 2 := by decide +kernel
  have ends : (ofContents "/t/x.json" 64 acrossLinesContents).failure.map (fun f => f.report.kind) =
      some .fileFormat := by decide +kernel
  refine ⟨rfl, decoded, fits, ?_, ?_⟩
  · rw [← fields, List.length_map, two]
  · exact rejected.mp (Option.map_eq_some_iff.mp ends)

end Records

end SchemaOnRead
