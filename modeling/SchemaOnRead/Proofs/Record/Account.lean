import SchemaOnRead.Proofs.Json.OneLine
import SchemaOnRead.Proofs.Record.Steps

/-!
# An account of the records of a text

The records of an object are told by its text, whatever lines it has (`account_ofContents`): from a place
in the text on, there is an object, or the records end there with a failure, or nothing but blanks is
left. The account says which number of a line goes with a record or a failure. Line feeds are counted in
the text of an object, and carriage returns that stand alone are not, so that a place keeps how many of
these are hidden from the count. A line that begins with no object left over is counted by itself, and
nothing is hidden any more. The account also says where a limit makes a difference: the part of an object
before its last line must not be longer.
-/

namespace SchemaOnRead.Records

open Text

/-! ## Places in a text -/

/-- A place in a text: what stands before it, and how many ends of lines before it are hidden from the
count of lines. -/
structure Place where
  before : List Char := []
  hidden : Nat := 0
  deriving DecidableEq, Repr

namespace Place

/-- The place after blanks. Lines that end in them are counted as they are read, with all before them. -/
def skip (p : Place) (gap : List Char) : Place :=
  ⟨p.before ++ gap, if gap.any isBreak then 0 else p.hidden⟩

/-- The place after an object, in which only line feeds are counted. -/
def pass (p : Place) (object : List Char) : Place :=
  ⟨p.before ++ object, p.hidden + loneReturns object⟩

/-- A number is that of the line at a place, but for what is hidden from the count. -/
def Counts (p : Place) (line : Nat) : Prop := line + p.hidden = 1 + lineEnds p.before

variable {p : Place} {line : Nat} {cs : List Char}

theorem skip_nil (p : Place) : p.skip [] = p := by simp [skip]

theorem skip_skip (p : Place) (first second : List Char) :
    (p.skip first).skip second = p.skip (first ++ second) := by
  simp only [skip, List.append_assoc, List.any_append]
  cases first.any isBreak <;> cases second.any isBreak <;> rfl

theorem hidden_skip_of_break {c : Char} (member : c ∈ cs) (ends : isBreak c = true) :
    (p.skip cs).hidden = 0 := if_pos (List.any_eq_true.mpr ⟨c, member, ends⟩)

theorem hidden_skip_of_none (none : p.hidden = 0) : (p.skip cs).hidden = 0 := by
  simp [skip, none]

/-- Blanks on one line make no difference to its number. -/
theorem Counts.skip (counts : p.Counts line) (plain : ∀ c ∈ cs, isBreak c = false) :
    (p.skip cs).Counts line := by
  have none : ¬ cs.any isBreak = true := by simpa using plain
  rw [Counts, Place.skip, if_neg none, lineEnds_append_plain plain]
  exact counts

/-- After an object, its line feeds are counted. -/
theorem Counts.pass (counts : p.Counts line) (apart : Apart p.before cs) :
    (p.pass cs).Counts (line + cs.count '\n') := by
  rw [Counts] at counts
  rw [Counts, Place.pass, lineEnds_append apart, lineEnds_eq cs]
  simp only
  omega

end Place

/-! ## The account -/

/-- What records are from a place in a text on. -/
inductive Account (path : String) (limit : Int) : Place → List Char → Records → Prop where
  | record {p : Place} {gap object text : List Char} {fields : Value.Fields} {line bytesRead : Nat}
      {rs : Records} (blank : stripLeft gap = [])
      (read : Json.value (object ++ text) = .ok (.object fields, text))
      (fits : 0 ≤ limit → ((throughBreak object).length : Int) ≤ limit)
      (counted : (p.skip gap).Counts line)
      (later : Account path limit ((p.skip gap).pass object) text rs) :
      Account path limit p (gap ++ (object ++ text)) (prepend [(line, fields)] bytesRead rs)
  | refused {p : Place} {gap part more : List Char} {line bytesRead : Nat} (blank : stripLeft gap = [])
      (waiting : Waiting part) (ended : LineEnded part ∨ more = []) (long : limit < part.length) :
      Account path limit p (gap ++ (part ++ more))
        ⟨[], some (malformed path line (.tooLong limit)), bytesRead⟩
  | finished {p : Place} {text : List Char} {bytesRead : Nat} (blank : stripLeft text = []) :
      Account path limit p text ⟨[], none, bytesRead⟩
  | rejected {p : Place} {gap more : List Char} {f : Failure} {bytesRead : Nat}
      (blank : stripLeft gap = []) (solid : stripLeft more = more) (nonempty : more ≠ [])
      (noObject : ∀ fields rest, Json.value more ≠ .ok (.object fields, rest))
      (counted : ∀ line defect, f = malformed path line defect → (p.skip gap).Counts line) :
      Account path limit p (gap ++ more) ⟨[], some f, bytesRead⟩

section

variable {path : String} {limit : Int} {p : Place} {text : List Char} {rs : Records}

theorem blank_append {first second : List Char} (blank : stripLeft first = [])
    (blank' : stripLeft second = []) : stripLeft (first ++ second) = [] := by
  rw [stripLeft_append_of_blank blank, blank']

/-- An account from a place after blanks is one from the place before them. -/
theorem Account.absorb {gap : List Char} (blank : stripLeft gap = [])
    (account : Account path limit (p.skip gap) text rs) : Account path limit p (gap ++ text) rs := by
  cases account with
  | record inner read fits counted later =>
    rw [← List.append_assoc]
    rw [Place.skip_skip] at counted later
    exact .record (blank_append blank inner) read fits counted later
  | refused inner waiting ended long =>
    rw [← List.append_assoc]
    exact .refused (blank_append blank inner) waiting ended long
  | finished inner => exact .finished (blank_append blank inner)
  | rejected inner solid nonempty noObject counted =>
    rw [← List.append_assoc]
    rw [Place.skip_skip] at counted
    exact .rejected (blank_append blank inner) solid nonempty noObject counted

end

/-! ## Text that objects are read from -/

theorem take_of_append {cs first second : List Char} (whole : cs = first ++ second) :
    cs.take (cs.length - second.length) = first := by
  rw [whole, List.length_append, Nat.add_sub_cancel, List.take_left]

/-- An object that is read from a text is a part of it between braces. -/
theorem object_of_read {cs rest : List Char} {fields : Value.Fields}
    (read : Json.value cs = .ok (.object fields, rest)) : ∃ object, cs = object ++ rest ∧
      object.head? = some '\x7b' ∧ object.getLast? = some '\x7d' := by
  obtain ⟨after, begins⟩ := Json.opened_value read
  obtain ⟨body, closed⟩ := Json.closed_value read
  refine ⟨body ++ ['\x7d'], by simp [← closed], ?_, List.getLast?_concat⟩
  cases body with
  | nil =>
    rw [← closed] at begins
    cases begins
  | cons c inner =>
    rw [← closed] at begins
    cases begins
    rfl

/-- What is read beyond the end of a text that waits for more leaves a part of what follows it. -/
theorem rest_of_waiting {part tail rest : List Char} {v : Value} (waiting : Waiting part)
    (ended : LineEnded part) (read : Json.value (part ++ tail) = .ok (v, rest)) : rest <:+ tail := by
  obtain ⟨-, problem, remaining, cut⟩ := waiting
  have extended := Json.extends_value ended tail
  rw [cut] at extended
  rcases extended with ⟨-, later⟩ | failed
  · exact later v rest read
  · cases read.symm.trans failed

/-- A text begins with no object, and is not cut off: neither is what it begins. -/
theorem noObject_append {cs more : List Char} (cut : LineEnded cs ∨ more = [])
    (noObject : ∀ fields rest, Json.value cs ≠ .ok (.object fields, rest))
    (goes : ∀ problem remaining, Json.value cs = .error (.malformed problem remaining) →
      atEnd cs remaining = false) (fields : Value.Fields) (rest : List Char) :
    Json.value (cs ++ more) ≠ .ok (.object fields, rest) := by
  intro read
  have extended := extends_of_cut cut
  rw [read] at extended
  cases first : Json.value cs with
  | ok found =>
    obtain ⟨v, left⟩ := found
    rw [first] at extended
    cases extended
    exact noObject fields left first
  | error fault =>
    rw [first] at extended
    cases fault with
    | malformed problem remaining =>
      rcases extended with ⟨rfl, -⟩ | impossible
      · have ends := goes problem 0 first
        rw [atEnd_zero] at ends
        cases ends
      · cases impossible
    | exponentOutOfRange => cases extended
    | tooManyDigits => cases extended

/-- The text of a buffer: a part that waited, not longer than the limit, and what a line adds to it. -/
def Spread (limit : Int) (text : List Char) : Prop :=
  ∃ part tail, text = part ++ tail ∧ Waiting part ∧ LineEnded part ∧ Unbroken tail ∧
    (0 ≤ limit → (part.length : Int) ≤ limit)

section

variable {limit : Int} {text rest : List Char} {fields : Value.Fields}

theorem Spread.of_unbroken (unbroken : Unbroken text) : Spread limit text :=
  ⟨[], text, rfl, waiting_nil, .nil, unbroken, id⟩

/-- The blanks that a buffer begins with are on one line. -/
theorem Spread.gap (spread : Spread limit text) (nonblank : stripLeft text ≠ []) :
    ∃ gap, text = gap ++ stripLeft text ∧ stripLeft gap = [] ∧ ∀ c ∈ gap, isBreak c = false := by
  obtain ⟨part, tail, rfl, waiting, -, unbroken, -⟩ := spread
  by_cases empty : part = []
  · subst empty
    rw [List.nil_append] at nonblank ⊢
    have whole : tail.takeWhile isBlank ++ stripLeft tail = tail := List.takeWhile_append_dropWhile
    refine ⟨tail.takeWhile isBlank, whole.symm, stripLeft_of_all_blank List.all_takeWhile, ?_⟩
    have solid : isBlank ((stripLeft tail).head nonblank) = false :=
      List.head_dropWhile_not isBlank nonblank
    rw [← whole] at unbroken
    exact unbroken.plain (List.head_mem nonblank) (Json.isBreak_of_not_blank solid)
  · have some : stripLeft part ≠ [] := waiting.1.symm ▸ empty
    refine ⟨[], ?_, rfl, by simp⟩
    rw [stripLeft_append_of_nonblank some, waiting.1, List.nil_append]

/-- An object that a buffer begins with: its part before its last line is not longer than the limit, and
what is left after it is on one line. -/
theorem Spread.object (spread : Spread limit text) (nonblank : stripLeft text ≠ [])
    (read : Json.value (stripLeft text) = .ok (.object fields, rest)) :
    ∃ object, stripLeft text = object ++ rest ∧ object.head? = some '\x7b' ∧
      object.getLast? = some '\x7d' ∧ Unbroken rest ∧
      (0 ≤ limit → ((throughBreak object).length : Int) ≤ limit) := by
  obtain ⟨object, whole, first, last⟩ := object_of_read read
  refine ⟨object, whole, first, last, ?_⟩
  obtain ⟨part, tail, rfl, waiting, ended, unbroken, fits⟩ := spread
  by_cases empty : part = []
  · subst empty
    obtain ⟨before, stripped⟩ := stripLeft_suffix ([] ++ tail)
    rw [whole, List.nil_append] at stripped
    rw [← stripped] at unbroken
    have inner := unbroken.suffix
    refine ⟨inner.suffix, fun positive => ?_⟩
    have none : throughBreak ([] ++ object) = throughBreak [] :=
      throughBreak_append_plain (inner.plain_of_last last (by decide))
    rw [List.nil_append] at none
    rw [none]
    exact positive
  · have solid : stripLeft part ≠ [] := waiting.1.symm ▸ empty
    rw [stripLeft_append_of_nonblank solid, waiting.1] at whole read
    obtain ⟨later, rfl⟩ := rest_of_waiting waiting ended read
    rw [← List.append_assoc] at whole
    obtain rfl := List.append_cancel_right whole
    refine ⟨unbroken.suffix, fun positive => ?_⟩
    have plain : ∀ c ∈ later, isBreak c = false := by
      by_cases none : later = []
      · simp [none]
      · rw [List.getLast?_append_of_ne_nil _ none] at last
        exact unbroken.plain_of_last last (by decide)
    rw [throughBreak_append_plain plain]
    have shorter := length_throughBreak_le part
    have := fits positive
    omega

end

/-! ## Lines that are left -/

/-- Lines are what is left of a text after some of it with `count` lines. -/
structure Divided (past : List Char) (count : Nat) (lines : List Line) : Prop where
  ended : ∀ l ∈ lines.dropLast, LineEnded l.text
  unbroken : ∀ l ∈ lines, Unbroken l.text
  numbered : ∀ before l after, lines = before ++ l :: after →
    lineEnds (past ++ (before.map Line.text).flatten) = count + before.length

section

variable {past : List Char} {count : Nat} {l : Line} {lines : List Line}

theorem Divided.head (divided : Divided past count (l :: lines)) : lineEnds past = count := by
  simpa using divided.numbered [] l lines rfl

theorem Divided.tail (divided : Divided past count (l :: lines)) :
    Divided (past ++ l.text) (count + 1) lines := by
  refine ⟨(forall_mem_dropLast_cons.mp divided.ended).2,
    (List.forall_mem_cons.mp divided.unbroken).2, fun before m after same => ?_⟩
  have numbered := divided.numbered (l :: before) m after (by rw [same]; rfl)
  rw [List.map_cons, List.flatten_cons, ← List.append_assoc, List.length_cons] at numbered
  omega

/-- The lines of a text. -/
theorem divided_of_areOf {ls : Lines} {text : List Char} (areOf : Lines.AreOf ls text)
    (unbroken : ∀ l ∈ ls.lines, Unbroken l.text) : Divided [] 0 ls.lines := by
  refine ⟨areOf.covers.ended, unbroken, fun before l after same => ?_⟩
  have texts := areOf.texts
  rw [same, List.map_append, List.map_cons] at texts
  rw [List.nil_append, Lines.lineEnds_of_wholeLines texts.symm, List.length_map, Nat.zero_add]

end

/-- A buffer with the lines that are left, at a place in the text: it waits for them, and begins on the
line with its number. -/
structure Held (limit : Int) (p : Place) (b : Buffer) (lines : List Line) : Prop where
  waiting : Waiting b.text
  ended : lines ≠ [] → LineEnded b.text
  fits : 0 ≤ limit → (b.text.length : Int) ≤ limit
  counted : b.text ≠ [] → p.Counts b.line
  idle : b.text = [] → lines ≠ [] → p.hidden = 0

section

variable {path : String} {limit : Int} {ls : Lines} {count bytesRead : Nat} {p : Place} {b : Buffer}
  {lines : List Line} {more : List Char}

/-- Records of lines are as the account says wherever a buffer is held. -/
def Accounted (path : String) (limit : Int) (ls : Lines) (count : Nat) (past : List Char)
    (lines : List Line) (more : List Char) : Prop :=
  ∀ p b, Held limit p b lines → p.before ++ b.text = past →
    Account path limit p (b.text ++ more) (ofLinesFrom path limit ls count b lines)

/-- A buffer that has to wait is refused if it is too long. -/
theorem account_waitFor (accounted : Accounted path limit ls count (p.before ++ b.text) lines more)
    (waiting : Waiting b.text) (ended : lines ≠ [] → LineEnded b.text) (cut : lines = [] → more = [])
    (counted : b.text ≠ [] → p.Counts b.line) (idle : b.text = [] → lines ≠ [] → p.hidden = 0) :
    Account path limit p (b.text ++ more) (waitFor path limit ls count bytesRead b lines) := by
  rw [waitFor]
  split
  · rename_i long
    rw [← List.nil_append (b.text ++ more)]
    refine .refused rfl waiting ?_ long
    by_cases last : lines = []
    · exact .inr (cut last)
    · exact .inl (ended last)
  · rename_i short
    exact accounted p b ⟨waiting, ended, fun _ => by omega, counted, idle⟩ rfl

theorem firstLine_eq {gap : List Char} (whole : b.text = gap ++ stripLeft b.text)
    (plain : ∀ c ∈ gap, isBreak c = false) : b.firstLine = b.line := by
  rw [Buffer.firstLine, take_of_append whole, count_of_plain plain, Nat.add_zero]

/-- A buffer of blanks is emptied: the next line is counted by itself. -/
theorem account_blank (blank : stripLeft b.text = [])
    (accounted : Accounted path limit ls count (p.before ++ b.text) lines more)
    (ended : lines ≠ [] → LineEnded b.text ∧ b.text ≠ []) (cut : lines = [] → more = []) :
    Account path limit p (b.text ++ more) (goOn path limit ls count bytesRead b lines) := by
  rw [goOn_blank blank]
  refine .absorb blank ?_
  rw [← List.nil_append more]
  refine account_waitFor (b := { b with text := [] }) ?_ waiting_nil (fun _ => .nil) cut
    (fun none => absurd rfl none) fun _ others => ?_
  · rw [List.append_nil]
    exact accounted
  · obtain ⟨lineEnded, nonempty⟩ := ended others
    exact Place.hidden_skip_of_break (List.getLast_mem nonempty)
      (lineEnded _ (List.getLast?_eq_some_getLast nonempty))

section

variable {gap : List Char} (whole : b.text = gap ++ stripLeft b.text) (blank : stripLeft gap = [])
  (plain : ∀ c ∈ gap, isBreak c = false) (nonblank : stripLeft b.text ≠ []) (counted : p.Counts b.line)
include whole blank plain nonblank counted

/-- An object that a buffer begins with is followed by the records of what it leaves. -/
theorem account_object {object rest : List Char} {fields : Value.Fields}
    (read : Json.value (stripLeft b.text) = .ok (.object fields, rest))
    (solid : stripLeft b.text = object ++ rest)
    (carried : 0 ≤ limit → ((throughBreak object).length : Int) ≤ limit)
    (later : Account path limit ((p.skip gap).pass object) (rest ++ more)
      (goOn path limit ls count bytesRead ⟨rest, b.line + object.count '\n'⟩ lines)) :
    Account path limit p (b.text ++ more) (goOn path limit ls count bytesRead b lines) := by
  have readOn := Json.value_append read rfl more
  rw [solid, List.append_assoc] at readOn
  rw [goOn_object nonblank read, take_of_append solid, firstLine_eq whole plain, whole, solid,
    List.append_assoc, List.append_assoc]
  exact .record blank readOn carried (counted.skip plain) later

/-- A buffer in which a value is cut off waits for the lines that are left. -/
theorem account_waits {problem : Json.Problem} {remaining : Nat}
    (read : Json.value (stripLeft b.text) = .error (.malformed problem remaining))
    (waits : atEnd (stripLeft b.text) remaining = true)
    (accounted : Accounted path limit ls count (p.before ++ b.text) lines more)
    (ended : lines ≠ [] → LineEnded (stripLeft b.text)) (cut : lines = [] → more = []) :
    Account path limit p (b.text ++ more) (goOn path limit ls count bytesRead b lines) := by
  have stripped := stripLeft_stripLeft b.text
  have place : p.before ++ b.text = (p.skip gap).before ++ stripLeft b.text := by
    rw [Place.skip, List.append_assoc, ← whole]
  have text : b.text ++ more = gap ++ (stripLeft b.text ++ more) := by
    rw [← List.append_assoc, ← whole]
  rw [place] at accounted
  rw [goOn_waits nonblank read waits, firstLine_eq whole plain, text]
  refine .absorb blank ?_
  exact account_waitFor (b := ⟨stripLeft b.text, b.line⟩) accounted ⟨stripped, problem, remaining, read⟩
    ended cut (fun _ => counted.skip plain) (fun none => absurd none nonblank)

/-- A buffer that begins with anything else ends the records, on the line on which it begins. -/
theorem account_fails
    (noObject : ∀ fields rest, Json.value (stripLeft b.text) ≠ .ok (.object fields, rest))
    (goes : ∀ problem remaining, Json.value (stripLeft b.text) = .error (.malformed problem remaining) →
      atEnd (stripLeft b.text) remaining = false)
    (ended : lines ≠ [] → LineEnded (stripLeft b.text)) (cut : lines = [] → more = []) :
    Account path limit p (b.text ++ more) (goOn path limit ls count bytesRead b lines) := by
  have stripped := stripLeft_stripLeft b.text
  have text : b.text ++ more = gap ++ (stripLeft b.text ++ more) := by
    rw [← List.append_assoc, ← whole]
  have partCut : LineEnded (stripLeft b.text) ∨ more = [] := by
    by_cases others : lines = []
    · exact .inr (cut others)
    · exact .inl (ended others)
  obtain ⟨f, failed, number⟩ := goOn_fails nonblank noObject goes
  rw [failed, text]
  refine .rejected blank ?_ ?_ (noObject_append partCut noObject goes) fun line defect same => ?_
  · rw [stripLeft_append_of_nonblank (stripped.symm ▸ nonblank), stripped]
  · exact List.append_ne_nil_of_left_ne_nil nonblank more
  · rw [number line defect same, firstLine_eq whole plain]
    exact counted.skip plain

end

/-- The records of a buffer and of the lines after it are as the account says. By induction on the length
of the buffer: an object leaves less of it, all on one line. -/
theorem account_goOn (spread : Spread limit b.text)
    (accounted : Accounted path limit ls count (p.before ++ b.text) lines more)
    (ended : lines ≠ [] → LineEnded b.text ∧ b.text ≠ []) (cut : lines = [] → more = [])
    (counted : p.Counts b.line) :
    Account path limit p (b.text ++ more) (goOn path limit ls count bytesRead b lines) := by
  induction size : b.text.length using Nat.strongRecOn generalizing p b with
  | ind n ih =>
    by_cases nonblank : stripLeft b.text = []
    · exact account_blank nonblank accounted ended cut
    · obtain ⟨gap, whole, blank, plain⟩ := spread.gap nonblank
      have solidEnded : lines ≠ [] → LineEnded (stripLeft b.text) := fun others =>
        (ended others).1.suffix (stripLeft_suffix b.text)
      by_cases object : ∃ fields rest, Json.value (stripLeft b.text) = .ok (.object fields, rest)
      · obtain ⟨fields, rest, read⟩ := object
        obtain ⟨object, solid, head, last, unbroken, carried⟩ := spread.object nonblank read
        have shorter : rest.length < b.text.length :=
          Nat.lt_of_lt_of_le (Json.leaves_value read).length_lt (length_stripLeft_le b.text)
        have apart : Apart (p.skip gap).before object := apart_of_head head (by decide)
        have place : p.before ++ b.text = ((p.skip gap).pass object).before ++ rest := by
          rw [Place.pass, Place.skip, List.append_assoc, List.append_assoc, ← solid, ← whole]
        rw [place] at accounted
        refine account_object whole blank plain nonblank counted read solid carried ?_
        refine ih rest.length (size ▸ shorter) (b := ⟨rest, b.line + object.count '\n'⟩)
          (.of_unbroken unbroken) accounted (fun others => ?_) ((counted.skip plain).pass apart) rfl
        have ends := solidEnded others
        rw [solid] at ends
        refine ⟨ends.suffix (List.suffix_append object rest), ?_⟩
        rintro rfl
        rw [List.append_nil] at ends
        cases ends _ last
      · have noObject : ∀ fields rest, Json.value (stripLeft b.text) ≠ .ok (.object fields, rest) :=
          fun fields rest read => object ⟨fields, rest, read⟩
        by_cases waits : ∃ problem remaining,
            Json.value (stripLeft b.text) = .error (.malformed problem remaining) ∧
              atEnd (stripLeft b.text) remaining = true
        · obtain ⟨problem, remaining, read, waits⟩ := waits
          exact account_waits whole blank plain nonblank counted read waits accounted solidEnded cut
        · refine account_fails whole blank plain nonblank counted noObject ?_ solidEnded cut
          exact fun problem remaining read =>
            eq_false_of_ne_true fun ends => waits ⟨problem, remaining, read, ends⟩

/-- Where no lines are left, a buffer that holds some text is cut off. -/
theorem account_ending (whole : ls.stop = none) (held : Held limit p b []) :
    Account path limit p b.text (ending path ls count b) := by
  rw [ending, whole]
  by_cases empty : b.text = []
  · rw [empty]
    exact .finished rfl
  · have visible : ¬ b.text.all isBlank = true := by
      intro blank
      exact empty (held.waiting.1 ▸ stripLeft_of_all_blank blank)
    obtain ⟨solid, problem, remaining, read⟩ := held.waiting
    simp only
    rw [if_neg visible, ← List.nil_append b.text]
    refine .rejected rfl solid empty (fun fields rest object => ?_) fun line defect same => ?_
    · cases read.symm.trans object
    · cases same
      rw [Place.skip_nil]
      exact held.counted empty

theorem line_of_add {next : Buffer} {number : Nat} {text : List Char}
    (added : b.add number text = some next) :
    next.line = if b.text = [] then number else b.line := by
  rw [Buffer.add] at added
  simp only [List.isEmpty_iff] at added
  split at added
  · split at added
    · cases added
    · cases added
      rename_i empty _
      rw [if_pos empty]
  · cases added
    rename_i some
    rw [if_neg some]

/-- The records of lines are as the account says. By induction on the lines: what they add to a buffer is
decoded, and what is left of it is held. -/
theorem accounted_ofLinesFrom (whole : ls.stop = none) {past : List Char}
    (divided : Divided past count lines) :
    Accounted path limit ls count past lines (lines.map Line.text).flatten := by
  induction lines generalizing count past with
  | nil =>
    intro p b held _
    rw [List.map_nil, List.flatten_nil, List.append_nil, ofLinesFrom]
    exact account_ending whole held
  | cons l rest ih =>
    intro p b held same
    subst same
    have accounted := ih divided.tail
    have lineEnded := (forall_mem_dropLast_cons.mp divided.ended).1
    have bufferEnded := held.ended (List.cons_ne_nil l rest)
    have idle : b.text = [] → p.hidden = 0 := fun empty => held.idle empty (List.cons_ne_nil l rest)
    rw [List.map_cons, List.flatten_cons, ← List.append_assoc]
    have cut : rest = [] → (rest.map Line.text).flatten = [] := by
      rintro rfl
      rfl
    rcases add_cases b (count + 1) l.text with ⟨passed, empty, blank⟩ | ⟨next, added, text⟩
    · have rest' := accounted (p.skip l.text) b ⟨held.waiting, fun _ => empty ▸ .nil, held.fits,
        fun nonempty => absurd empty nonempty, fun _ _ => Place.hidden_skip_of_none (idle empty)⟩
      rw [ofLinesFrom_passed passed, empty, List.nil_append]
      refine .absorb blank ?_
      rw [empty] at rest'
      exact rest' (by simp [Place.skip])
    · rw [ofLinesFrom_added added, ← text]
      rw [List.append_assoc, ← text] at accounted
      refine account_goOn ⟨b.text, l.text, text, held.waiting, bufferEnded,
        divided.unbroken l List.mem_cons_self, held.fits⟩ accounted (fun others => ?_) cut ?_
      · rw [text]
        refine ⟨bufferEnded.append (lineEnded others), fun none => ?_⟩
        exact nonblank_of_add added held.waiting (by rw [text, none]; rfl)
      · rw [line_of_add added]
        split
        · rename_i empty
          have number := divided.head
          rw [empty, List.append_nil] at number
          rw [Place.Counts, idle empty, number]
          omega
        · rename_i nonempty
          exact held.counted nonempty

/-- The records of contents are told by the text that these hold. -/
theorem account_ofContents {c : Contents} {text : List Char} (intact : c.failure = none)
    (decoded : Utf8.text? c.bytes = .ok text) :
    Account path limit {} text (ofContents path limit c) := by
  have areOf := Lines.areOf_ofContents intact decoded
  have divided := divided_of_areOf areOf Lines.unbroken_ofChunks
  have held : Held limit {} {} (Lines.ofContents false c).lines :=
    ⟨waiting_nil, fun _ => .nil, id, fun nonempty => absurd rfl nonempty, fun _ _ => rfl⟩
  have account : Account path limit {} _ _ := accounted_ofLinesFrom areOf.whole divided {} {} held rfl
  rw [List.nil_append, areOf.covers.texts] at account
  exact account

end

end SchemaOnRead.Records
