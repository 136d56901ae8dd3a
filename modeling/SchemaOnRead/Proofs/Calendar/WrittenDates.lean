import SchemaOnRead.Calendar.Pattern
import SchemaOnRead.Proofs.Calendar.IsoText
import SchemaOnRead.Proofs.Regex.Ways

/-!
# Dates written after a pattern

`Date.written` writes a date after a pattern with the letters for a day, a month and a year, with English
names and numbers padded with zeros. Every field is read as it was written, whatever comes after it, so a
pattern reads the fields it wrote (`match?_text`), and if these are a day, a month and a year, it reads the
date (`moment?_text`).
-/

namespace SchemaOnRead

open Text Regex

open Iso8601 (digits isDigits_digits length_digits)

namespace Date

/-! ## Writing dates -/

def englishMonths : List String :=
  ["January", "February", "March", "April", "May", "June", "July", "August", "September", "October",
    "November", "December"]

/-- The name of a date's month. -/
def monthName (d : Date) : List Char := (englishMonths.getD (d.month - 1) "").toList

/-- The part of a date that a letter after a percent sign stands for. -/
def letterText (d : Date) : Char → List Char
  | 'd' => digits 2 d.day
  | 'm' => digits 2 d.month
  | 'Y' => digits 4 d.year
  | 'b' => d.monthName.take 3
  | 'B' => d.monthName
  | c => ['%', c]

/-- A date after the characters of a pattern; what is no letter after a percent sign is written as it is. -/
def writtenChars (d : Date) : List Char → List Char
  | '%' :: c :: rest => d.letterText c ++ writtenChars d rest
  | c :: rest => c :: writtenChars d rest
  | [] => []

/-- A date after a pattern. -/
def written (d : Date) (pattern : String) : String := String.ofList (d.writtenChars pattern.toList)

end Date

/-! ## The text of a pattern's elements -/

/-- The letter of a part of a date. -/
def DateField.letter? : DateField → Option Char
  | .day => some 'd'
  | .month => some 'm'
  | .year => some 'Y'
  | .monthShortName => some 'b'
  | .monthName => some 'B'
  | _ => none

/-- What a field is for a date. -/
def DateField.text (d : Date) (f : DateField) : List Char := (f.letter?.map d.letterText).getD []

/-- What an element is for a date. -/
def PatternElement.text (d : Date) : PatternElement → List Char
  | .char c => [c]
  | .blanks => [' ']
  | .field f => f.text d

namespace DatePattern

/-- What a pattern is for a date. -/
def text (d : Date) (p : DatePattern) : List Char := p.flatMap (·.text d)

/-- Whether an element may come after blanks. -/
def endsBlanks : PatternElement → Bool
  | .char c => !isBlank (lowerChar c)
  | .blanks => false
  | .field _ => true

/-- Whether all fields of a pattern are parts of a date, and no blanks come after blanks. -/
def isCalendar : DatePattern → Bool
  | [] => true
  | .char _ :: rest => isCalendar rest
  | .blanks :: rest => rest.head?.all endsBlanks && isCalendar rest
  | .field f :: rest => f.letter?.isSome && isCalendar rest

/-! ## Reading one field -/

section

variable {d : Date} {f : DateField}

theorem takesFirst_day : ∀ n < 32, 0 < n → (fieldNode .day).takesFirst (digits 2 n) = true := by
  decide

theorem takesFirst_month : ∀ n < 13, 0 < n → (fieldNode .month).takesFirst (digits 2 n) = true := by
  decide

/-- No name of a month is the start of one that is tried after it. -/
theorem takesFirst_monthName : ∀ n < 13, 0 < n →
    (fieldNode .monthName).takesFirst (Date.monthName ⟨1, n, 1⟩) = true ∧
      (fieldNode .monthShortName).takesFirst ((Date.monthName ⟨1, n, 1⟩).take 3) = true := by
  decide

theorem takesFirst_digit {c : Char} (isDigit : isAsciiDigit c = true) :
    setHolds true false [.category false false .digit] c = true :=
  digit_induction (motive := fun c => setHolds true false [.category false false .digit] c = true)
    (by decide) isDigit

theorem takesFirst_year {n : Nat} (short : n < 10000) :
    (fieldNode .year).takesFirst (digits 4 n) = true := by
  have isDigits := isDigits_digits 4 n
  have length := length_digits (show 0 < 4 by decide) short
  generalize digits 4 n = ds at isDigits length
  match ds, length with
  | [a, b, c, e], _ =>
    have taken : ∀ x ∈ [a, b, c, e], setHolds true false [.category false false .digit] x = true :=
      fun x member => takesFirst_digit (isDigits.digits x member)
    simp only [List.forall_mem_cons] at taken
    obtain ⟨first, second, third, fourth, -⟩ := taken
    simp [Node.takesFirst, fieldNode, inOrder, digit, Node.ways?, Node.goOn, first, second, third, fourth]

/-- A part of a date is read as it is written, whatever comes after it. -/
theorem takesFirst_text (valid : d.isValid = true) (part : f.letter?.isSome = true) :
    (fieldNode f).takesFirst (f.text d) = true := by
  obtain ⟨year, ⟨firstMonth, lastMonth⟩, firstDay, lastDay⟩ := Date.short_of_isValid valid
  cases f with
  | day => exact takesFirst_day d.day lastDay firstDay
  | month => exact takesFirst_month d.month lastMonth firstMonth
  | year => exact takesFirst_year year
  | monthName => exact (takesFirst_monthName d.month lastMonth firstMonth).1
  | monthShortName => exact (takesFirst_monthName d.month lastMonth firstMonth).2
  | _ => cases part

/-- Whether a character is no blank, in either case. -/
def isSolid (c : Char) : Bool := !isBlank c && !isBlank (lowerChar c)

theorem monthName_solid : ∀ n < 13, 0 < n →
    (Date.monthName ⟨1, n, 1⟩).take 3 ≠ [] ∧ (Date.monthName ⟨1, n, 1⟩).all isSolid = true := by
  decide

theorem digits_solid (width n : Nat) : digits width n ≠ [] ∧ ∀ c ∈ digits width n, isSolid c = true := by
  have isDigits := isDigits_digits width n
  refine ⟨isDigits.nonempty, fun c member => ?_⟩
  apply digit_induction (motive := fun c => isSolid c = true) (by decide)
  exact isDigits.digits c member

/-- A part of a date has a text, and there are no blanks in it. -/
theorem text_solid (valid : d.isValid = true) (part : f.letter?.isSome = true) :
    f.text d ≠ [] ∧ ∀ c ∈ f.text d, isSolid c = true := by
  obtain ⟨-, ⟨firstMonth, lastMonth⟩, -⟩ := Date.short_of_isValid valid
  obtain ⟨some, solid⟩ := monthName_solid d.month lastMonth firstMonth
  rw [List.all_eq_true] at solid
  cases f with
  | day => exact digits_solid 2 d.day
  | month => exact digits_solid 2 d.month
  | year => exact digits_solid 4 d.year
  | monthName =>
    refine ⟨?_, solid⟩
    intro none
    have name : Date.monthName ⟨1, d.month, 1⟩ = [] := none
    rw [name] at some
    exact some rfl
  | monthShortName => exact ⟨some, fun c member => solid c (List.mem_of_mem_take member)⟩
  | _ => cases part

end

/-! ## Reading a pattern -/

section

variable {d : Date} {p : DatePattern}

theorem run_inOrder_cons (n : Node) (ns : List Node) (st : State) (k : Continuation) :
    (inOrder (n :: ns)).run st k = n.run st fun st' => (inOrder ns).run st' k := by
  cases ns with
  | nil => rfl
  | cons m ns => rfl

theorem takesFirst_literal (c : Char) : (literal c).takesFirst [c] = true := by
  simp [Node.takesFirst, literal, Node.ways?, sameIgnoringCase]

/-- One blank is read as blanks if no blank comes after it. -/
theorem run_blanks {st : State} {rest : List Char} (here : st.after = ' ' :: rest)
    (ended : ∀ c ∈ rest.head?, isBlank (lowerChar c) = false) {k : Continuation} {r : State}
    (later : k (st.past [' '] rest) = some r) :
    (Node.loop .most 1 none (.set true false [.category false false .space])).run st k = some r := by
  have blank : setHolds true false [.category false false .space] ' ' = true := by decide
  have other : (st.past [' '] rest).next? (setHolds true false [.category false false .space]) = none := by
    rw [State.next?, State.past]
    cases rest with
    | nil => rfl
    | cons c more =>
      have solid : isBlank (lowerChar c) = false := ended c rfl
      simp [setHolds, SetItem.holds, Category.holds, solid]
  have next : st.next? (setHolds true false [.category false false .space]) = some (st.past [' '] rest) := by
    rw [State.next?, here]
    simp [blank, State.past]
  have fuel : 1 + st.after.length + 2 = (st.after.length + 1) + 1 + 1 := by omega
  rw [Node.run, fuel, repeatPart]
  simp only [Nat.zero_lt_one, if_true, Node.run, next, Option.bind_some]
  rw [repeatPart]
  simp only [Nat.lt_irrefl, if_false, other, Option.bind_none, ite_self, later]

theorem text_cons (e : PatternElement) : text d (e :: p) = e.text d ++ text d p := by
  rw [text, List.flatMap_cons, text]

/-- What comes after blanks in a text of a pattern is no blank. -/
theorem text_afterBlanks (valid : d.isValid = true) (calendar : p.isCalendar = true)
    (ends : p.head?.all endsBlanks = true) : ∀ c ∈ (text d p).head?, isBlank (lowerChar c) = false := by
  intro c first
  cases p with
  | nil => cases first
  | cons e rest =>
    rw [text_cons] at first
    cases e with
    | char x =>
      cases first
      simpa [endsBlanks] using ends
    | blanks => cases ends
    | field f =>
      rw [isCalendar, Bool.and_eq_true] at calendar
      obtain ⟨some, solid⟩ := text_solid valid calendar.1
      rw [PatternElement.text, List.head?_append_of_ne_nil _ some] at first
      have whole := solid c (List.mem_of_mem_head? first)
      rw [isSolid, Bool.and_eq_true] at whole
      simpa using whole.2

/-- A pattern reads its own text to the end, and its groups are the texts of its fields. -/
theorem run_nodes (valid : d.isValid = true) (calendar : p.isCalendar = true) (index : Nat) (st : State)
    (here : st.after = text d p) :
    ∃ final, (inOrder (nodes index p)).run st some = some final ∧ final.after = [] ∧
      final.groups = ((p.fields.zipIdx index).map fun f => (f.2, f.1.text d)).reverse ++ st.groups := by
  induction p generalizing index st with
  | nil => exact ⟨st, rfl, here, rfl⟩
  | cons e rest ih =>
    rw [text_cons] at here
    cases e with
    | char c =>
      obtain ⟨final, found, ended, groups⟩ := ih calendar index (st.past [c] (text d rest)) rfl
      refine ⟨final, ?_, ended, groups⟩
      rw [nodes, run_inOrder_cons]
      exact Node.run_of_takesFirst (takesFirst_literal c) here found
    | blanks =>
      rw [isCalendar, Bool.and_eq_true] at calendar
      obtain ⟨final, found, ended, groups⟩ := ih calendar.2 index (st.past [' '] (text d rest)) rfl
      refine ⟨final, ?_, ended, groups⟩
      rw [nodes, run_inOrder_cons]
      exact run_blanks here (text_afterBlanks valid calendar.2 calendar.1) found
    | field f =>
      rw [isCalendar, Bool.and_eq_true] at calendar
      obtain ⟨final, found, ended, groups⟩ := ih calendar.2 (index + 1)
        { st.past (f.text d) (text d rest) with groups := (index, f.text d) :: st.groups } rfl
      have since : (st.past (f.text d) (text d rest)).since st.position = f.text d := by
        simp [State.since, State.past]
      refine ⟨final, ?_, ended, ?_⟩
      · rw [nodes, run_inOrder_cons, Node.run]
        apply Node.run_of_takesFirst (takesFirst_text valid calendar.1) here
        rw [since]
        exact found
      · rw [groups]
        simp [fields]

/-- A pattern reads from its own text the fields as they are written. -/
theorem match?_text (valid : d.isValid = true) (calendar : p.isCalendar = true) :
    p.match? (text d p) = some (p.fields.map fun f => (f, f.text d)) := by
  obtain ⟨final, found, ended, groups⟩ := run_nodes valid calendar 1 ⟨[], text d p, 0, []⟩ rfl
  have numbers : (final.groups.map Prod.fst).Nodup := by
    have indices : final.groups.map Prod.fst = (List.range' 1 p.fields.length).reverse := by
      rw [groups, List.append_nil, List.map_reverse, List.map_map, ← List.zipIdx_map_snd]
      rfl
    rw [indices, List.nodup_reverse]
    exact List.nodup_range'
  have read : ∀ f ∈ p.fields.zipIdx 1, (f.1, (final.group? f.2).getD []) = (f.1, f.1.text d) := by
    intro f member
    have there : (f.2, f.1.text d) ∈ final.groups := by
      rw [groups, List.append_nil, List.mem_reverse]
      exact List.mem_map_of_mem (f := fun f => (f.2, f.1.text d)) member
    rw [State.group?, lookup_of_mem numbers there, Option.getD_some]
  rw [match?, found]
  simp only [ended, List.isEmpty_nil, if_true, Option.some.injEq]
  have fields : (p.fields.zipIdx 1).map Prod.fst = p.fields := List.zipIdx_map_fst ..
  rw [List.map_congr_left read]
  conv_rhs => rw [← fields, List.map_map]
  rfl

/-! ## From fields to the date -/

/-- What some parts of a date say. -/
def Found.ofFields (d : Date) (fs : List DateField) : Found :=
  { year := if .year ∈ fs then some (d.year : Int) else none
    month := if .month ∈ fs ∨ .monthName ∈ fs ∨ .monthShortName ∈ fs then d.month else 1
    day := if .day ∈ fs then d.day else 1 }

theorem number?_digits {width : Nat} (n : Nat) (short : (digits width n).length ≤ 4300) :
    number? (digits width n) = some (n : Int) := by
  have read := readInteger?_digits false (isDigits_digits width n)
  rw [if_neg (Nat.not_lt.mpr short), Iso8601.natural?_digits] at read
  exact read

theorem nameIndex?_monthName : ∀ n < 13, 0 < n →
    nameIndex? monthNames (Date.monthName ⟨1, n, 1⟩) = some ((n : Int) - 1) ∧
      nameIndex? (monthNames.map shortName) ((Date.monthName ⟨1, n, 1⟩).take 3) = some ((n : Int) - 1) := by
  decide

/-- A part of a date is taken for what it was written for. -/
theorem take?_text (valid : d.isValid = true) {f : DateField} (part : f.letter?.isSome = true)
    (meridiem : List Char) (fs : List DateField) :
    (Found.ofFields d fs).take? meridiem (f, f.text d) = some (Found.ofFields d (fs ++ [f])) := by
  obtain ⟨year, ⟨firstMonth, lastMonth⟩, firstDay, lastDay⟩ := Date.short_of_isValid valid
  have two (n : Nat) (short : n < 100) : number? (digits 2 n) = some (n : Int) := by
    apply number?_digits
    rw [length_digits (by decide) short]
    decide
  have four : number? (digits 4 d.year) = some (d.year : Int) := by
    apply number?_digits
    rw [length_digits (by decide) year]
    decide
  have names := nameIndex?_monthName d.month lastMonth firstMonth
  cases f with
  | day =>
    have text : DateField.day.text d = digits 2 d.day := rfl
    rw [Found.take?, text, two d.day (by omega)]
    simp [Found.ofFields]
  | month =>
    have text : DateField.month.text d = digits 2 d.month := rfl
    rw [Found.take?, text, two d.month (by omega)]
    simp [Found.ofFields]
  | year =>
    have text : DateField.year.text d = digits 4 d.year := rfl
    rw [Found.take?, text, four]
    simp [Found.ofFields]
  | monthName =>
    have text : DateField.monthName.text d = Date.monthName ⟨1, d.month, 1⟩ := rfl
    rw [Found.take?, text, names.1]
    simp [Found.ofFields]
  | monthShortName =>
    have text : DateField.monthShortName.text d = (Date.monthName ⟨1, d.month, 1⟩).take 3 := rfl
    rw [Found.take?, text, names.2]
    simp [Found.ofFields]
  | _ => cases part

/-- The parts of a date are taken one after another. -/
theorem foldlM_take? (valid : d.isValid = true) (meridiem : List Char) {fs : List DateField}
    (parts : ∀ f ∈ fs, f.letter?.isSome = true) (done : List DateField) :
    (fs.map fun f => (f, f.text d)).foldlM (Found.take? meridiem) (Found.ofFields d done) =
      some (Found.ofFields d (done ++ fs)) := by
  induction fs generalizing done with
  | nil => simp
  | cons f rest ih =>
    rw [List.map_cons, List.foldlM_cons, take?_text valid (parts f (List.mem_cons_self ..))]
    change List.foldlM _ _ _ = _
    rw [ih (fun g member => parts g (List.mem_cons_of_mem f member)), List.append_assoc]
    rfl

/-- A day, a month and a year tell the date. -/
theorem moment?_ofFields (valid : d.isValid = true) {fs : List DateField} (day : .day ∈ fs)
    (month : .month ∈ fs ∨ .monthName ∈ fs ∨ .monthShortName ∈ fs) (year : .year ∈ fs) :
    (Found.ofFields d fs).moment? = some ⟨d, 0, 0, 0, 0, none⟩ := by
  have told : Found.ofFields d fs = { year := some d.year, month := d.month, day := d.day } := by
    simp [Found.ofFields, day, month, year]
  have inRange : ¬ ((d.year : Int) < 0 ∨ (d.month : Int) < 0 ∨ (d.day : Int) < 0) := by omega
  have date : (Found.ofFields d fs).date? = some d := by
    rw [told]
    simp [Found.date?, Found.dayInYear?, inRange, Date.of?, valid]
  have midnight : Moment.isValid ⟨d, 0, 0, 0, 0, none⟩ = true := by
    simp [Moment.isValid, valid]
  rw [Found.moment?, date, told]
  simp [Found.isCoherent, Moment.of?, midnight]

theorem letter?_of_isCalendar (calendar : p.isCalendar = true) : ∀ f ∈ p.fields, f.letter?.isSome = true := by
  induction p with
  | nil =>
    intro f member
    cases member
  | cons e rest ih =>
    cases e with
    | char c => exact ih calendar
    | blanks =>
      rw [isCalendar, Bool.and_eq_true] at calendar
      exact ih calendar.2
    | field f =>
      rw [isCalendar, Bool.and_eq_true] at calendar
      exact List.forall_mem_cons.mpr ⟨calendar.1, ih calendar.2⟩

/-- A pattern with a day, a month and a year reads from its own text the date. -/
theorem moment?_text (valid : d.isValid = true) (calendar : p.isCalendar = true) (day : .day ∈ p.fields)
    (month : .month ∈ p.fields ∨ .monthName ∈ p.fields ∨ .monthShortName ∈ p.fields) (year : .year ∈ p.fields) :
    p.moment? (text d p) = some ⟨d, 0, 0, 0, 0, none⟩ := by
  have parts := letter?_of_isCalendar calendar
  have start : ({ } : Found) = Found.ofFields d [] := by simp [Found.ofFields]
  rw [moment?, match?_text valid calendar]
  simp only [Option.bind_eq_bind, Option.bind_some]
  rw [start, foldlM_take? valid _ parts, Option.bind_some]
  exact moment?_ofFields valid day month year

/-- There are no blanks around the text of a pattern that begins and ends with fields. -/
theorem strip_text (valid : d.isValid = true) (calendar : p.isCalendar = true) {f g : DateField}
    (first : p.head? = some (.field f)) (last : p.getLast? = some (.field g)) :
    strip (text d p) = text d p := by
  have parts := letter?_of_isCalendar calendar
  have solid : ∀ h, .field h ∈ p → h.text d ≠ [] ∧ ∀ c ∈ h.text d, isBlank c = false := by
    intro h member
    have listed : h ∈ p.fields := List.mem_filterMap.mpr ⟨.field h, member, rfl⟩
    obtain ⟨some, solid⟩ := text_solid valid (parts h listed)
    refine ⟨some, fun c inside => ?_⟩
    have whole := solid c inside
    rw [isSolid, Bool.and_eq_true] at whole
    simpa using whole.1
  apply strip_of_ends
  · intro c start
    obtain ⟨rest, rfl⟩ := List.head?_eq_some_iff.mp first
    obtain ⟨some, inside⟩ := solid f (List.mem_cons_self ..)
    rw [text_cons, PatternElement.text, List.head?_append_of_ne_nil _ some] at start
    exact inside c (List.mem_of_mem_head? start)
  · intro c stop
    obtain ⟨before, rfl⟩ := List.getLast?_eq_some_iff.mp last
    obtain ⟨some, inside⟩ := solid g (List.mem_append_right _ (List.mem_singleton_self _))
    have parted : text d (before ++ [.field g]) = text d before ++ g.text d := by
      simp [text, PatternElement.text]
    rw [parted, List.getLast?_append_of_ne_nil _ some] at stop
    exact inside c (List.mem_of_mem_getLast? stop)

end

end DatePattern

end SchemaOnRead
