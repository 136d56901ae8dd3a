import Mathlib.Data.List.Permutation
import SchemaOnRead.Proofs.Record.Account

/-!
# Records of text that is laid out

A text is laid out as objects, with blanks before each of them, and a rest that begins with no object.
Records are just these objects. Their lines are as the places of the objects say, and so is the line of a
failure (`ofContents_lines`): a number is right where nothing is hidden from the count of lines. A limit
is not for the length of an object, but for that of its part before its last line
(`ofContents_limited`).
-/

namespace SchemaOnRead.Records

open Text

/-- An object in a text, with the blanks before it. -/
structure Piece where
  gap : List Char
  object : List Char
  fields : Value.Fields

/-- A text is laid out as objects, with blanks before each of them, and a rest. Each object is read where
it stands, with the text that follows it. -/
inductive LaidOut : List Char → List Piece → List Char → Prop where
  | rest (text : List Char) : LaidOut text [] text
  | piece {gap object text rest : List Char} {fields : Value.Fields} {os : List Piece}
      (blank : stripLeft gap = []) (read : Json.value (object ++ text) = .ok (.object fields, text))
      (later : LaidOut text os rest) : LaidOut (gap ++ (object ++ text)) (⟨gap, object, fields⟩ :: os) rest

/-- No object is at the start of a text, blanks aside. -/
def NoObject (text : List Char) : Prop :=
  ∀ fields rest, Json.value (stripLeft text) ≠ .ok (.object fields, rest)

/-! ## What a layout is -/

section

variable {text rest : List Char} {os : List Piece}

theorem noObject_of_blank (blank : stripLeft text = []) : NoObject text := by
  intro fields rest read
  rw [blank] at read
  cases read.symm.trans (Json.valueFrom_nil _)

/-- An object is read where it stands, and nowhere before it. -/
theorem stripLeft_of_read {gap cs rest : List Char} {fields : Value.Fields} (blank : stripLeft gap = [])
    (read : Json.value cs = .ok (.object fields, rest)) : stripLeft (gap ++ cs) = cs := by
  obtain ⟨after, rfl⟩ := Json.opened_value read
  rw [stripLeft_append_of_blank blank]
  rfl

theorem laidOut_cases (laidOut : LaidOut text os rest) : os = [] ∧ rest = text ∨
    ∃ o later more, os = o :: later ∧ text = o.gap ++ (o.object ++ more) ∧ stripLeft o.gap = [] ∧
      Json.value (o.object ++ more) = .ok (.object o.fields, more) ∧ LaidOut more later rest := by
  cases laidOut with
  | rest => exact .inl ⟨rfl, rfl⟩
  | piece blank read later => exact .inr ⟨_, _, _, rfl, rfl, blank, read, later⟩

/-- A text that begins with an object is laid out with it as its first piece. -/
theorem LaidOut.of_object {gap object more : List Char} {fields : Value.Fields}
    (laidOut : LaidOut (gap ++ (object ++ more)) os rest) (ends : NoObject rest)
    (blank : stripLeft gap = []) (read : Json.value (object ++ more) = .ok (.object fields, more)) :
    ∃ later, os = ⟨gap, object, fields⟩ :: later ∧ LaidOut more later rest := by
  have solid := stripLeft_of_read blank read
  rcases laidOut_cases laidOut with ⟨-, rfl⟩ | ⟨o, later, more', rfl, whole, blank', read', others⟩
  · rw [NoObject, solid] at ends
    exact absurd read (ends fields more)
  · have same := whole ▸ solid
    rw [stripLeft_of_read blank' read'] at same
    rw [same, read] at read'
    cases read'
    rw [same] at whole
    have sameGap := List.append_cancel_right whole
    have sameObject := List.append_cancel_right same
    obtain ⟨gap', object', fields'⟩ := o
    simp only at sameGap sameObject
    subst sameGap sameObject
    exact ⟨later, rfl, others⟩

theorem LaidOut.of_noObject (laidOut : LaidOut text os rest) (ends : NoObject text) : os = [] := by
  rcases laidOut_cases laidOut with ⟨none, -⟩ | ⟨o, later, more, -, rfl, blank, read, -⟩
  · exact none
  · rw [NoObject, stripLeft_of_read blank read] at ends
    exact absurd read (ends o.fields more)

/-- Every object of a layout ends after its last end of a line. -/
theorem LaidOut.length_throughBreak_lt (laidOut : LaidOut text os rest) :
    ∀ o ∈ os, (throughBreak o.object).length < o.object.length := by
  induction laidOut with
  | rest => simp
  | @piece gap object text rest fields os blank read later ih =>
    refine List.forall_mem_cons.mpr ⟨?_, ih⟩
    obtain ⟨same, whole, -, last⟩ := object_of_read read
    obtain rfl := List.append_cancel_right whole
    obtain ⟨body, rfl⟩ := List.getLast?_eq_some_iff.mp last
    have shorter := length_throughBreak_le body
    rw [throughBreak_append_plain (by decide), List.length_append, List.length_singleton]
    omega

end

namespace Place

/-- The places of objects, from a place on. -/
def starts (p : Place) : List Piece → List Place
  | [] => []
  | o :: os => p.skip o.gap :: ((p.skip o.gap).pass o.object).starts os

/-- The place after objects, from a place on. -/
def after (p : Place) : List Piece → Place
  | [] => p
  | o :: os => ((p.skip o.gap).pass o.object).after os

end Place

/-! ## Numbers of lines -/

section

variable {path : String} {limit : Int} {p : Place} {text : List Char} {rs : Records}

/-- Records are the objects that a text is laid out as, and end without a failure where nothing but blanks
is left. Each of them, and a failure that ends them, has the number of the line at its place, but for what
is hidden there. -/
structure Numbered (path : String) (p : Place) (text : List Char) (rs : Records) (os : List Piece)
    (rest : List Char) : Prop where
  laidOut : LaidOut text os rest
  noObject : NoObject rest
  fields : rs.records.map Record.fields = os.map Piece.fields
  whole : rs.failure = none ↔ stripLeft rest = []
  lines : List.Forall₂ Place.Counts (p.starts os) (rs.records.map Record.line)
  failure : ∀ line defect, rs.failure = some (malformed path line defect) →
    ((p.after os).skip (rest.takeWhile isBlank)).Counts line

/-- The numbers of an account within the limit. By induction on the account. -/
theorem Account.numbered (account : Account path limit p text rs) (fits : (text.length : Int) ≤ limit) :
    ∃ os rest, Numbered path p text rs os rest := by
  induction account with
  | @record p gap object text fields line bytesRead rs blank read _ counted later ih =>
    obtain ⟨os, rest, numbered⟩ := ih (by simp only [List.length_append] at fits; omega)
    refine ⟨⟨gap, object, fields⟩ :: os, rest, .piece blank read numbered.laidOut, numbered.noObject, ?_,
      numbered.whole, .cons counted numbered.lines, numbered.failure⟩
    exact congrArg (fields :: ·) numbered.fields
  | refused blank waiting ended long =>
    simp only [List.length_append] at fits
    omega
  | @finished p text bytesRead blank =>
    exact ⟨[], text, .rest text, noObject_of_blank blank, rfl, by simp [blank], .nil, nofun⟩
  | @rejected p gap more f bytesRead blank solid nonempty noObject counted =>
    have stripped : stripLeft (gap ++ more) = more := by
      rw [stripLeft_append_of_blank blank, solid]
    refine ⟨[], gap ++ more, .rest _, ?_, rfl, ?_, .nil, fun line defect same => ?_⟩
    · rw [NoObject, stripped]
      exact noObject
    · rw [stripped]
      exact iff_of_false (Option.some_ne_none f) nonempty
    · have before : (gap ++ more).takeWhile isBlank = gap := by
        have whole := List.takeWhile_append_dropWhile (p := isBlank) (l := gap ++ more)
        rw [show (gap ++ more).dropWhile isBlank = more from stripped] at whole
        exact List.append_cancel_right whole
      rw [before]
      exact counted line defect (Option.some.inj same)

/-- The records of contents that hold a text within the limit are the objects that it is laid out as. The
line of each of them, and of the failure that ends them, is one more than the ends of lines before its
place, less those that are hidden there: carriage returns that stand alone in objects, since the last end
of a line between objects. The records end with a failure where more than blanks is left. -/
theorem ofContents_lines (path : String) {limit : Int} {c : Contents} {text : List Char}
    (intact : c.failure = none) (decoded : Utf8.text? c.bytes = .ok text)
    (fits : (text.length : Int) ≤ limit) :
    ∃ os rest, Numbered path {} text (ofContents path limit c) os rest :=
  (account_ofContents intact decoded).numbered fits

end

/-- An object with a carriage return in it that stands alone. -/
def twoLines : List Char := "\x7b\"a\":\r1\x7d".toList

def oneLine : List Char := "\x7b\"b\": 2\x7d".toList

def hiddenReturn : List Char := [] ++ (twoLines ++ ([' '] ++ (oneLine ++ ['\n'])))

def hiddenReturnContents : Contents := ⟨hiddenReturn.flatMap String.utf8EncodeChar, none⟩

/-- An object after one with a carriage return in it stands on the second line, and has the number of the
first one. -/
theorem ofContents_lines_hiddenReturn : hiddenReturnContents.failure = none ∧
    Utf8.text? hiddenReturnContents.bytes = .ok hiddenReturn ∧ (hiddenReturn.length : Int) ≤ 64 ∧
    (ofContents "/t/x.json" 64 hiddenReturnContents).records.map Record.line = [1, 1] ∧
    ∃ os rest, Numbered "/t/x.json" {} hiddenReturn (ofContents "/t/x.json" 64 hiddenReturnContents) os rest ∧
      Place.starts {} os = [⟨[], 0⟩, ⟨twoLines ++ [' '], 1⟩] ∧ lineEnds (twoLines ++ [' ']) = 1 := by
  have decoded : Utf8.text? hiddenReturnContents.bytes = .ok hiddenReturn := Utf8.text?_utf8 hiddenReturn
  have fits : (hiddenReturn.length : Int) ≤ 64 := by decide +kernel
  obtain ⟨os, rest, numbered⟩ := ofContents_lines "/t/x.json" rfl decoded fits
  have second : Json.value (oneLine ++ ['\n']) = .ok (.object [("b", .integer 2)], ['\n']) := by cbv
  have first : Json.value (twoLines ++ ([' '] ++ (oneLine ++ ['\n']))) =
      .ok (.object [("a", .integer 1)], [' '] ++ (oneLine ++ ['\n'])) := by cbv
  obtain ⟨others, rfl, afterFirst⟩ := numbered.laidOut.of_object numbered.noObject rfl first
  obtain ⟨none, rfl, afterSecond⟩ := afterFirst.of_object numbered.noObject rfl second
  obtain rfl := afterSecond.of_noObject (noObject_of_blank rfl)
  exact ⟨rfl, decoded, fits, by decide +kernel, _, rest, numbered, by decide +kernel, by decide +kernel⟩

/-! ## The limit -/

/-- Whether the part of an object before its last line is within a limit. -/
def Piece.isWithin (limit : Int) (o : Piece) : Bool := ((throughBreak o.object).length : Int) ≤ limit

/-- Records are the first of some objects, those before the first one that is not within the limit unless
the limit is negative; there they end with a failure. -/
structure Limited (path : String) (limit : Int) (rs : Records) (os : List Piece) : Prop where
  first : rs.records.map Record.fields <+: os.map Piece.fields
  within : 0 ≤ limit →
    rs.records.map Record.fields = (os.takeWhile (Piece.isWithin limit)).map Piece.fields
  whole : 0 ≤ limit → (rs.failure = none ↔ ∀ o ∈ os, o.isWithin limit = true)
  tooLong : ∀ f, rs.failure = some f → ∃ line, f = malformed path line (.tooLong limit)

section

variable {path : String} {limit : Int} {p : Place} {text rest : List Char} {rs : Records}
  {os : List Piece}

/-- Where a text that waits is too long, an object begins that is not within the limit. -/
theorem LaidOut.outside {gap part more : List Char} (laidOut : LaidOut (gap ++ (part ++ more)) os rest)
    (blank : stripLeft rest = []) (inner : stripLeft gap = []) (waiting : Waiting part)
    (ended : LineEnded part ∨ more = []) (positive : 0 < part.length) (long : limit < part.length) :
    ∃ o later, os = o :: later ∧ o.isWithin limit = false := by
  have nonempty : part ≠ [] := List.ne_nil_of_length_pos positive
  have stripped : stripLeft (gap ++ (part ++ more)) = part ++ more := by
    rw [stripLeft_append_of_blank inner, stripLeft_append_of_nonblank (waiting.1.symm ▸ nonempty),
      waiting.1]
  rcases laidOut_cases laidOut with ⟨-, rfl⟩ | ⟨o, later, more', rfl, whole, blank', read, -⟩
  · rw [stripped] at blank
    exact absurd (List.append_eq_nil_iff.mp blank).1 nonempty
  · refine ⟨o, later, rfl, ?_⟩
    rw [whole, stripLeft_of_read blank' read] at stripped
    rw [stripped] at read
    rcases ended with ended | rfl
    · obtain ⟨line, rfl⟩ := rest_of_waiting waiting ended read
      rw [← List.append_assoc] at stripped
      have object := List.append_cancel_right stripped
      have shorter : part.length ≤ (throughBreak (part ++ line)).length :=
        length_le_throughBreak nonempty ended
      rw [Piece.isWithin, object, decide_eq_false_iff_not]
      omega
    · obtain ⟨-, problem, remaining, cut⟩ := waiting
      rw [List.append_nil] at read
      cases cut.symm.trans read

/-- The limits of an account of objects. By induction on the account. -/
theorem Account.limited (account : Account path limit p text rs) (laidOut : LaidOut text os rest)
    (blank : stripLeft rest = []) : Limited path limit rs os := by
  have ends := noObject_of_blank blank
  induction account generalizing os with
  | @record p gap object text fields line bytesRead rs inner read fits _ _ ih =>
    obtain ⟨later, rfl, others⟩ := laidOut.of_object ends inner read
    have limited := ih others
    refine ⟨List.prefix_cons_inj _ |>.mpr limited.first, fun positive => ?_, fun positive => ?_,
      limited.tooLong⟩
    · have within : Piece.isWithin limit ⟨gap, object, fields⟩ = true := decide_eq_true (fits positive)
      rw [List.takeWhile_cons_of_pos within]
      exact congrArg (fields :: ·) (limited.within positive)
    · have within : Piece.isWithin limit ⟨gap, object, fields⟩ = true := decide_eq_true (fits positive)
      rw [List.forall_mem_cons, and_iff_right within]
      exact limited.whole positive
  | @refused p gap part more line bytesRead inner waiting ended long =>
    have outside : 0 ≤ limit → ∃ o later, os = o :: later ∧ o.isWithin limit = false :=
      fun positive => laidOut.outside blank inner waiting ended (by omega) long
    refine ⟨List.nil_prefix, fun positive => ?_, fun positive => ?_, fun f same => ?_⟩
    · obtain ⟨o, later, rfl, long⟩ := outside positive
      rw [List.takeWhile_cons_of_neg (by rw [long]; decide)]
      rfl
    · obtain ⟨o, later, rfl, long⟩ := outside positive
      rw [List.forall_mem_cons, long]
      simp
    · exact ⟨line, (Option.some.inj same).symm⟩
  | @finished p text bytesRead inner =>
    obtain rfl := laidOut.of_noObject (noObject_of_blank inner)
    exact ⟨List.nil_prefix, fun _ => rfl, fun _ => by simp, nofun⟩
  | @rejected p gap more f bytesRead inner solid nonempty noObject counted =>
    have stripped : stripLeft (gap ++ more) = more := by
      rw [stripLeft_append_of_blank inner, solid]
    have none : NoObject (gap ++ more) := by
      rw [NoObject, stripped]
      exact noObject
    rcases laidOut_cases laidOut with ⟨-, rfl⟩ | ⟨o, later, more', rfl, -⟩
    · exact absurd (stripped.symm.trans blank) nonempty
    · cases laidOut.of_noObject none

/-- No buffer is within a negative limit. -/
theorem failure_goOn {ls : Lines} {count bytesRead : Nat} {b : Buffer} {lines : List Line}
    (negative : limit < 0) : (goOn path limit ls count bytesRead b lines).failure ≠ none := by
  rw [goOn]
  generalize drain path (b.text.length + 1) b = d
  cases d.rest with
  | error f => exact Option.some_ne_none f
  | ok left =>
    have long : Buffer.within path limit left = .error (malformed path left.line (.tooLong limit)) :=
      if_pos (by omega)
    simp only [Except.bind, long]
    exact Option.some_ne_none _

theorem records_of_negative {ls : Lines} {count : Nat} {b : Buffer} {lines : List Line}
    (negative : limit < 0) (whole : (ofLinesFrom path limit ls count b lines).failure = none) :
    (ofLinesFrom path limit ls count b lines).records = [] := by
  induction lines generalizing count with
  | nil => rfl
  | cons l lines ih =>
    rcases add_cases b (count + 1) l.text with ⟨passed, -⟩ | ⟨next, added, -⟩
    · rw [ofLinesFrom_passed passed] at whole ⊢
      exact ih whole
    · rw [ofLinesFrom_added added] at whole
      exact absurd whole (failure_goOn negative)

/-- The records of contents that hold objects, with blanks between them, are these objects up to the first
one whose part before its last line is longer than the limit, where they end with a failure. That part is
shorter than the object, so that no object within the limit is refused. -/
theorem ofContents_limited (path : String) {limit : Int} {c : Contents} {text rest : List Char}
    {os : List Piece} (intact : c.failure = none) (decoded : Utf8.text? c.bytes = .ok text)
    (laidOut : LaidOut text os rest) (blank : stripLeft rest = []) :
    Limited path limit (ofContents path limit c) os ∧
      (limit < 0 → os ≠ [] → (ofContents path limit c).failure ≠ none) ∧
      ∀ o ∈ os, (throughBreak o.object).length < o.object.length := by
  have account : Account path limit {} text (ofContents path limit c) :=
    account_ofContents intact decoded
  refine ⟨account.limited laidOut blank, fun negative some whole => ?_, laidOut.length_throughBreak_lt⟩
  have none : (ofContents path limit c).records = [] := records_of_negative negative whole
  generalize ofContents path limit c = rs at account whole none
  cases account with
  | record => cases none
  | refused => cases whole
  | finished all => exact some (laidOut.of_noObject (noObject_of_blank all))
  | rejected => cases whole

end

/-- An object of thirteen characters on one line. -/
def longObject : List Char := "\x7b\"a\": 123456\x7d".toList

def longObjectContents : Contents := ⟨(longObject ++ ['\n']).flatMap String.utf8EncodeChar, none⟩

/-- The object is a record although it is longer than the limit. -/
theorem ofContents_limited_longObject : longObjectContents.failure = none ∧
    Utf8.text? longObjectContents.bytes = .ok (longObject ++ ['\n']) ∧ longObject.length = 13 ∧
    LaidOut (longObject ++ ['\n']) [⟨[], longObject, [("a", .integer 123456)]⟩] ['\n'] ∧
    (ofContents "/t/x.json" 5 longObjectContents).records.map Record.fields =
      [[("a", .integer 123456)]] ∧
    (ofContents "/t/x.json" 5 longObjectContents).failure = none := by
  have decoded : Utf8.text? longObjectContents.bytes = .ok (longObject ++ ['\n']) := Utf8.text?_utf8 _
  have read : Json.value (longObject ++ ['\n']) =
      .ok (.object [("a", .integer 123456)], ['\n']) := by cbv
  have laidOut : LaidOut (longObject ++ ['\n']) [⟨[], longObject, [("a", .integer 123456)]⟩] ['\n'] :=
    @LaidOut.piece [] longObject ['\n'] ['\n'] _ [] rfl read (.rest ['\n'])
  obtain ⟨limited, -, -⟩ := @ofContents_limited "/t/x.json" 5 _ _ _ _ rfl decoded laidOut rfl
  have within : Piece.isWithin 5 ⟨[], longObject, [("a", .integer 123456)]⟩ = true := by decide +kernel
  refine ⟨rfl, decoded, by decide +kernel, laidOut, ?_, (limited.whole (by decide)).mpr ?_⟩
  · rw [limited.within (by decide), List.takeWhile_cons_of_pos within]
    rfl
  · simpa using within

end SchemaOnRead.Records
