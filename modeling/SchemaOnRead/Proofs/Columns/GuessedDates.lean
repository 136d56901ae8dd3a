import Mathlib.Data.List.Find
import SchemaOnRead.Proofs.Calendar.Days
import SchemaOnRead.Proofs.Calendar.WrittenDates
import SchemaOnRead.Proofs.Columns.Inferred
import SchemaOnRead.Proofs.Text.LowerCase

/-!
# Dates that are guessed

A date that is written after one of the guessed patterns is guessed to be a date, and the pattern that is
guessed reads it as the date (`writtenDates_read`). The shape of a text does not depend on its digits
(`hasShape_blur`), so the dates of a month all have the same shape under a pattern, and it is enough to look at
one of them. Only the long name of May is also a short name; the pattern that is guessed for it would have
written the same text.
-/

namespace SchemaOnRead.DateGuess

open Text Coercion

/-! ## Names of fields -/

/-- A text with a word somewhere in it, the letters in either case. -/
def Mentions (word cs : List Char) : Prop :=
  ∃ before spelling after, cs = before ++ spelling ++ after ∧ spelling.map Char.toLower = word

theorem contains_append (before word after : List Char) : contains (before ++ word ++ after) word = true := by
  induction before with
  | nil =>
    rw [List.nil_append]
    cases word with
    | nil => cases after <;> simp [contains]
    | cons c rest => simp [contains]
  | cons c rest ih =>
    rw [List.cons_append, List.cons_append, contains, ih, Bool.or_true]

/-- A name that mentions a keyword speaks of dates. -/
theorem isDateName_of_mentions {name k : String} (keyword : k ∈ keywords)
    (mentioned : Mentions k.toList name.toList) : isDateName name = true := by
  obtain ⟨before, spelling, after, whole, spelled⟩ := mentioned
  have ascii : ∀ k ∈ keywords, ∀ c ∈ k.toList, c.toNat < 128 := by decide
  rw [isDateName, List.any_eq_true]
  refine ⟨k, keyword, ?_⟩
  rw [whole, lower_append, lower_append, lower_spelling spelled (ascii k keyword)]
  exact contains_append _ _ _

/-! ## Shapes and digits -/

/-- A character, with zero in place of any other digit. -/
def blur (c : Char) : Char := if isAsciiDigit c then '0' else c

/-- What tells other characters apart does not see which digit it is. -/
theorem kind_blur {kind : Char → Bool} (digits : ∀ n < 10, kind (digitChar n) = kind '0') (c : Char) :
    kind (blur c) = kind c := by
  rw [blur]
  split
  · rename_i digit
    exact (digit_induction (motive := fun c => kind c = kind '0') digits digit).symm
  · rfl

theorem blur_eq_iff {c d : Char} (other : isAsciiDigit d = false) : blur c = d ↔ c = d := by
  rw [blur]
  split
  · rename_i digit
    have zero := Iso8601.ne_of_digit (show isAsciiDigit '0' = true by decide) other
    have self := Iso8601.ne_of_digit digit other
    simp [zero, self]
  · rfl

theorem takeRun_blur {kind : Char → Bool} (digits : ∀ n < 10, kind (digitChar n) = kind '0') (least : Nat)
    (most : Option Nat) (cs : List Char) :
    takeRun kind least most (cs.map blur) = (takeRun kind least most cs).map (·.map blur) := by
  have same : kind ∘ blur = kind := funext (kind_blur digits)
  simp only [takeRun, List.takeWhile_map, same, List.length_map]
  split <;> simp [List.map_drop]

/-- Whether a part of a shape is not a certain digit. -/
def seesNoDigit : Part → Bool
  | .char c => !isAsciiDigit c
  | _ => true

theorem take?_blur {part : Part} (blind : seesNoDigit part = true) (cs : List Char) :
    part.take? (cs.map blur) = (part.take? cs).map (·.map blur) := by
  cases part with
  | digits least most => exact takeRun_blur (by decide) least (some most) cs
  | letters least most => exact takeRun_blur (by decide) least most cs
  | blank =>
    cases cs with
    | nil => rfl
    | cons c rest =>
      have solid : ∀ n < 10, isBlank (digitChar n) = isBlank '0' := by decide
      rw [List.map_cons, Part.take?, Part.take?, kind_blur solid]
      split <;> rfl
  | char d =>
    cases cs with
    | nil => rfl
    | cons c rest =>
      have other : isAsciiDigit d = false := by simpa [seesNoDigit] using blind
      simp only [List.map_cons, Part.take?, blur_eq_iff other]
      split <;> rfl

/-- The shape of a text does not depend on its digits. -/
theorem hasShape_blur {parts : List Part} (blind : ∀ part ∈ parts, seesNoDigit part = true) (cs : List Char) :
    hasShape parts (cs.map blur) = hasShape parts cs := by
  induction parts generalizing cs with
  | nil =>
    cases cs with
    | nil => rfl
    | cons c rest =>
      cases rest with
      | nil => simp [hasShape, blur_eq_iff (show isAsciiDigit '\n' = false by decide)]
      | cons e rest => simp [hasShape]
  | cons part parts ih =>
    rw [hasShape, hasShape, take?_blur (blind part (List.mem_cons_self ..))]
    cases part.take? cs with
    | none => rfl
    | some rest => exact ih (fun q member => blind q (List.mem_cons_of_mem part member)) rest

/-- The pattern of the characters of a text in lower case. -/
def ofChars? (cs : List Char) : Option String := (shapes.find? fun shape => hasShape shape.1 cs).map (·.2)

theorem ofChars?_blur (cs : List Char) : ofChars? (cs.map blur) = ofChars? cs := by
  have blind : ∀ shape ∈ shapes, ∀ part ∈ shape.1, seesNoDigit part = true := by decide
  rw [ofChars?, ofChars?]
  congr 1
  apply List.find?_congr
  intro shape member
  exact hasShape_blur (blind shape member) cs

/-! ## Dates of one month -/

variable {d e : Date}

/-- Digits are the same in lower case, and all alike but for which they are. -/
theorem lower_blur_of_digits {ds : List Char} (digits : ∀ c ∈ ds, isAsciiDigit c = true) :
    (lower ds).map blur = List.replicate ds.length '0' := by
  induction ds with
  | nil => rfl
  | cons c rest ih =>
    rw [List.forall_mem_cons] at digits
    have first : (lower [c]).map blur = ['0'] :=
      digit_induction (motive := fun c => (lower [c]).map blur = ['0']) (by decide) digits.1
    rw [lower_cons, List.map_append, first, ih digits.2]
    rfl

theorem lower_blur_digits {width n : Nat} (some : 0 < width) (short : n < 10 ^ width) :
    (lower (Iso8601.digits width n)).map blur = List.replicate width '0' := by
  rw [lower_blur_of_digits (Iso8601.isDigits_digits width n).digits, Iso8601.length_digits some short]

theorem blur_letterText (valid : d.isValid = true) (valid' : e.isValid = true) (month : d.month = e.month)
    (c : Char) : (lower (d.letterText c)).map blur = (lower (e.letterText c)).map blur := by
  obtain ⟨year, ⟨-, lastMonth⟩, -, lastDay⟩ := Date.short_of_isValid valid
  obtain ⟨year', -, -, lastDay'⟩ := Date.short_of_isValid valid'
  have name : d.monthName = e.monthName := by rw [Date.monthName, Date.monthName, month]
  unfold Date.letterText
  split
  · rw [lower_blur_digits (by decide) (by omega), lower_blur_digits (by decide) (by omega)]
  · rw [month]
  · rw [lower_blur_digits (by decide) year, lower_blur_digits (by decide) year']
  · rw [name]
  · rw [name]
  · rfl

/-- Dates of one month differ in digits only. -/
theorem blur_writtenChars (valid : d.isValid = true) (valid' : e.isValid = true) (month : d.month = e.month)
    (pattern : List Char) :
    (lower (d.writtenChars pattern)).map blur = (lower (e.writtenChars pattern)).map blur := by
  induction pattern using Date.writtenChars.induct with
  | case1 c rest ih =>
    rw [Date.writtenChars, Date.writtenChars, lower_append, lower_append, List.map_append, List.map_append,
      blur_letterText valid valid' month, ih]
  | case2 c rest other ih =>
    have literal (f : Date) : f.writtenChars (c :: rest) = c :: f.writtenChars rest := by
      rw [Date.writtenChars]
      exact other
    rw [literal, literal, lower_cons c (d.writtenChars rest), lower_cons c (e.writtenChars rest), List.map_append,
      List.map_append, ih]
  | case3 => rfl

/-! ## Guessing and reading -/

/-- The pattern that is guessed for the dates of a month that are written after a pattern. -/
def guess (month : Nat) (pattern : String) : String :=
  if month = 5 ∧ pattern = "%d %B %Y" then "%d %b %Y" else pattern

theorem ofText?_first : ∀ shape ∈ shapes, ∀ n < 13, 0 < n →
    ofText? (Date.written ⟨2000, n, 1⟩ shape.2) = some (guess n shape.2) := by decide +kernel

/-- A date that is written after a pattern is guessed to be written after this one, or after another one that
writes it so. -/
theorem ofText?_written (valid : d.isValid = true) {shape : List Part × String} (listed : shape ∈ shapes) :
    ofText? (d.written shape.2) = some (guess d.month shape.2) ∧
      d.written (guess d.month shape.2) = d.written shape.2 := by
  obtain ⟨-, ⟨firstMonth, lastMonth⟩, -⟩ := Date.short_of_isValid valid
  constructor
  · have valid' : Date.isValid ⟨2000, d.month, 1⟩ = true := by
      have last : 1 ≤ Date.monthLength 2000 d.month := Date.monthLength_pos ..
      refine Date.isValid_iff.mpr ⟨⟨?_, firstMonth, Nat.lt_succ_iff.mp lastMonth, ?_, last⟩, ?_⟩
      · exact Nat.le_of_ble_eq_true rfl
      · exact Nat.le_refl 1
      · exact Nat.le_of_ble_eq_true rfl
    have chars (f : Date) : ofText? (f.written shape.2) = ofChars? ((lower (f.writtenChars shape.2.toList)).map blur) := by
      rw [ofChars?_blur, ofText?, Date.written, String.toList_ofList]
      rfl
    rw [chars, blur_writtenChars valid valid' rfl, ← chars]
    exact ofText?_first shape listed d.month lastMonth firstMonth
  · rw [guess]
    split
    · rename_i may
      have name : d.monthName.take 3 = d.monthName := by
        rw [Date.monthName, may.1]
        rfl
      have long : d.written "%d %B %Y" = String.ofList (d.letterText 'd' ++ ' ' :: (d.monthName ++ ' ' ::
          (d.letterText 'Y' ++ []))) := rfl
      have short : d.written "%d %b %Y" = String.ofList (d.letterText 'd' ++ ' ' :: (d.monthName.take 3 ++ ' ' ::
          (d.letterText 'Y' ++ []))) := rfl
      rw [may.2, long, short, name]
    · rfl

/-- The guessed patterns write as their elements do. Each begins and ends with a part of a date, and has a day, a
month and a year. -/
theorem shapes_calendar : ∀ shape ∈ shapes, ∃ p f g, DatePattern.ofText? shape.2 = some p ∧
    (∀ d : Date, d.written shape.2 = String.ofList (p.text d)) ∧ p.isCalendar = true ∧
    p.head? = some (.field f) ∧ p.getLast? = some (.field g) ∧ .day ∈ p.fields ∧
    (.month ∈ p.fields ∨ .monthName ∈ p.fields ∨ .monthShortName ∈ p.fields) ∧ .year ∈ p.fields := by
  intro shape listed
  simp only [shapes, List.mem_cons, List.not_mem_nil, or_false] at listed
  rcases listed with rfl | rfl | rfl | rfl | rfl | rfl | rfl
  all_goals exact ⟨_, _, _, rfl, fun _ => rfl, rfl, rfl, rfl, by decide, by decide, by decide⟩

theorem guess_listed : ∀ shape ∈ shapes, ∀ n < 13, ∃ other ∈ shapes, other.2 = guess n shape.2 := by
  decide

/-- The pattern that wrote a date reads it. -/
theorem moment?_written (valid : d.isValid = true) {shape : List Part × String} (listed : shape ∈ shapes) :
    moment? shape.2 (d.written shape.2) = some ⟨d, 0, 0, 0, 0, none⟩ := by
  obtain ⟨p, f, g, read, written, calendar, first, last, day, month, year⟩ := shapes_calendar shape listed
  rw [moment?, read, Option.bind_some, written, String.toList_ofList,
    DatePattern.strip_text valid calendar first last]
  exact DatePattern.moment?_text valid calendar day month year

/-- A date of the calendar that is written after a guessed pattern, with English names and numbers padded with
zeros, is guessed to be a date in every field whose name mentions one of the keywords in any case, and the pattern
that is guessed reads the text as the number of the date's day. -/
theorem writtenDates_read {name k : String} (keyword : k ∈ keywords) (mentioned : Mentions k.toList name.toList)
    (valid : d.isValid = true) {shape : List Part × String} (listed : shape ∈ shapes) :
    ∃ guessed n, find? name (d.written shape.2) = some guessed ∧ d.IsDay n ∧
      toEpochDays (TemporalFormat.ofName (some guessed)) (.text (d.written shape.2)) = .ok n := by
  obtain ⟨-, ⟨-, lastMonth⟩, -⟩ := Date.short_of_isValid valid
  obtain ⟨found, same⟩ := ofText?_written valid listed
  obtain ⟨other, listed', guessed⟩ := guess_listed shape listed d.month lastMonth
  have isGuess : find? name (d.written shape.2) = some (guess d.month shape.2) := by
    rw [find?, isDateName_of_mentions keyword mentioned, if_pos rfl, found]
  obtain ⟨format, read⟩ := toMoment_of_find? isGuess
  have moment : moment? (guess d.month shape.2) (d.written shape.2) = some ⟨d, 0, 0, 0, 0, none⟩ := by
    have self := moment?_written valid listed'
    rw [guessed, same] at self
    exact self
  rw [moment] at read
  refine ⟨_, d.epochDay, isGuess, (Date.isDay_iff (Date.isDate_of_isValid valid) _).mpr rfl, ?_⟩
  rw [format]
  change (toMoment _ _).map _ = _
  rw [read]
  rfl

/-- The 9th of May 2017 with the name of its month, in a column whose name has the keyword inside and in
another case. -/
theorem writtenDates_read_may :
    Mentions "timestamp".toList "lastTimeStamp".toList ∧ Date.written ⟨2017, 5, 9⟩ "%d %B %Y" = "09 May 2017" ∧
      ∃ guessed n, find? "lastTimeStamp" "09 May 2017" = some guessed ∧ Date.IsDay ⟨2017, 5, 9⟩ n ∧
        toEpochDays (TemporalFormat.ofName (some guessed)) (.text "09 May 2017") = .ok n := by
  have mentioned : Mentions "timestamp".toList "lastTimeStamp".toList :=
    ⟨"last".toList, "TimeStamp".toList, [], by decide, by decide⟩
  have written : Date.written ⟨2017, 5, 9⟩ "%d %B %Y" = "09 May 2017" := by decide
  have read := writtenDates_read (d := ⟨2017, 5, 9⟩) (show "timestamp" ∈ keywords by decide) mentioned (by decide)
    (List.getLast_mem (show shapes ≠ [] by decide))
  rw [show (shapes.getLast (by decide)).2 = "%d %B %Y" from rfl, written] at read
  exact ⟨mentioned, written, read⟩

end SchemaOnRead.DateGuess
