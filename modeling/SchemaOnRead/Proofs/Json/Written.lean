import Mathlib.Tactic.IntervalCases
import SchemaOnRead.Json.Printer
import SchemaOnRead.Proofs.Json.Decoded
import SchemaOnRead.Proofs.Text.LineEnds

/-!
# Written texts and numbers

A text that is written between quotes is read as itself (`string_written`), and a number is read
with the sign, the digits and the exponent that it was written with (`number_written`), whatever
stands after either of them in a value.
-/

namespace SchemaOnRead.Json

open Text

/-! ## Texts -/

theorem hexDigits_small : ∀ n < 32, hexDigits 4 n = ['0', '0', (n / 16).digitChar, (n % 16).digitChar] ∧
    hexDigit? (n / 16).digitChar = some (n / 16) ∧ hexDigit? (n % 16).digitChar = some (n % 16) := by
  decide

theorem hex4?_hexDigits {n : Nat} (small : n < 32) (rest : List Char) :
    hex4? (hexDigits 4 n ++ rest) = some (n, rest) := by
  obtain ⟨written, high, low⟩ := hexDigits_small n small
  have zero : hexDigit? '0' = some 0 := rfl
  have value : 0 * 4096 + 0 * 256 + n / 16 * 16 + n % 16 = n := by omega
  simp [written, hex4?, high, low, zero, Nat.div_add_mod']

theorem unitChar_toNat (c : Char) : unitChar c.toNat = c := by
  have valid := toNat_of_isValid c
  rw [unitChar, if_neg (by omega), Char.ofNat_toNat]

theorem isHighSurrogate_iff {n : Nat} : isHighSurrogate n = true ↔ 0xD800 ≤ n ∧ n ≤ 0xDBFF := by
  rw [isHighSurrogate, Bool.and_eq_true, decide_eq_true_eq, decide_eq_true_eq]

theorem isLowSurrogate_iff {n : Nat} : isLowSurrogate n = true ↔ 0xDC00 ≤ n ∧ n ≤ 0xDFFF := by
  rw [isLowSurrogate, Bool.and_eq_true, decide_eq_true_eq, decide_eq_true_eq]

/-- The letters of the escapes that are written, with the characters they stand for. -/
def letters : List (Char × Char) :=
  [('"', '"'), ('\\', '\\'), ('n', '\n'), ('r', '\r'), ('t', '\t'), ('b', '\x08'), ('f', '\x0c')]

theorem letters_written : ∀ p ∈ letters,
    p.1 ≠ 'u' ∧ simpleEscape? p.1 = some p.2 ∧ escape? p.2 = some ['\\', p.1] := by decide

/-- A character has the escape of a letter, that of its number, or none. -/
theorem escape?_cases (c : Char) :
    (∃ p ∈ letters, p.2 = c ∧ escape? c = some ['\\', p.1]) ∨
      (c.toNat < 32 ∧ escape? c = some ('\\' :: 'u' :: hexDigits 4 c.toNat)) ∨
      (c ≠ '"' ∧ c ≠ '\\' ∧ ¬ c.toNat < 32 ∧ escape? c = none) := by
  by_cases escaped : ∃ p ∈ letters, p.2 = c
  · obtain ⟨p, member, rfl⟩ := escaped
    exact .inl ⟨p, member, rfl, (letters_written p member).2.2⟩
  · have other : ∀ p ∈ letters, c ≠ p.2 := fun p member same => escaped ⟨p, member, same.symm⟩
    simp only [letters, List.forall_mem_cons] at other
    obtain ⟨quote, escape, feed, back, tab, backspace, page, -⟩ := other
    have written : escape? c =
        if c.toNat < 32 then some ('\\' :: 'u' :: hexDigits 4 c.toNat) else none := by
      simp only [escape?, quote, escape, feed, back, tab, backspace, page, if_false]
    by_cases small : c.toNat < 32
    · exact .inr (.inl ⟨small, written.trans (if_pos small)⟩)
    · exact .inr (.inr ⟨quote, escape, small, written.trans (if_neg small)⟩)

/-- A character is written with the letter of its escape, with its number, or as it stands. -/
theorem stringChar_cases (c : Char) :
    (∃ letter, letter ≠ 'u' ∧ simpleEscape? letter = some c ∧ stringChar c = ['\\', letter]) ∨
      (c.toNat < 32 ∧ stringChar c = '\\' :: 'u' :: hexDigits 4 c.toNat) ∨
      (c ≠ '"' ∧ c ≠ '\\' ∧ ¬ c.toNat < 32 ∧ stringChar c = [c]) := by
  rw [stringChar]
  rcases escape?_cases c with ⟨p, member, rfl, written⟩ | ⟨small, written⟩ |
    ⟨quote, escape, large, written⟩
  · obtain ⟨simple, known, -⟩ := letters_written p member
    exact .inl ⟨p.1, simple, known, by rw [written, Option.getD_some]⟩
  · exact .inr (.inl ⟨small, by rw [written, Option.getD_some]⟩)
  · exact .inr (.inr ⟨quote, escape, large, by rw [written, Option.getD_none]⟩)

/-- A character that is written is read as itself. -/
theorem stringRest_stringChar (start fuel : Nat) (acc : List Char) (c : Char) {rest : List Char}
    (more : rest ≠ []) :
    stringRest start (fuel + 1) acc (stringChar c ++ rest) = stringRest start fuel (c :: acc) rest := by
  rcases stringChar_cases c with ⟨letter, simple, known, written⟩ | ⟨small, written⟩ |
    ⟨quote, escape, large, written⟩
  · rw [written]
    exact stringRest_escape start fuel acc rest simple known
  · have notHigh : ¬ isHighSurrogate c.toNat = true := by
      rw [isHighSurrogate_iff]
      omega
    have read := unicodeEscape_of_single (hex4?_hexDigits small rest) more
      (.inl (eq_false_of_ne_true notHigh))
    rw [written, List.cons_append, List.cons_append, stringRest_unicode, read, unitChar_toNat]
    rfl
  · rw [written]
    exact (stringRest_plain start fuel acc rest quote escape).trans (if_neg large)

theorem stringChar_ne_nil (c : Char) : stringChar c ≠ [] := by
  rcases stringChar_cases c with ⟨_, -, -, written⟩ | ⟨-, written⟩ | ⟨-, -, -, written⟩
  all_goals
    rw [written]
    exact List.cons_ne_nil _ _

theorem length_le_flatMap {char : Char → List Char} (some : ∀ c, char c ≠ []) (cs : List Char) :
    cs.length ≤ (cs.flatMap char).length := by
  induction cs with
  | nil => exact Nat.le_refl 0
  | cons c cs ih =>
    have positive := List.length_pos_iff.mpr (some c)
    rw [List.flatMap_cons, List.length_append, List.length_cons]
    omega

theorem stringRest_written (start : Nat) (cs acc rest : List Char) {fuel : Nat}
    (many : cs.length < fuel) :
    stringRest start fuel acc (cs.flatMap stringChar ++ '"' :: rest) =
      .ok (String.ofList (acc.reverse ++ cs), rest) := by
  induction cs generalizing acc fuel with
  | nil =>
    obtain ⟨fuel, rfl⟩ := Nat.exists_eq_add_one_of_ne_zero (Nat.ne_of_gt many)
    rw [List.append_nil]
    exact stringRest_quote start fuel acc rest
  | cons c cs ih =>
    obtain ⟨fuel, rfl⟩ := Nat.exists_eq_add_one_of_ne_zero (Nat.ne_of_gt (Nat.zero_lt_of_lt many))
    have later : cs.flatMap stringChar ++ '"' :: rest ≠ [] := by simp
    rw [List.flatMap_cons, List.append_assoc, stringRest_stringChar _ _ _ _ later,
      ih (c :: acc) (Nat.lt_of_succ_lt_succ many), List.reverse_cons, List.append_assoc]
    rfl

/-- A text that is written is read as itself. -/
theorem string_written (s : String) (rest : List Char) :
    string (s.toList.flatMap stringChar ++ '"' :: rest) = .ok (s, rest) := by
  have length := length_le_flatMap stringChar_ne_nil s.toList
  rw [string, stringRest_written, List.reverse_nil, List.nil_append, String.ofList_toList]
  rw [List.length_append, List.length_cons]
  omega

/-! ## What stands after a value -/

/-- What may stand after a value inside another one, or nothing. -/
def Delimited (rest : List Char) : Prop :=
  ∀ c after, rest = c :: after → c = ',' ∨ c = ']' ∨ c = '\x7d'

theorem delimited_nil : Delimited [] := fun _ _ same => nomatch same

theorem delimited_cons {c : Char} (delimiter : c = ',' ∨ c = ']' ∨ c = '\x7d') (rest : List Char) :
    Delimited (c :: rest) := by
  intro d after same
  cases same
  exact delimiter

theorem Delimited.noDigit {rest : List Char} (delimited : Delimited rest) : NoDigit rest := by
  intro c after same
  rcases delimited c after same with rfl | rfl | rfl <;> decide

/-- Another character than those that stand after a value. -/
theorem Delimited.head_ne {c : Char} {rest : List Char} (delimited : Delimited rest)
    (other : c ≠ ',' ∧ c ≠ ']' ∧ c ≠ '\x7d') (after : List Char) : rest ≠ c :: after := by
  intro same
  rcases delimited c after same with rfl | rfl | rfl
  · exact other.1 rfl
  · exact other.2.1 rfl
  · exact other.2.2 rfl

/-! ## Numbers -/

theorem wholeDigits?_isWhole {whole rest : List Char} (isWhole : Decimal.IsWhole whole)
    (ended : NoDigit rest) : wholeDigits? (whole ++ rest) = some (whole, rest) := by
  rcases isWhole.canonical with rfl | noZero
  · rfl
  · obtain ⟨d, ds, same⟩ := List.exists_cons_of_ne_nil isWhole.nonempty
    have spanned := spanDigits_of_digits isWhole.digits ended
    rw [same] at spanned ⊢
    rw [wholeDigits?, spanned]
    · exact fun after first => noZero ds (same.trans (congrArg (· :: ds) (List.cons.inj first).1))

theorem fractionPart_pointed {fraction rest : List Char}
    (digits : ∀ d ∈ fraction, isAsciiDigit d = true) (ended : NoDigit rest)
    (noPoint : ∀ after, rest ≠ '.' :: after) :
    fractionPart (Decimal.pointed fraction ++ rest) = (Decimal.pointed fraction, rest) := by
  by_cases none : fraction = []
  · subst none
    exact fractionPart.eq_2 rest noPoint
  · rw [Decimal.pointed_of_ne_nil none, List.cons_append, fractionPart,
      spanDigits_of_digits digits ended]
    cases fraction with
    | nil => exact absurd rfl none
    | cons d ds => rfl

theorem exponentPart_exponentText (x : Int) {rest : List Char} (delimited : Delimited rest) :
    exponentPart (Decimal.exponentText x ++ rest) = (Decimal.exponentText x, rest) := by
  by_cases zero : x = 0
  · rw [Decimal.exponentText, if_pos zero, List.nil_append]
    cases rest with
    | nil => rfl
    | cons c after =>
      refine if_neg ?_
      rcases delimited c after rfl with rfl | rfl | rfl <;> decide
  · obtain ⟨negative, written, -⟩ := Decimal.exponentText_of_ne_zero zero
    have isDigits := isDigits_ofNat x.natAbs
    have spanned := spanDigits_of_digits isDigits.digits delimited.noDigit
    obtain ⟨d, ds, same⟩ := List.exists_cons_of_ne_nil isDigits.nonempty
    rw [same] at written spanned
    rw [List.cons_append] at spanned
    rw [written, List.cons_append, exponentPart, if_pos (.inr rfl)]
    cases negative <;> simp [exponentSign, spanned]

theorem numberSign_signText (negative : Bool) {whole : List Char} (isDigits : IsDigits whole)
    (rest : List Char) :
    numberSign (Decimal.signText negative ++ (whole ++ rest)) = (negative, whole ++ rest) := by
  cases negative with
  | true => rfl
  | false =>
    obtain ⟨d, ds, rfl⟩ := List.exists_cons_of_ne_nil isDigits.nonempty
    have noSign : d ≠ '-' :=
      digit_induction (motive := (· ≠ '-')) (by decide) (isDigits.digits d List.mem_cons_self)
    exact numberSign.eq_2 _ fun after same => noSign (List.cons.inj same).1

theorem noDigit_append {cs rest : List Char} (first : NoDigit cs) (second : NoDigit rest) :
    NoDigit (cs ++ rest) := by
  cases cs with
  | nil => exact second
  | cons c cs => exact noDigit_cons (first c cs rfl) _

/-- A number is read in the parts in which it was written. -/
theorem number_written (negative : Bool) {whole fraction rest : List Char}
    (isWhole : Decimal.IsWhole whole) (digits : ∀ d ∈ fraction, isAsciiDigit d = true) (x : Int)
    (delimited : Delimited rest) :
    number (Decimal.signText negative ++
        (whole ++ Decimal.pointed fraction ++ Decimal.exponentText x ++ rest)) =
      (numeral negative whole (Decimal.pointed fraction) (Decimal.exponentText x)).map
        fun v => (v, rest) := by
  have afterExponent := noDigit_append (Decimal.noDigit_exponentText x) delimited.noDigit
  have afterWhole := noDigit_append (Decimal.noDigit_pointed fraction x) delimited.noDigit
  have noPoint : ∀ after, Decimal.exponentText x ++ rest ≠ '.' :: after := by
    intro after same
    by_cases zero : x = 0
    · rw [Decimal.exponentText, if_pos zero] at same
      exact delimited.head_ne (by decide) after same
    · obtain ⟨negative, written, -⟩ := Decimal.exponentText_of_ne_zero zero
      rw [written] at same
      exact absurd (List.cons.inj same).1 (by decide)
  rw [List.append_assoc] at afterWhole
  rw [number, List.append_assoc, List.append_assoc, numberSign_signText negative isWhole.toIsDigits,
    wholeDigits?_isWhole isWhole afterWhole]
  simp only [fractionPart_pointed digits afterExponent noPoint,
    exponentPart_exponentText x delimited]

/-- No number is one of the words that stand for values. -/
theorem constant?_written (negative : Bool) {whole : List Char} (isDigits : IsDigits whole)
    (rest : List Char) : constant? (Decimal.signText negative ++ (whole ++ rest)) = none := by
  obtain ⟨d, ds, rfl⟩ := List.exists_cons_of_ne_nil isDigits.nonempty
  have first : ∀ cs, constant? (d :: cs) = none ∧ constant? ('-' :: d :: cs) = none := by
    refine digit_induction (motive := fun d => ∀ cs, constant? (d :: cs) = none ∧
      constant? ('-' :: d :: cs) = none) ?_ (isDigits.digits d List.mem_cons_self)
    intro n small cs
    interval_cases n <;> exact ⟨rfl, rfl⟩
  cases negative with
  | true => exact (first (ds ++ rest)).2
  | false => exact (first (ds ++ rest)).1

end SchemaOnRead.Json
