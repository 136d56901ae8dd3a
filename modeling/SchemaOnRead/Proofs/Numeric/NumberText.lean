import SchemaOnRead.Numeric.Binary64
import SchemaOnRead.Proofs.Json.RoundTrip

/-!
# Numbers read from their texts

A text is read as an integer by `readInteger?` and as a decimal by `Decimal.ofText?`. A text that denotes an
integer denotes the same number as a decimal (`ofText?_of_readInteger?`), and the text of a decimal denotes
this decimal (`ofText?_text`), but an integer only if it is written without a point and an exponent
(`readInteger?_text`).
-/

namespace SchemaOnRead

open Text

/-! ## Characters that stand for themselves -/

/-- A character that stands for itself in the text of a number: it is no blank, does not separate digits and
is no digit of another script. -/
def IsPlain (c : Char) : Prop := isBlank c = false ∧ c ≠ '_' ∧ Decimal.plainDigit c = c

instance (c : Char) : Decidable (IsPlain c) := inferInstanceAs (Decidable (_ ∧ _))

theorem isPlain_digit {c : Char} (digit : isAsciiDigit c = true) : IsPlain c :=
  digit_induction (motive := IsPlain) (by decide) digit

theorem isPlain_digits {ds : List Char} (isDigits : IsDigits ds) : ∀ c ∈ ds, IsPlain c :=
  fun c member => isPlain_digit (isDigits.digits c member)

theorem isPlain_digitsText (c : Nat) (e : Int) : ∀ d ∈ Decimal.digitsText c e, IsPlain d :=
  Decimal.forall_mem_digitsText (fun _ digit => isPlain_digit digit) (by decide) c e

theorem isPlain_signed (negative : Bool) {cs : List Char} (plain : ∀ c ∈ cs, IsPlain c) :
    ∀ c ∈ Decimal.signText negative ++ cs, IsPlain c := by
  have sign : ∀ c ∈ Decimal.signText negative, IsPlain c := by cases negative <;> decide
  exact List.forall_mem_append.mpr ⟨sign, plain⟩

/-- A text that neither begins nor ends with a blank. -/
theorem strip_of_ends {cs : List Char} (first : ∀ c ∈ cs.head?, isBlank c = false)
    (last : ∀ c ∈ cs.getLast?, isBlank c = false) : strip cs = cs := by
  have left {cs : List Char} (first : ∀ c ∈ cs.head?, isBlank c = false) : cs.dropWhile isBlank = cs := by
    cases cs with
    | nil => rfl
    | cons c rest => exact List.dropWhile_cons_of_neg (by simp [first c rfl])
  rw [strip, stripRight, stripLeft, left first, left, List.reverse_reverse]
  rw [List.head?_reverse]
  exact last

theorem strip_of_solid {cs : List Char} (solid : ∀ c ∈ cs, isBlank c = false) : strip cs = cs :=
  strip_of_ends (fun c member => solid c (List.mem_of_mem_head? member))
    fun c member => solid c (List.mem_of_mem_getLast? member)

theorem map_plainDigit {cs : List Char} (plain : ∀ c ∈ cs, IsPlain c) :
    (strip cs).map Decimal.plainDigit = cs := by
  rw [strip_of_solid fun c member => (plain c member).1]
  exact (List.map_congr_left fun c member => (plain c member).2.2).trans (List.map_id cs)

theorem dropSeparators?_of_plain {cs : List Char} (noSeparator : ∀ c ∈ cs, c ≠ '_')
    (isDigit : Char → Bool) (after : Bool) : Binary64.dropSeparators? isDigit after cs = some cs := by
  induction cs generalizing after with
  | nil => rfl
  | cons c rest ih =>
    obtain ⟨first, later⟩ := List.forall_mem_cons.mp noSeparator
    rw [Binary64.dropSeparators?, ih later]
    · rfl
    · rintro rfl
      exact first rfl

/-- What is left of a text whose separators stand between digits is all but the separators. -/
theorem eq_filter_of_dropSeparators? {isDigit : Char → Bool} {after : Bool} {cs ds : List Char}
    (dropped : Binary64.dropSeparators? isDigit after cs = some ds) : ds = cs.filter (· ≠ '_') := by
  fun_induction Binary64.dropSeparators? isDigit after cs generalizing ds with
  | case1 => simp_all
  | case2 after c rest known ih => simp_all
  | case3 => cases dropped
  | case4 => cases dropped
  | case5 after c rest other ih =>
    obtain ⟨es, later, rfl⟩ := Option.map_eq_some_iff.mp dropped
    have noSeparator : c ≠ '_' := by
      rintro rfl
      cases rest <;> simp_all
    rw [List.filter_cons_of_pos (by simpa using noSeparator), ← ih later]

/-! ## Integers -/

/-- The sign with which a number's text begins, and what follows it. -/
def splitSign : List Char → Bool × List Char
  | '-' :: rest => (true, rest)
  | '+' :: rest => (false, rest)
  | rest => (false, rest)

/-- The integer that digits with separators between them denote. -/
def wholeNumber? (negative : Bool) (cs : List Char) : Option Int :=
  (Binary64.dropSeparators? isAsciiDigit false cs).bind fun ds =>
    if ds.isEmpty || !ds.all isAsciiDigit || 4300 < ds.length then none
    else (natural? ds).map (Decimal.signed negative)

theorem readInteger?_eq (s : String) :
    readInteger? s =
      wholeNumber? (splitSign ((strip s.toList).map Decimal.plainDigit)).1
        (splitSign ((strip s.toList).map Decimal.plainDigit)).2 := by
  rw [readInteger?]
  generalize (strip s.toList).map Decimal.plainDigit = cs
  split
  rename_i negative body signed
  rw [show splitSign cs = (negative, body) from signed]
  rfl

theorem splitSign_other {c : Char} (minus : c ≠ '-') (plus : c ≠ '+') (rest : List Char) :
    splitSign (c :: rest) = (false, c :: rest) := by
  simp [splitSign, minus, plus]

theorem splitSign_signText (negative : Bool) {c : Char} (digit : isAsciiDigit c = true)
    (rest : List Char) :
    splitSign (Decimal.signText negative ++ c :: rest) = (negative, c :: rest) := by
  cases negative with
  | true => rfl
  | false =>
    have noSign : c ≠ '-' ∧ c ≠ '+' :=
      digit_induction (motive := fun c => c ≠ '-' ∧ c ≠ '+') (by decide) digit
    exact splitSign_other noSign.1 noSign.2 rest

theorem wholeNumber?_of_plain (negative : Bool) {cs : List Char} (plain : ∀ c ∈ cs, IsPlain c) :
    wholeNumber? negative cs =
      if cs.isEmpty || !cs.all isAsciiDigit || 4300 < cs.length then none
      else (natural? cs).map (Decimal.signed negative) := by
  rw [wholeNumber?, dropSeparators?_of_plain (fun c member => (plain c member).2.1)]
  rfl

/-- A text of plain characters of which the first one is a digit, after a sign. -/
theorem readInteger?_of_plain (negative : Bool) {cs : List Char} (plain : ∀ c ∈ cs, IsPlain c)
    {c : Char} {rest : List Char} (first : cs = c :: rest) (digit : isAsciiDigit c = true) :
    readInteger? (String.ofList (Decimal.signText negative ++ cs)) = wholeNumber? negative cs := by
  rw [readInteger?_eq, String.toList_ofList, map_plainDigit (isPlain_signed negative plain), first,
    splitSign_signText negative digit]

theorem wholeNumber?_of_digits (negative : Bool) {ds : List Char} (isDigits : IsDigits ds) :
    wholeNumber? negative ds =
      if 4300 < ds.length then none else (natural? ds).map (Decimal.signed negative) := by
  have all : ds.all isAsciiDigit = true := List.all_eq_true.mpr isDigits.digits
  have some : ds.isEmpty = false := List.isEmpty_eq_false_iff.mpr isDigits.nonempty
  rw [wholeNumber?_of_plain negative (isPlain_digits isDigits), all, some]
  simp

theorem wholeNumber?_of_other (negative : Bool) {cs : List Char} (plain : ∀ c ∈ cs, IsPlain c)
    {c : Char} (member : c ∈ cs) (other : isAsciiDigit c = false) : wholeNumber? negative cs = none := by
  have notAll : cs.all isAsciiDigit = false := List.all_eq_false.mpr ⟨c, member, by simp [other]⟩
  rw [wholeNumber?_of_plain negative plain, notAll]
  simp

theorem readInteger?_digits (negative : Bool) {ds : List Char} (isDigits : IsDigits ds) :
    readInteger? (String.ofList (Decimal.signText negative ++ ds)) =
      if 4300 < ds.length then none else (natural? ds).map (Decimal.signed negative) := by
  obtain ⟨c, rest, first⟩ := List.exists_cons_of_ne_nil isDigits.nonempty
  have digit := isDigits.digits c (first ▸ .head _)
  rw [readInteger?_of_plain negative (isPlain_digits isDigits) first digit,
    wholeNumber?_of_digits negative isDigits]

/-! ## Decimals -/

namespace Decimal

theorem unsigned?_of_digit (negative : Bool) {c : Char} (digit : isAsciiDigit c = true)
    (rest : List Char) : unsigned? negative (c :: rest) = finite? negative (c :: rest) := by
  have noLetter : c.toLower ≠ 'i' ∧ c.toLower ≠ 'n' ∧ c.toLower ≠ 's' :=
    digit_induction (motive := fun c => c.toLower ≠ 'i' ∧ c.toLower ≠ 'n' ∧ c.toLower ≠ 's')
      (by decide) digit
  have words : "inf".toList = ['i', 'n', 'f'] ∧ "infinity".toList = ['i', 'n', 'f', 'i', 'n', 'i', 't', 'y'] ∧
      "nan".toList = ['n', 'a', 'n'] ∧ "snan".toList = ['s', 'n', 'a', 'n'] := by decide
  simp [unsigned?, words, noLetter]

theorem ofChars?_eq (cs : List Char) :
    ofChars? cs = unsigned? (splitSign cs).1 (splitSign cs).2 := by
  cases cs with
  | nil => rfl
  | cons c rest =>
    by_cases minus : c = '-'
    · rw [minus]
      rfl
    · by_cases plus : c = '+'
      · rw [plus]
        rfl
      · simp [ofChars?, splitSign_other, minus, plus]

/-- A text of plain characters of which the first one is a digit, after a sign. -/
theorem ofText?_of_plain (negative : Bool) {cs : List Char} (plain : ∀ c ∈ cs, IsPlain c)
    {c : Char} {rest : List Char} (first : cs = c :: rest) (digit : isAsciiDigit c = true) :
    ofText? (String.ofList (signText negative ++ cs)) = finite? negative cs := by
  have signed := isPlain_signed negative plain
  have solid := strip_of_solid fun c member => (signed c member).1
  have noSeparator : (signText negative ++ cs).filter (· ≠ '_') = signText negative ++ cs :=
    List.filter_eq_self.mpr fun c member => decide_eq_true (signed c member).2.1
  have mapped := map_plainDigit signed
  rw [solid] at mapped
  rw [ofText?, String.toList_ofList, solid, noSeparator, mapped, ofChars?_eq, first,
    splitSign_signText negative digit, unsigned?_of_digit negative digit]

theorem finite?_of_digits (negative : Bool) {ds : List Char} (isDigits : IsDigits ds) {n : Nat}
    (read : natural? ds = some n) (held : representable n 0 = true) :
    finite? negative ds = some (.finite negative n 0) := by
  have span := spanDigits_of_digits isDigits.digits noDigit_nil
  rw [List.append_nil] at span
  have some : ds.isEmpty = false := List.isEmpty_eq_false_iff.mpr isDigits.nonempty
  rw [finite?_eq, span, fractionDigits, ofParts?, some]
  · simp [read, exponent?, held]
  · intro rest none
    cases none

/-- A sign and digits can be held whatever the digits are, if they are not as many as an exponent can
count. -/
theorem representable_integer {n : Nat} (short : width n ≤ 4300) : representable n 0 = true := by
  have least : minExponent ≤ 0 := by decide
  have top : (maxAdjusted : Int) = 999999999999999999 := rfl
  rw [representable, adjusted, top]
  simp only [least, decide_true, Bool.true_and]
  split
  · exact decide_eq_true (by omega)
  · exact decide_eq_true (by omega)

/-- The text of a decimal denotes the decimal. -/
theorem ofText?_text (negative : Bool) {c : Nat} {e : Int} (held : representable c e = true) :
    ofText? (text (.finite negative c e)) = some (.finite negative c e) := by
  have plain := isPlain_digitsText c e
  rw [text, chars]
  rcases digitsText_cases c e with ⟨zero, digits⟩ | ⟨-, whole, fraction, x, layout, written⟩
  · subst zero
    rw [digits] at plain ⊢
    obtain ⟨d, rest, first⟩ := List.exists_cons_of_ne_nil (isDigits_ofNat c).nonempty
    have digit := (isDigits_ofNat c).digits d (first ▸ .head _)
    rw [ofText?_of_plain negative plain first digit,
      finite?_of_digits negative (isDigits_ofNat c) (natural?_ofNat c) held]
  · rw [written] at plain ⊢
    obtain ⟨d, rest, first⟩ := List.exists_cons_of_ne_nil layout.isWhole.nonempty
    have digit := layout.isWhole.digits d (first ▸ .head _)
    have begins : whole ++ pointed fraction ++ exponentText x =
        d :: (rest ++ pointed fraction ++ exponentText x) := by
      rw [first]
      rfl
    rw [ofText?_of_plain negative plain begins digit, finite?_of_layout layout held negative]

/-- The text of an integer is its decimal notation. -/
theorem text_ofInt (n : Int) : text (.ofInt n) = String.ofList (Text.ofInt n) := by
  rcases digitsText_cases n.natAbs 0 with ⟨-, digits⟩ | ⟨other, -⟩
  · rw [ofInt, text, chars, digits, Json.ofInt_eq]
  · exact absurd rfl other

end Decimal

/-- The text of a decimal denotes an integer only if it has neither a point nor an exponent, and the digits
are not too many. -/
theorem readInteger?_text (negative : Bool) (c : Nat) (e : Int) :
    readInteger? (Decimal.text (.finite negative c e)) =
      if e = 0 ∧ Decimal.width c ≤ 4300 then some (Decimal.signed negative c) else none := by
  rw [Decimal.text, Decimal.chars]
  rcases Decimal.digitsText_cases c e with ⟨zero, digits⟩ | ⟨other, whole, fraction, x, layout, written⟩
  · rw [digits, readInteger?_digits negative (isDigits_ofNat c), natural?_ofNat, Option.map_some]
    by_cases many : 4300 < (ofNat c).length
    · rw [if_pos many, if_neg fun short => Nat.not_le.mpr many short.2]
    · rw [if_neg many, if_pos ⟨zero, Nat.not_lt.mp many⟩]
  · have plain := isPlain_digitsText c e
    rw [written] at plain ⊢
    obtain ⟨d, rest, first⟩ := List.exists_cons_of_ne_nil layout.isWhole.nonempty
    have digit := layout.isWhole.digits d (first ▸ .head _)
    have begins : whole ++ Decimal.pointed fraction ++ Decimal.exponentText x =
        d :: (rest ++ Decimal.pointed fraction ++ Decimal.exponentText x) := by
      rw [first]
      rfl
    have outside : ∃ c ∈ whole ++ Decimal.pointed fraction ++ Decimal.exponentText x,
        isAsciiDigit c = false := by
      rcases layout.shown with some | some
      · exact ⟨'.', by simp [Decimal.pointed_of_ne_nil some], by decide⟩
      · obtain ⟨negative, letter, -⟩ := Decimal.exponentText_of_ne_zero some
        exact ⟨'E', by simp [letter], by decide⟩
    obtain ⟨o, member, noDigit⟩ := outside
    rw [readInteger?_of_plain negative plain begins digit, wholeNumber?_of_other negative plain member noDigit,
      if_neg (fun whole => other whole.1)]

/-! ## Texts of integers as decimals -/

theorem plainDigit_eq_separator_iff (c : Char) : Decimal.plainDigit c = '_' ↔ c = '_' := by
  have digits : ∀ n, digitChar n ≠ '_' := by
    intro n
    have small : ∀ m < 10, Char.ofNat (48 + m) ≠ '_' := by decide
    exact small (n % 10) (Nat.mod_lt n (by omega))
  rw [Decimal.plainDigit]
  split
  · rename_i d known
    refine iff_of_false (digits d) ?_
    rintro rfl
    cases known
  · exact Iff.rfl

/-- Separators are no digits of any script, so that they may be taken out before or after digits are made
plain. -/
theorem map_plainDigit_filter (cs : List Char) :
    (cs.filter (· ≠ '_')).map Decimal.plainDigit = (cs.map Decimal.plainDigit).filter (· ≠ '_') := by
  rw [List.filter_map]
  congr 2
  funext c
  simp [plainDigit_eq_separator_iff]

theorem splitSign_filter {cs ds : List Char}
    (dropped : Binary64.dropSeparators? isAsciiDigit false (splitSign cs).2 = some ds) :
    splitSign (cs.filter (· ≠ '_')) = ((splitSign cs).1, ds) := by
  have kept := eq_filter_of_dropSeparators? dropped
  cases cs with
  | nil =>
    rw [kept]
    rfl
  | cons c rest =>
    by_cases minus : c = '-'
    · subst minus
      rw [kept]
      rfl
    · by_cases plus : c = '+'
      · subst plus
        rw [kept]
        rfl
      · rw [splitSign_other minus plus] at dropped kept ⊢
        -- No separator stands before the first digit.
        have noSeparator : c ≠ '_' := by
          rintro rfl
          cases rest <;> simp [Binary64.dropSeparators?] at dropped
        rw [kept, List.filter_cons_of_pos (by simpa using noSeparator), splitSign_other minus plus]

/-- A text that denotes an integer denotes the same number as a decimal. -/
theorem ofText?_of_readInteger? {s : String} {n : Int} (read : readInteger? s = some n) :
    ∃ negative c, Decimal.ofText? s = some (.finite negative c 0) ∧ Decimal.signed negative c = n ∧
      Decimal.width c ≤ 4300 := by
  rw [readInteger?_eq, wholeNumber?] at read
  obtain ⟨ds, dropped, whole⟩ := Option.bind_eq_some_iff.mp read
  rw [Option.ite_none_left_eq_some] at whole
  obtain ⟨bounded, whole⟩ := whole
  obtain ⟨c, value, rfl⟩ := Option.map_eq_some_iff.mp whole
  simp only [Bool.or_eq_true, List.isEmpty_iff, Bool.not_eq_true', decide_eq_true_eq, not_or,
    Bool.not_eq_false, List.all_eq_true, Nat.not_lt] at bounded
  obtain ⟨⟨some, digits⟩, short⟩ := bounded
  have isDigits : IsDigits ds := ⟨some, digits⟩
  have width : Decimal.width c ≤ 4300 := (Json.width_le_of_digits isDigits value).trans short
  refine ⟨_, c, ?_, rfl, width⟩
  obtain ⟨d, rest, rfl⟩ := List.exists_cons_of_ne_nil some
  rw [Decimal.ofText?, map_plainDigit_filter, Decimal.ofChars?_eq, splitSign_filter dropped,
    Decimal.unsigned?_of_digit _ (digits d (.head _)),
    Decimal.finite?_of_digits _ isDigits value (Decimal.representable_integer width)]

end SchemaOnRead
