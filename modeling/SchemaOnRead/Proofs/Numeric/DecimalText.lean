import SchemaOnRead.Proofs.Text.Digits

/-!
# The text of a finite decimal

A finite decimal is written as digits, with a point among them and an exponent after them where they
are needed. Only a decimal of exponent zero is written with neither (`digitsText_cases`), and the
digits, the point and the exponent read as the coefficient and the exponent they were made from
(`finite?_of_layout`).
-/

namespace SchemaOnRead.Decimal

open Text

/-! ## Reading a decimal -/

/-- The digits after the point of a number, with what follows them. -/
def fractionDigits : List Char → List Char × List Char
  | '.' :: rest => spanDigits rest
  | rest => ([], rest)

/-- The number with the given digits before and after its point and the given exponent. -/
def ofParts? (negative : Bool) (whole fraction exponent : List Char) : Option Decimal :=
  if whole.isEmpty && fraction.isEmpty then none
  else
    match natural? (whole ++ fraction), exponent? exponent with
    | some c, some e =>
      if representable c (e - fraction.length) then
        some (.finite negative c (e - fraction.length))
      else none
    | _, _ => none

theorem finite?_eq (negative : Bool) (cs : List Char) :
    finite? negative cs = ofParts? negative (spanDigits cs).1 (fractionDigits (spanDigits cs).2).1
      (fractionDigits (spanDigits cs).2).2 := rfl

/-- A finite number that is read can be held. -/
theorem finite?_eq_some {negative : Bool} {cs : List Char} {d : Decimal}
    (read : finite? negative cs = some d) :
    ∃ c e, d = .finite negative c e ∧ representable c e = true := by
  rw [finite?_eq, ofParts?] at read
  split at read
  · cases read
  · split at read
    · split at read
      · rename_i held
        exact ⟨_, _, (Option.some.inj read).symm, held⟩
      · cases read
    · cases read

/-! ## Exponents -/

/-- An exponent that is written has its letter, its sign and its digits. -/
theorem exponentText_of_ne_zero {x : Int} (some : x ≠ 0) : ∃ negative : Bool,
    exponentText x = 'E' :: (if negative then '-' else '+') :: ofNat x.natAbs ∧
      x = signed negative x.natAbs := by
  rw [exponentText, if_neg some]
  cases x with
  | ofNat n => exact ⟨false, if_neg (by simp), rfl⟩
  | negSucc n => exact ⟨true, if_pos (Int.negSucc_lt_zero n), rfl⟩

theorem exponent?_of_digits (negative : Bool) {ds : List Char} (isDigits : IsDigits ds) {n : Nat}
    (read : natural? ds = some n) :
    exponent? ('E' :: (if negative then '-' else '+') :: ds) = some (signed negative n) := by
  have all : ds.all isAsciiDigit = true := List.all_eq_true.mpr isDigits.digits
  cases negative
  · simp [exponent?, all, isDigits.nonempty, read, signed]
  · simp [exponent?, all, isDigits.nonempty, read, signed]

theorem exponent?_exponentText (x : Int) : exponent? (exponentText x) = some x := by
  by_cases zero : x = 0
  · rw [exponentText, if_pos zero, exponent?, zero]
  · obtain ⟨negative, written, same⟩ := exponentText_of_ne_zero zero
    rw [written, exponent?_of_digits negative (isDigits_ofNat _) (natural?_ofNat _), ← same]

theorem noDigit_exponentText (x : Int) : NoDigit (exponentText x) := by
  by_cases zero : x = 0
  · rw [exponentText, if_pos zero]
    exact noDigit_nil
  · obtain ⟨negative, written, -⟩ := exponentText_of_ne_zero zero
    rw [written]
    exact noDigit_cons (by decide) _

/-! ## Layouts -/

/-- Digits after a point, which is written only if there are any. -/
def pointed (fraction : List Char) : List Char := if fraction.isEmpty then [] else '.' :: fraction

/-- The digits before the point of a number: a zero alone, or digits that do not begin with one. -/
structure IsWhole (ds : List Char) : Prop extends IsDigits ds where
  canonical : ds = ['0'] ∨ ∀ rest, ds ≠ '0' :: rest

theorem isWhole_zero : IsWhole ['0'] := ⟨⟨List.cons_ne_nil _ _, by decide⟩, .inl rfl⟩

theorem isWhole_ofNat (n : Nat) : IsWhole (ofNat n) := by
  by_cases zero : n = 0
  · rw [zero]
    exact isWhole_zero
  · exact ⟨isDigits_ofNat n, .inr (ofNat_ne_zero_cons zero)⟩

/-- The first digits of a number of two or more digits. -/
theorem isWhole_take {c count : Nat} (some : 0 < count) (fewer : count < (ofNat c).length) :
    IsWhole ((ofNat c).take count) := by
  have positive : c ≠ 0 := by
    rintro rfl
    have one : (ofNat 0).length = 1 := rfl
    omega
  refine ⟨⟨fun empty => ?_, fun d member => ?_⟩, .inr fun rest same => ?_⟩
  · have length := congrArg List.length empty
    rw [List.length_take, List.length_nil] at length
    omega
  · exact (isDigits_ofNat c).digits d (List.mem_of_mem_take member)
  · have whole := List.take_append_drop count (ofNat c)
    rw [same] at whole
    exact ofNat_ne_zero_cons positive _ whole.symm

theorem isDigits_drop {c count : Nat} (fewer : count < (ofNat c).length) :
    IsDigits ((ofNat c).drop count) := by
  refine ⟨fun empty => ?_, fun d member => (isDigits_ofNat c).digits d (List.mem_of_mem_drop member)⟩
  have length := congrArg List.length empty
  rw [List.length_drop, List.length_nil] at length
  omega

theorem isDigits_zeros_ofNat (count n : Nat) : IsDigits (List.replicate count '0' ++ ofNat n) := by
  refine ⟨fun empty => (isDigits_ofNat n).nonempty (List.append_eq_nil_iff.mp empty).2, ?_⟩
  intro d member
  rcases List.mem_append.mp member with zero | digit
  · rw [List.eq_of_mem_replicate zero]
    decide
  · exact (isDigits_ofNat n).digits d digit

/-- The parts of the text of `c * 10 ^ e` that has a point or an exponent. -/
structure Layout (c : Nat) (e : Int) (whole fraction : List Char) (x : Int) : Prop where
  isWhole : IsWhole whole
  digits : ∀ d ∈ fraction, isAsciiDigit d = true
  shown : fraction ≠ [] ∨ x ≠ 0
  coefficient : natural? (whole ++ fraction) = some c
  exponent : x - fraction.length = e

namespace Layout

variable {c : Nat} {e x : Int}

/-- All digits stand after the point, with zeros before them. -/
theorem afterPoint {zeros : Nat} (places : (zeros : Int) + (ofNat c).length = -e) :
    Layout c e ['0'] (List.replicate zeros '0' ++ ofNat c) 0 where
  isWhole := isWhole_zero
  digits := (isDigits_zeros_ofNat zeros c).digits
  shown := .inl (isDigits_zeros_ofNat zeros c).nonempty
  coefficient := natural?_zeros_ofNat (zeros + 1) c
  exponent := by
    rw [List.length_append, List.length_replicate]
    omega

/-- The point stands between two digits. -/
theorem between {count : Nat} (some : 0 < count) (fewer : count < (ofNat c).length)
    (places : x - (ofNat c).length + count = e) :
    Layout c e ((ofNat c).take count) ((ofNat c).drop count) x where
  isWhole := isWhole_take some fewer
  digits := (isDigits_drop fewer).digits
  shown := .inl (isDigits_drop fewer).nonempty
  coefficient := by rw [List.take_append_drop, natural?_ofNat]
  exponent := by
    rw [List.length_drop]
    omega

/-- There is no point. -/
theorem pointless (other : e ≠ 0) : Layout c e (ofNat c) [] e where
  isWhole := isWhole_ofNat c
  digits _ none := nomatch none
  shown := .inr other
  coefficient := by rw [List.append_nil, natural?_ofNat]
  exponent := Int.sub_zero e

end Layout

theorem pointed_of_ne_nil {fraction : List Char} (some : fraction ≠ []) :
    pointed fraction = '.' :: fraction := if_neg (by simpa using some)

/-- A text of digits alone is that of a decimal with exponent zero; any other has a point or an
exponent. -/
theorem digitsText_cases (c : Nat) (e : Int) :
    (e = 0 ∧ digitsText c e = ofNat c) ∨
      e ≠ 0 ∧ ∃ whole fraction x, Layout c e whole fraction x ∧
        digitsText c e = whole ++ pointed fraction ++ exponentText x := by
  have length := List.length_pos_iff.mpr (isDigits_ofNat c).nonempty
  by_cases positional : e ≤ 0 ∧ -6 < e + (ofNat c).length
  · have text : digitsText c e = placePoint (ofNat c) (e + (ofNat c).length) ++ exponentText 0 := by
      simp only [digitsText, if_pos positional, Int.sub_self]
    rw [text, placePoint]
    by_cases small : e + (ofNat c).length ≤ 0
    · have layout : Layout c e ['0']
          (List.replicate (-(e + (ofNat c).length)).toNat '0' ++ ofNat c) 0 :=
        .afterPoint (by omega)
      refine .inr ⟨by omega, _, _, _, layout, ?_⟩
      rw [if_pos small, pointed_of_ne_nil (isDigits_zeros_ofNat _ c).nonempty]
      rfl
    · rw [if_neg small]
      by_cases whole : ((ofNat c).length : Int) ≤ e + (ofNat c).length
      · have zero : e = 0 := by omega
        subst zero
        exact .inl ⟨rfl, by simp [exponentText]⟩
      · have fewer : (e + (ofNat c).length).toNat < (ofNat c).length := by omega
        have layout : Layout c e _ _ 0 := .between (by omega) fewer (by omega)
        refine .inr ⟨by omega, _, _, _, layout, ?_⟩
        rw [if_neg whole, pointed_of_ne_nil (isDigits_drop fewer).nonempty]
  · have other : e ≠ 0 := by omega
    have text : digitsText c e =
        placePoint (ofNat c) 1 ++ exponentText (e + (ofNat c).length - 1) := by
      simp only [digitsText, if_neg positional]
    rw [text, placePoint, if_neg (by omega)]
    by_cases single : ((ofNat c).length : Int) ≤ 1
    · have one : (ofNat c).length = 1 := by omega
      have scale : e + (ofNat c).length - 1 = e := by omega
      refine .inr ⟨other, _, _, _, .pointless other, ?_⟩
      rw [if_pos single, scale, one]
      rfl
    · have fewer : 1 < (ofNat c).length := by omega
      have layout : Layout c e _ _ (e + (ofNat c).length - 1) :=
        .between Nat.one_pos fewer (by omega)
      refine .inr ⟨other, _, _, _, layout, ?_⟩
      rw [if_neg single, pointed_of_ne_nil (isDigits_drop fewer).nonempty]
      rfl

theorem digitsText_ne_nil (c : Nat) (e : Int) : digitsText c e ≠ [] := by
  rcases digitsText_cases c e with ⟨-, digits⟩ | ⟨-, whole, fraction, x, layout, text⟩
  · exact digits ▸ (isDigits_ofNat c).nonempty
  · simp [text, layout.isWhole.nonempty]

variable {c : Nat} {e : Int} {whole fraction : List Char} {x : Int}

/-- What holds of the digits and of the other characters of a number's text holds of all of it. -/
theorem forall_mem_layout {holds : Char → Prop} (digit : ∀ d, isAsciiDigit d = true → holds d)
    (others : ∀ d ∈ ['.', 'E', '+', '-'], holds d) (layout : Layout c e whole fraction x) :
    ∀ d ∈ whole ++ pointed fraction ++ exponentText x, holds d := by
  simp only [List.forall_mem_cons] at others
  obtain ⟨point, letter, plus, minus, -⟩ := others
  have inFraction : ∀ d ∈ pointed fraction, holds d := by
    rw [pointed]
    split
    · exact List.forall_mem_nil _
    · exact List.forall_mem_cons.mpr ⟨point, fun d member => digit d (layout.digits d member)⟩
  have inExponent : ∀ d ∈ exponentText x, holds d := by
    by_cases zero : x = 0
    · rw [exponentText, if_pos zero]
      exact List.forall_mem_nil _
    · obtain ⟨negative, written, -⟩ := exponentText_of_ne_zero zero
      have sign : holds (if negative then '-' else '+') := by
        cases negative
        · exact plus
        · exact minus
      rw [written]
      exact List.forall_mem_cons.mpr ⟨letter, List.forall_mem_cons.mpr ⟨sign, fun d member =>
        digit d ((isDigits_ofNat _).digits d member)⟩⟩
  intro d member
  rw [List.append_assoc, List.mem_append, List.mem_append] at member
  rcases member with whole | inOther | inOther
  · exact digit d (layout.isWhole.digits d whole)
  · exact inFraction d inOther
  · exact inExponent d inOther

theorem forall_mem_digitsText {holds : Char → Prop} (digit : ∀ d, isAsciiDigit d = true → holds d)
    (others : ∀ d ∈ ['.', 'E', '+', '-'], holds d) (c : Nat) (e : Int) :
    ∀ d ∈ digitsText c e, holds d := by
  rcases digitsText_cases c e with ⟨-, digits⟩ | ⟨-, whole, fraction, x, layout, text⟩
  · rw [digits]
    exact fun d member => digit d ((isDigits_ofNat c).digits d member)
  · rw [text]
    exact forall_mem_layout digit others layout

theorem noDigit_pointed (fraction : List Char) (x : Int) :
    NoDigit (pointed fraction ++ exponentText x) := by
  rw [pointed]
  split
  · exact noDigit_exponentText x
  · exact noDigit_cons (by decide) _

/-- The parts of a text are read as the decimal they were made from. -/
theorem finite?_of_layout (layout : Layout c e whole fraction x) (held : representable c e = true)
    (negative : Bool) :
    finite? negative (whole ++ pointed fraction ++ exponentText x) = some (.finite negative c e) := by
  have afterPoint : fractionDigits (pointed fraction ++ exponentText x) =
      (fraction, exponentText x) := by
    by_cases none : fraction = []
    · rw [none, pointed, if_pos List.isEmpty_nil, List.nil_append, fractionDigits]
      intro rest same
      by_cases zero : x = 0
      · rw [exponentText, if_pos zero] at same
        cases same
      · obtain ⟨negative, written, -⟩ := exponentText_of_ne_zero zero
        rw [written] at same
        exact absurd (List.cons.inj same).1 (by decide)
    · rw [pointed_of_ne_nil none, List.cons_append, fractionDigits]
      exact spanDigits_of_digits layout.digits (noDigit_exponentText x)
  have some : whole.isEmpty = false := List.isEmpty_eq_false_iff.mpr layout.isWhole.nonempty
  rw [finite?_eq, List.append_assoc,
    spanDigits_of_digits layout.isWhole.digits (noDigit_pointed fraction x), afterPoint, ofParts?, some,
    Bool.false_and, if_neg Bool.false_ne_true]
  simp only [layout.coefficient, exponent?_exponentText, layout.exponent, held, if_true]

end SchemaOnRead.Decimal
