import SchemaOnRead.Proofs.Json.Written

/-!
# Values on one line

The text of a value that was read has no line break in it, and neither begins nor ends with a blank
(`oneLine_compactChars`), so that nothing of it is lost when blanks are taken off.
-/

namespace SchemaOnRead.Json

open Text

/-- A character with which a value may begin. -/
def Begins (c : Char) : Prop := isBlank c = false ∧ c ≠ ']' ∧ c ≠ '\x7d'

instance (c : Char) : Decidable (Begins c) := inferInstanceAs (Decidable (_ ∧ _))

/-- A text stands on one line, with no blanks around it. -/
structure OneLine (cs : List Char) : Prop where
  first : ∃ c after, cs = c :: after ∧ Begins c
  last : ∃ before c, cs = before ++ [c] ∧ isBlank c = false
  inside : ∀ c ∈ cs, isBreak c = false

theorem isBreak_of_not_blank {c : Char} (solid : isBlank c = false) : isBreak c = false := by
  refine eq_false_of_ne_true fun ends => ?_
  rcases isBreak_iff.mp ends with rfl | rfl <;> exact absurd solid (by decide)

theorem skipSpace_of_begins {c : Char} (begins : Begins c) (rest : List Char) :
    skipSpace (c :: rest) = c :: rest := by
  refine List.dropWhile_cons_of_neg fun space => ?_
  simp only [isSpace, Bool.or_eq_true, beq_iff_eq] at space
  rcases space with ((rfl | rfl) | rfl) | rfl <;> exact absurd begins.1 (by decide)

theorem oneLine_of_begins {cs : List Char} (some : cs ≠ []) (begins : ∀ c ∈ cs, Begins c) :
    OneLine cs := by
  refine ⟨?_, ⟨cs.dropLast, cs.getLast some, (List.dropLast_append_getLast some).symm, ?_⟩, ?_⟩
  · obtain ⟨c, after, rfl⟩ := List.exists_cons_of_ne_nil some
    exact ⟨c, after, rfl, begins c List.mem_cons_self⟩
  · exact (begins _ (List.getLast_mem some)).1
  · intro c member
    exact isBreak_of_not_blank (begins c member).1

/-- A text in brackets of some kind stands on one line if its inside has no line breaks. -/
theorem oneLine_enclosed {opening closing : Char} {cs : List Char} (first : Begins opening)
    (last : isBlank closing = false) (inside : ∀ c ∈ cs, isBreak c = false) :
    OneLine (opening :: cs ++ [closing]) := by
  refine ⟨⟨opening, cs ++ [closing], rfl, first⟩, ⟨opening :: cs, closing, rfl, last⟩, ?_⟩
  intro c member
  rcases List.mem_append.mp member with before | single
  · rcases List.mem_cons.mp before with rfl | within
    · exact isBreak_of_not_blank first.1
    · exact inside c within
  · rw [List.mem_singleton.mp single]
    exact isBreak_of_not_blank last

/-- A text without the blanks at its ends has none to lose. -/
theorem strip_of_oneLine {cs : List Char} (oneLine : OneLine cs) : strip cs = cs := by
  have left : stripLeft cs = cs := by
    obtain ⟨c, after, rfl, begins⟩ := oneLine.first
    exact List.dropWhile_cons_of_neg (by simp [begins.1])
  obtain ⟨before, c, rfl, solid⟩ := oneLine.last
  rw [strip, left, stripRight, List.reverse_append, List.reverse_singleton, List.singleton_append,
    List.dropWhile_cons_of_neg (by simp [solid]), List.reverse_cons, List.reverse_reverse]

theorem ofInt_eq (n : Int) : ofInt n = Decimal.signText (n < 0) ++ ofNat n.natAbs := by
  cases n with
  | ofNat n => rfl
  | negSucc n =>
    rw [decide_eq_true (Int.negSucc_lt_zero n)]
    rfl

theorem begins_digit {c : Char} (digit : isAsciiDigit c = true) : Begins c :=
  digit_induction (motive := Begins) (by decide) digit

theorem begins_signText (negative : Bool) : ∀ c ∈ Decimal.signText negative, Begins c := by
  cases negative <;> decide

theorem begins_ofNat (n : Nat) : ∀ c ∈ ofNat n, Begins c :=
  fun c member => begins_digit ((isDigits_ofNat n).digits c member)

theorem begins_layout {c : Nat} {e x : Int} {whole fraction : List Char}
    (layout : Decimal.Layout c e whole fraction x) :
    ∀ d ∈ whole ++ Decimal.pointed fraction ++ Decimal.exponentText x, Begins d :=
  Decimal.forall_mem_layout (fun _ digit => begins_digit digit) (by decide) layout

theorem begins_digitsText (c : Nat) (e : Int) : ∀ d ∈ Decimal.digitsText c e, Begins d :=
  Decimal.forall_mem_digitsText (fun _ digit => begins_digit digit) (by decide) c e

theorem oneLine_number (negative : Bool) {cs : List Char} (some : cs ≠ [])
    (begins : ∀ c ∈ cs, Begins c) : OneLine (Decimal.signText negative ++ cs) := by
  refine oneLine_of_begins (by simp [some]) fun c member => ?_
  rcases List.mem_append.mp member with sign | digit
  · exact begins_signText negative c sign
  · exact begins c digit

theorem isBreak_of_mem_stringChar {c d : Char} (member : d ∈ stringChar c) : isBreak d = false := by
  refine eq_false_of_ne_true fun ends => ?_
  rcases stringChar_cases c with ⟨letter, -, known, written⟩ | ⟨small, written⟩ |
    ⟨-, -, large, written⟩
  · rw [written, List.mem_cons, List.mem_singleton] at member
    rcases member with rfl | rfl
    · exact absurd ends (by decide)
    · rcases isBreak_iff.mp ends with rfl | rfl <;> cases known
  · have digits : ∀ n < 32, ∀ d ∈ hexDigits 4 n, isBreak d = false := by decide
    rw [written, List.mem_cons, List.mem_cons] at member
    rcases member with rfl | rfl | digit
    · exact absurd ends (by decide)
    · exact absurd ends (by decide)
    · exact absurd ends (by simp [digits _ small d digit])
  · rw [written, List.mem_singleton] at member
    subst member
    rcases isBreak_iff.mp ends with rfl | rfl <;> exact large (by decide)

theorem oneLine_stringWith (s : String) : OneLine (stringWith stringChar s) := by
  refine oneLine_enclosed (by decide) (by decide) fun c member => ?_
  obtain ⟨d, -, within⟩ := List.mem_flatMap.mp member
  exact isBreak_of_mem_stringChar within

theorem compactItems_cons (v w : Value) (more : List Value) :
    compactItems (v :: w :: more) = compactChars v ++ ',' :: compactItems (w :: more) := by
  rw [compactItems]
  exact fun none => nomatch none

/-- The text of one field of an object. -/
def fieldChars (p : String × Value) : List Char :=
  stringWith stringChar p.1 ++ ':' :: compactChars p.2

theorem compactFields_single (p : String × Value) : compactFields [p] = fieldChars p := rfl

theorem compactFields_cons (p q : String × Value) (more : Value.Fields) :
    compactFields (p :: q :: more) = fieldChars p ++ ',' :: compactFields (q :: more) := by
  rw [compactFields, fieldChars, List.append_assoc, List.cons_append]
  exact fun none => nomatch none

theorem isBreak_of_mem_compactItems {items : List Value}
    (each : ∀ v ∈ items, OneLine (compactChars v)) : ∀ c ∈ compactItems items, isBreak c = false := by
  induction items with
  | nil => exact fun _ none => nomatch none
  | cons v rest ih =>
    have first := each v List.mem_cons_self
    have later := ih fun w member => each w (List.mem_cons_of_mem v member)
    cases rest with
    | nil => exact first.inside
    | cons w more =>
      intro c member
      rw [compactItems_cons, List.mem_append, List.mem_cons] at member
      rcases member with inFirst | rfl | inLater
      · exact first.inside c inFirst
      · rfl
      · exact later c inLater

theorem isBreak_of_mem_compactFields {fields : Value.Fields}
    (each : ∀ p ∈ fields, OneLine (compactChars p.2)) :
    ∀ c ∈ compactFields fields, isBreak c = false := by
  induction fields with
  | nil => exact fun _ none => nomatch none
  | cons p rest ih =>
    have first := each p List.mem_cons_self
    have later := ih fun q member => each q (List.mem_cons_of_mem _ member)
    have inField : ∀ c ∈ fieldChars p, isBreak c = false := by
      intro c member
      rw [fieldChars, List.mem_append, List.mem_cons] at member
      rcases member with inName | rfl | inValue
      · exact (oneLine_stringWith p.1).inside c inName
      · rfl
      · exact first.inside c inValue
    cases rest with
    | nil => exact inField
    | cons q more =>
      intro c member
      rw [compactFields_cons, List.mem_append, List.mem_cons] at member
      rcases member with inFirst | rfl | inLater
      · exact inField c inFirst
      · rfl
      · exact later c inLater

/-- The text of a value that can be read stands on one line. -/
theorem oneLine_compactChars {v : Value} (decoded : Decoded v) : OneLine (compactChars v) := by
  induction decoded with
  | null => exact oneLine_of_begins (by decide) (by decide)
  | bool b => cases b <;> exact oneLine_of_begins (by decide) (by decide)
  | nan => exact oneLine_of_begins (by decide) (by decide)
  | infinite negative => cases negative <;> exact oneLine_of_begins (by decide) (by decide)
  | @integer n =>
    rw [compactChars, ofInt_eq]
    exact oneLine_number _ (isDigits_ofNat _).nonempty (begins_ofNat _)
  | @decimal negative c e =>
    exact oneLine_number negative (Decimal.digitsText_ne_nil c e) (begins_digitsText c e)
  | text s => exact oneLine_stringWith s
  | list _ ih => exact oneLine_enclosed (by decide) (by decide) (isBreak_of_mem_compactItems ih)
  | object _ _ ih => exact oneLine_enclosed (by decide) (by decide) (isBreak_of_mem_compactFields ih)

end SchemaOnRead.Json
