import Mathlib.Algebra.Group.Nat.Defs
import Mathlib.Data.List.TakeDrop
import SchemaOnRead.Numeric.Decimal

/-!
# Decimal notation read back

The notation of a natural number is made of ASCII digits, begins with a zero only if the number is
zero, and denotes the number (`natural?_ofNat`). Zeros before digits do not count.
-/

namespace SchemaOnRead.Text

/-- What holds of every character of a text is decided along the text. -/
instance (priority := high) decidableForallMem (cs : List Char) (p : Char → Prop)
    [DecidablePred p] : Decidable (∀ c ∈ cs, p c) :=
  List.decidableBAll p cs

/-! ## Numbers of characters -/

theorem toNat_of_isValid (c : Char) : c.toNat < 0xD800 ∨ 0xDFFF < c.toNat ∧ c.toNat < 0x110000 := c.valid

theorem toNat_ofNat {n : Nat} (valid : n.isValidChar) : (Char.ofNat n).toNat = n := by
  have same : Char.ofNat n = Char.ofNatAux n valid := dif_pos valid
  rw [same]
  rfl

/-! ## Digits -/

theorem isAsciiDigit_iff {c : Char} : isAsciiDigit c = true ↔ '0' ≤ c ∧ c ≤ '9' := by
  rw [isAsciiDigit, asciiDigit?]
  split <;> simp_all

theorem isAsciiDigit_eq (c : Char) : isAsciiDigit c = c.isDigit := by
  rw [Bool.eq_iff_iff, isAsciiDigit_iff, Char.isDigit, Bool.and_eq_true, decide_eq_true_eq,
    decide_eq_true_eq]
  rfl

theorem digit?_of_isAsciiDigit {c : Char} (digit : isAsciiDigit c = true) :
    digit? c = some (c.toNat - 48) := by
  have bounds := isAsciiDigit_iff.mp digit
  have small : c.toNat < 128 := Nat.lt_of_le_of_lt (Char.le_def.mp bounds.2) (by decide)
  rw [digit?, if_pos small, asciiDigit?, if_pos bounds]

/-- What holds of the ten digits holds of every ASCII digit. -/
theorem digit_induction {motive : Char → Prop} (each : ∀ n < 10, motive (digitChar n)) {c : Char}
    (digit : isAsciiDigit c = true) : motive c := by
  have bounds := isAsciiDigit_iff.mp digit
  have low : 48 ≤ c.toNat := Char.le_def.mp bounds.1
  have high : c.toNat ≤ 57 := Char.le_def.mp bounds.2
  have same : digitChar (c.toNat - 48) = c := by
    rw [digitChar, Nat.mod_eq_of_lt (by omega), Nat.add_sub_cancel' low, Char.ofNat_toNat]
  exact same ▸ each (c.toNat - 48) (by omega)

/-- A text of ASCII digits, one or more. -/
structure IsDigits (ds : List Char) : Prop where
  nonempty : ds ≠ []
  digits : ∀ c ∈ ds, isAsciiDigit c = true

theorem natural?_of_digits {ds : List Char} (digits : ∀ c ∈ ds, isAsciiDigit c = true) :
    natural? ds = some (Nat.ofDigitChars 10 ds 0) := by
  have values : ds.mapM digit? = some (ds.map fun c => c.toNat - 48) := by
    induction ds with
    | nil => rfl
    | cons c ds ih =>
      rw [List.mapM_cons, digit?_of_isAsciiDigit (digits c List.mem_cons_self),
        ih fun d member => digits d (List.mem_cons_of_mem c member)]
      rfl
  rw [natural?, values, Option.map_some, ofDigits, Nat.ofDigitChars, List.foldl_map]
  rfl

theorem ofDigitChars_lt {ds : List Char} (digits : ∀ c ∈ ds, isAsciiDigit c = true) :
    Nat.ofDigitChars 10 ds 0 < 10 ^ ds.length := by
  -- the digits after a number `init` make it less than `init + 1` followed by as many zeros
  have bound : ∀ init, Nat.ofDigitChars 10 ds init < (init + 1) * 10 ^ ds.length := by
    induction ds with
    | nil => exact fun init => by simp [Nat.ofDigitChars]
    | cons c ds ih =>
      intro init
      have value : c.toNat - 48 < 10 := by
        have high : c.toNat ≤ 57 := Char.le_def.mp (isAsciiDigit_iff.mp (digits c List.mem_cons_self)).2
        omega
      have rest := ih (fun d member => digits d (List.mem_cons_of_mem c member))
        (10 * init + (c.toNat - 48))
      have next : 10 * init + (c.toNat - 48) + 1 ≤ (init + 1) * 10 := by omega
      calc Nat.ofDigitChars 10 (c :: ds) init
          = Nat.ofDigitChars 10 ds (10 * init + (c.toNat - 48)) := rfl
        _ < (10 * init + (c.toNat - 48) + 1) * 10 ^ ds.length := rest
        _ ≤ (init + 1) * 10 * 10 ^ ds.length := Nat.mul_le_mul_right _ next
        _ = (init + 1) * 10 ^ (c :: ds).length := by
          rw [List.length_cons, Nat.pow_succ, Nat.mul_assoc, Nat.mul_comm 10]
  simpa using bound 0

/-! ## Notations -/

theorem isDigits_ofNat (n : Nat) : IsDigits (ofNat n) where
  nonempty := Nat.toDigits_ne_nil
  digits c member := by
    rw [isAsciiDigit_eq]
    exact Nat.isDigit_of_mem_toDigits (by omega) (by omega) member

theorem natural?_ofNat (n : Nat) : natural? (ofNat n) = some n := by
  rw [natural?_of_digits (isDigits_ofNat n).digits, ofNat,
    Nat.ofDigitChars_toDigits (by omega) (by omega)]

/-- Zeros before the notation of a number do not change what it denotes. -/
theorem natural?_zeros_ofNat (count n : Nat) :
    natural? (List.replicate count '0' ++ ofNat n) = some n := by
  have digits : ∀ c ∈ List.replicate count '0' ++ ofNat n, isAsciiDigit c = true := by
    intro c member
    rcases List.mem_append.mp member with zero | digit
    · rw [List.eq_of_mem_replicate zero]
      decide
    · exact (isDigits_ofNat n).digits c digit
  rw [natural?_of_digits digits, Nat.ofDigitChars_append, Nat.ofDigitChars_replicate_zero,
    Nat.mul_zero, ofNat, Nat.ofDigitChars_toDigits (by omega) (by omega)]

/-- The first digits of a number are its quotient by a power of ten. -/
theorem natural?_take {ds : List Char} (digits : ∀ c ∈ ds, isAsciiDigit c = true) {n : Nat}
    (value : natural? ds = some n) (k : Nat) :
    natural? (ds.take k) = some (n / 10 ^ (ds.length - k)) := by
  have first : ∀ c ∈ ds.take k, isAsciiDigit c = true := fun c member => digits c (List.mem_of_mem_take member)
  have later : ∀ c ∈ ds.drop k, isAsciiDigit c = true := fun c member => digits c (List.mem_of_mem_drop member)
  rw [natural?_of_digits digits] at value
  have parts := Nat.ofDigitChars_append (b := 10) (l := ds.take k) (m := ds.drop k) 0
  rw [List.take_append_drop, Option.some.inj value, Nat.ofDigitChars_eq_ofDigitChars_zero, List.length_drop] at parts
  have less := ofDigitChars_lt later
  rw [List.length_drop] at less
  rw [natural?_of_digits first, parts, Nat.mul_add_div (Nat.pow_pos (by omega)), Nat.div_eq_of_lt less, Nat.add_zero]

/-- Only the notation of zero begins with a zero. -/
theorem ofNat_ne_zero_cons {n : Nat} (positive : n ≠ 0) (rest : List Char) :
    ofNat n ≠ '0' :: rest := by
  induction n using Nat.strongRecOn generalizing rest with
  | ind n ih =>
    rw [ofNat, Nat.toDigits_eq_if (by omega)]
    split
    · rename_i small
      intro same
      have first : n.digitChar = '0' := (List.cons.inj same).1
      have : ∀ m < 10, m ≠ 0 → m.digitChar ≠ '0' := by decide
      exact this n small positive first
    · rename_i large
      intro same
      obtain ⟨c, cs, front⟩ := List.exists_cons_of_ne_nil (isDigits_ofNat (n / 10)).nonempty
      rw [ofNat] at front
      rw [front, List.cons_append] at same
      rw [(List.cons.inj same).1] at front
      exact ih (n / 10) (by omega) (by omega) cs front

/-! ## Digits at the start of a text -/

/-- A text does not go on with an ASCII digit. -/
def NoDigit (rest : List Char) : Prop := ∀ c after, rest = c :: after → isAsciiDigit c = false

theorem noDigit_nil : NoDigit [] := fun _ _ same => nomatch same

theorem noDigit_cons {c : Char} (other : isAsciiDigit c = false) (rest : List Char) :
    NoDigit (c :: rest) := fun _ _ same => (List.cons.inj same).1 ▸ other

theorem spanDigits_of_digits {ds rest : List Char} (digits : ∀ c ∈ ds, isAsciiDigit c = true)
    (ended : NoDigit rest) : Decimal.spanDigits (ds ++ rest) = (ds, rest) := by
  have none : rest.takeWhile isAsciiDigit = [] ∧ rest.dropWhile isAsciiDigit = rest := by
    cases rest with
    | nil => exact ⟨rfl, rfl⟩
    | cons c after =>
      have other := ended c after rfl
      rw [List.takeWhile_cons, List.dropWhile_cons, other]
      exact ⟨rfl, rfl⟩
  rw [Decimal.spanDigits, List.span_eq_takeWhile_dropWhile, List.takeWhile_append_of_pos digits,
    List.dropWhile_append_of_pos digits, none.1, none.2, List.append_nil]

end SchemaOnRead.Text
