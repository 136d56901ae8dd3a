import Mathlib.Algebra.Order.Field.Basic
import Mathlib.Algebra.Order.Ring.Rat
import Mathlib.Data.Rat.Floor
import Mathlib.Tactic.FieldSimp
import Mathlib.Tactic.Linarith
import Mathlib.Tactic.Ring
import SchemaOnRead.Proofs.Text.Digits

/-!
# Decimals with a fixed number of digits after the point

A finite decimal is brought to some number of digits after the point by rounding it to the nearest
number of that form, halves going to the even one. It has no such form if its digits are then too many,
and for no other reason (`quantize?_finite`).
-/

namespace SchemaOnRead

/-- An integer is what a number is rounded to: the nearest one, and the even one of two that are
equally near. -/
structure Rounds (x : ℚ) (n : Int) : Prop where
  near : |n - x| ≤ 1 / 2
  even : |n - x| = 1 / 2 → n % 2 = 0

theorem Rounds.neg {x : ℚ} {n : Int} (rounds : Rounds x n) : Rounds (-x) (-n) := by
  have same : |((-n : Int) : ℚ) - -x| = |n - x| := by
    rw [Int.cast_neg, neg_sub_neg, abs_sub_comm]
  refine ⟨same ▸ rounds.near, fun half => ?_⟩
  have even := rounds.even (same ▸ half)
  omega

/-- Between two integers, a number is rounded to the nearer one. -/
theorem rounds_of_lt_half {q : Int} {f : ℚ} (least : 0 ≤ f) (lower : f < 1 / 2) : Rounds (q + f) q := by
  have distance : |(q : ℚ) - (q + f)| = f := by
    rw [sub_add_cancel_left, abs_neg, abs_of_nonneg least]
  exact ⟨by rw [distance]; exact lower.le, fun half => absurd (distance ▸ half) lower.ne⟩

theorem rounds_of_half_lt {q : Int} {f : ℚ} (upper : 1 / 2 < f) (most : f ≤ 1) :
    Rounds (q + f) (q + 1) := by
  have distance : |((q + 1 : Int) : ℚ) - (q + f)| = 1 - f := by
    rw [Int.cast_add, Int.cast_one, add_sub_add_left_eq_sub, abs_of_nonneg (by linarith)]
  refine ⟨by rw [distance]; linarith, fun half => ?_⟩
  rw [distance] at half
  linarith

/-- Halfway between two integers, a number is rounded to the even one. -/
theorem rounds_of_half {q n : Int} (next : n = q ∨ n = q + 1) (even : n % 2 = 0) :
    Rounds (q + 1 / 2) n := by
  have distance : |(n : ℚ) - (q + 1 / 2)| = 1 / 2 := by
    rcases next with rfl | rfl
    · rw [sub_add_cancel_left, abs_neg, abs_of_nonneg (by norm_num)]
    · rw [Int.cast_add, Int.cast_one, add_sub_add_left_eq_sub, abs_of_nonneg (by norm_num)]
      norm_num
  exact ⟨distance.le, fun _ => even⟩

/-- The nearest integer; of two that are equally near, the even one. -/
def halfEven (x : ℚ) : Int :=
  let f := x - ⌊x⌋
  if 1 / 2 < f ∨ f = 1 / 2 ∧ ⌊x⌋ % 2 = 1 then ⌊x⌋ + 1 else ⌊x⌋

theorem rounds_halfEven (x : ℚ) : Rounds x (halfEven x) := by
  have parts : x = ⌊x⌋ + (x - ⌊x⌋) := by ring
  have least : 0 ≤ x - ⌊x⌋ := sub_nonneg.mpr (Int.floor_le x)
  have less : x - ⌊x⌋ < 1 := by
    have := Int.lt_floor_add_one x
    linarith
  rw [halfEven]
  generalize ⌊x⌋ = q at *
  generalize x - q = f at *
  subst parts
  rcases lt_trichotomy f (1 / 2) with lower | rfl | upper
  · simp only [lower.ne, not_lt.mpr lower.le, false_and, or_self, if_false]
    exact rounds_of_lt_half least lower
  · simp only [lt_irrefl, false_or, true_and]
    split
    · exact rounds_of_half (.inr rfl) (by omega)
    · exact rounds_of_half (.inl rfl) (by omega)
  · simp only [upper, true_or, if_true]
    exact rounds_of_half_lt upper less.le

/-- A number is rounded in one way only. -/
theorem Rounds.unique {x : ℚ} {m n : Int} (first : Rounds x m) (second : Rounds x n) : m = n := by
  have nearM := abs_le.mp first.near
  have nearN := abs_le.mp second.near
  have above : (m : ℚ) ≤ n + 1 := by linarith
  have below : (n : ℚ) ≤ m + 1 := by linarith
  have above : m ≤ n + 1 := by exact_mod_cast above
  have below : n ≤ m + 1 := by exact_mod_cast below
  -- Two neighbours can only both be nearest if the number is halfway between them.
  rcases lt_trichotomy m n with less | same | more
  · have next : (n : ℚ) = m + 1 := by exact_mod_cast (show n = m + 1 by omega)
    have evenM := first.even (by rw [abs_of_nonpos] <;> linarith)
    have evenN := second.even (by rw [abs_of_nonneg] <;> linarith)
    omega
  · exact same
  · have next : (m : ℚ) = n + 1 := by exact_mod_cast (show m = n + 1 by omega)
    have evenM := first.even (by rw [abs_of_nonneg] <;> linarith)
    have evenN := second.even (by rw [abs_of_nonpos] <;> linarith)
    omega

theorem Rounds.eq_halfEven {x : ℚ} {n : Int} (rounds : Rounds x n) : n = halfEven x :=
  rounds.unique (rounds_halfEven x)

/-- An integer is rounded to itself. -/
theorem halfEven_int (n : Int) : halfEven n = n := by
  have exactly := rounds_of_lt_half (q := n) (le_refl (0 : ℚ)) (by norm_num)
  rw [add_zero] at exactly
  exact exactly.eq_halfEven.symm

namespace Decimal

open Text

theorem width_le_iff {n k : Nat} (some : 0 < k) : width n ≤ k ↔ n < 10 ^ k := by
  rw [width, ofNat, Nat.length_toDigits_le_iff (by omega) some]

theorem lt_tenTo_width (n : Nat) : n < 10 ^ width n := by
  have some : 0 < width n := List.length_pos_iff.mpr (isDigits_ofNat n).nonempty
  exact (width_le_iff some).mp (Nat.le_refl _)

theorem shiftRight_eq (n k : Nat) :
    shiftRight n k =
      if 10 ^ k < 2 * (n % 10 ^ k) ∨ 2 * (n % 10 ^ k) = 10 ^ k ∧ n / 10 ^ k % 2 = 1 then
        n / 10 ^ k + 1
      else n / 10 ^ k := rfl

/-- A division by a power of ten is rounded. -/
theorem rounds_shiftRight (n k : Nat) : Rounds (n / 10 ^ k) (shiftRight n k) := by
  have positive : 0 < 10 ^ k := Nat.pow_pos (by omega)
  have unit : (10 : ℚ) ^ k = (10 ^ k : Nat) := by norm_cast
  have less := Nat.mod_lt n positive
  have whole := Nat.div_add_mod n (10 ^ k)
  rw [unit, shiftRight_eq]
  generalize 10 ^ k = u at *
  generalize n / u = q at *
  generalize n % u = r at *
  have positive' : (0 : ℚ) < u := by exact_mod_cast positive
  have parts : (n : ℚ) / u = (q : Int) + (r : ℚ) / u := by
    rw [← whole]
    push_cast
    field_simp
  rw [parts]
  rcases Nat.lt_trichotomy (2 * r) u with lower | half | upper
  · rw [if_neg (by omega)]
    refine rounds_of_lt_half (by positivity) ?_
    rw [div_lt_iff₀ positive']
    have lower : (2 * r : ℚ) < u := by exact_mod_cast lower
    linarith
  · have middle : (r : ℚ) / u = 1 / 2 := by
      have half : (2 * r : ℚ) = u := by exact_mod_cast half
      rw [div_eq_div_iff positive'.ne' two_ne_zero]
      linarith
    rw [middle]
    split
    · exact rounds_of_half (.inr (by push_cast; rfl)) (by omega)
    · exact rounds_of_half (.inl rfl) (by omega)
  · rw [if_pos (.inl upper), Nat.cast_add]
    refine rounds_of_half_lt ?_ ?_
    · rw [lt_div_iff₀ positive']
      have upper : (u : ℚ) < 2 * r := by exact_mod_cast upper
      linarith
    · rw [div_le_one positive']
      exact_mod_cast less.le

/-- Less than a tenth of a unit is rounded to nothing. -/
theorem shiftRight_eq_zero {n k : Nat} (small : width n < k) : shiftRight n k = 0 := by
  have less : 10 * n < 10 ^ k := by
    calc 10 * n < 10 * 10 ^ width n := by have := lt_tenTo_width n; omega
      _ = 10 ^ (width n + 1) := (Nat.pow_succ' ..).symm
      _ ≤ 10 ^ k := Nat.pow_le_pow_right (by omega) small
  rw [shiftRight_eq, Nat.mod_eq_of_lt (by omega), Nat.div_eq_of_lt (by omega), if_neg (by omega)]

/-- `c * 10 ^ shift` as an integer, rounded. -/
def shifted (c : Nat) (shift : Int) : Nat :=
  if 0 ≤ shift then c * 10 ^ shift.toNat else shiftRight c (-shift).toNat

theorem shifted_eq (c : Nat) (shift : Int) : (shifted c shift : Int) = halfEven (c * 10 ^ shift) := by
  rw [shifted]
  split
  · rename_i up
    obtain ⟨k, rfl⟩ := Int.eq_ofNat_of_zero_le up
    have exactly : (c : ℚ) * 10 ^ (k : Int) = ((c * 10 ^ k : Nat) : Int) := by
      push_cast
      rw [zpow_natCast]
    rw [exactly, halfEven_int, Int.toNat_natCast]
  · rename_i down
    obtain ⟨k, same⟩ := Int.eq_ofNat_of_zero_le (show 0 ≤ -shift by omega)
    have exactly : (c : ℚ) * 10 ^ shift = c / 10 ^ k := by
      rw [show shift = -k by omega, zpow_neg, zpow_natCast, div_eq_mul_inv]
    rw [exactly, same, Int.toNat_natCast]
    exact (rounds_shiftRight c k).eq_halfEven

/-- A number has as many digits as it needs. -/
theorem tenTo_width_le {n : Nat} (some : n ≠ 0) : 10 ^ (width n - 1) ≤ n := by
  by_cases one : width n = 1
  · rw [one]
    simpa using Nat.one_le_iff_ne_zero.mpr some
  · have positive : 0 < width n := List.length_pos_iff.mpr (isDigits_ofNat n).nonempty
    have := mt (width_le_iff (n := n) (k := width n - 1) (by omega)).mpr (by omega)
    omega

/-- A number with many digits before the point keeps them when it is rounded. -/
theorem le_shifted {c precision : Nat} (some : c ≠ 0) {shift : Int}
    (many : (precision : Int) < width c + shift) : 10 ^ precision ≤ shifted c shift := by
  have leading := tenTo_width_le some
  rw [shifted]
  split
  · rename_i up
    calc 10 ^ precision ≤ 10 ^ (width c - 1 + shift.toNat) :=
          Nat.pow_le_pow_right (by omega) (by omega)
      _ = 10 ^ (width c - 1) * 10 ^ shift.toNat := Nat.pow_add ..
      _ ≤ c * 10 ^ shift.toNat := Nat.mul_le_mul_right _ leading
  · rename_i down
    have quotient : 10 ^ precision ≤ c / 10 ^ (-shift).toNat := by
      rw [Nat.le_div_iff_mul_le (Nat.pow_pos (by omega)), ← Nat.pow_add]
      exact (Nat.pow_le_pow_right (by omega) (by omega)).trans leading
    refine quotient.trans ?_
    rw [shiftRight_eq]
    split
    · exact Nat.le_succ _
    · exact Nat.le_refl _

/-- A finite decimal is brought to some number of digits after the point if it does not have too many
digits then. -/
theorem quantize?_eq {precision : Nat} (some : 0 < precision) (scale : Nat) (negative : Bool)
    (c : Nat) (e : Int) :
    quantize? precision scale (.finite negative c e) =
      if shifted c (e + scale) < 10 ^ precision then
        .some (.finite negative (shifted c (e + scale)) (-scale))
      else none := by
  rw [quantize?]
  by_cases zero : c = 0
  · have nothing : shifted c (e + scale) = 0 := by
      rw [zero, shifted]
      split
      · exact Nat.zero_mul _
      · simp [shiftRight]
    rw [if_pos zero, nothing, if_pos (Nat.pow_pos (by omega))]
  · simp only [if_neg zero]
    by_cases many : (precision : Int) < width c + (e + scale)
    · rw [if_pos many, if_neg (Nat.not_lt.mpr (le_shifted zero many))]
    · have coefficient : (if 0 ≤ e + (scale : Int) then c * tenTo (e + scale).toNat
          else if (width c : Int) < -(e + scale) then 0
          else shiftRight c (-(e + scale)).toNat) = shifted c (e + scale) := by
        rw [shifted]
        split
        · rfl
        · split
          · exact (shiftRight_eq_zero (by omega)).symm
          · rfl
      rw [if_neg many, coefficient]
      by_cases fits : shifted c (e + scale) < 10 ^ precision
      · rw [if_pos fits, if_neg (Nat.not_lt.mpr ((width_le_iff some).mpr fits))]
      · rw [if_neg fits, if_pos (Nat.not_le.mp (mt (width_le_iff some).mp fits))]

/-- The number that `c * 10 ^ e` with a sign stands for. -/
def amount (negative : Bool) (c : Nat) (e : Int) : ℚ := signed negative c * 10 ^ e

theorem signed_shifted (negative : Bool) (c : Nat) (e : Int) (scale : Nat) :
    signed negative (shifted c (e + scale)) = halfEven (amount negative c e * 10 ^ scale) := by
  have exponents : (10 : ℚ) ^ e * 10 ^ scale = 10 ^ (e + scale) := by
    rw [zpow_add₀ (by norm_num), zpow_natCast]
  have rounds := rounds_halfEven (c * 10 ^ (e + (scale : Int)))
  rw [← shifted_eq] at rounds
  rw [amount, mul_assoc, exponents]
  cases negative with
  | false => exact rounds.eq_halfEven
  | true =>
    have minus : ((signed true c : Int) : ℚ) * 10 ^ (e + (scale : Int)) =
        -(c * 10 ^ (e + (scale : Int))) := by simp [signed]
    rw [minus]
    exact rounds.neg.eq_halfEven

/-- What a finite decimal with some number of digits after the point is: the number rounded to this
number of digits, halves going to even. There is none if and only if the digits are too many. -/
theorem quantize?_finite (precision : Nat) (some : 0 < precision) (scale : Nat) (negative : Bool)
    (c : Nat) (e : Int) :
    let n := halfEven (amount negative c e * 10 ^ scale)
    (10 ^ precision ≤ n.natAbs ∧ quantize? precision scale (.finite negative c e) = none) ∨
      (n.natAbs < 10 ^ precision ∧
        quantize? precision scale (.finite negative c e) =
          .some (.finite negative n.natAbs (-scale)) ∧
        amount negative n.natAbs (-scale) = n / 10 ^ scale) := by
  intro n
  have whole : signed negative (shifted c (e + scale)) = n := signed_shifted negative c e scale
  have coefficient : n.natAbs = shifted c (e + scale) := by
    rw [← whole]
    cases negative <;> simp [signed]
  rw [quantize?_eq some, coefficient]
  by_cases fits : shifted c (e + scale) < 10 ^ precision
  · refine .inr ⟨fits, if_pos fits, ?_⟩
    rw [amount, whole, zpow_neg, zpow_natCast, div_eq_mul_inv]
  · exact .inl ⟨Nat.not_lt.mp fits, if_neg fits⟩

end Decimal

end SchemaOnRead
