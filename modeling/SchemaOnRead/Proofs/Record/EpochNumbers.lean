import Mathlib.Tactic.LinearCombination
import SchemaOnRead.Proofs.Numeric.NumberText
import SchemaOnRead.Proofs.Numeric.Rounded
import SchemaOnRead.Proofs.Record.Coercions

/-!
# Numbers that count from 1970

The milliseconds of a number of days or seconds are a product of decimals, of which 28 digits are kept, and
then the next integer towards zero. So days are rounded if they have many digits (`epochMillis_days`), and
seconds with whole microseconds are not, but lose what is less than a millisecond (`epochMillis_seconds`).
-/

namespace SchemaOnRead

namespace Coercion

open Decimal (signed)

variable {negative : Bool} {c : Nat} {e u : Int}

theorem epochMillis_of_scaled {d : Decimal} {unit : EpochUnit} {n : Int} (isFinite : d.isFinite = true)
    (scaled : unit ≠ .milliseconds)
    (product : (d.scale? .standard unit.millis).bind Decimal.truncate? = some n) :
    epochMillis d unit = .ok n := by
  unfold epochMillis
  rw [isFinite]
  cases unit with
  | milliseconds => exact absurd rfl scaled
  | seconds => simp [product]
  | days => simp [product]

/-- The milliseconds of a number of days are their product as a decimal, of which 28 digits are kept. -/
theorem epochMillis_days (negative : Bool) (short : Decimal.width c ≤ 4300) :
    epochMillis (.finite negative c 0) .days = .ok (Decimal.toPrecision 28 (signed negative c * 86400000)) := by
  have bounded : c * 86400000 < 10 ^ (Decimal.width c + 8) := by
    rw [Nat.pow_add]
    exact Nat.mul_lt_mul_of_lt_of_le (Decimal.lt_tenTo_width c) (by omega) (by omega)
  have digits := (Decimal.width_le_iff (by omega)).mpr bounded
  have positive : 0 < Decimal.Context.standard.precision := by decide
  have noTiny : Decimal.Context.standard.tiny ≤ 0 := by decide
  have precision : (Decimal.Context.standard.precision : Int) = 28 := rfl
  have greatest : Decimal.Context.standard.greatest = 999999 := rfl
  refine epochMillis_of_scaled rfl (by decide) ?_
  rw [EpochUnit.millis, Decimal.truncate?_scale?_integer positive noTiny negative (by omega)]
  cases negative <;> simp [signed, Decimal.Context.standard]

/-- The size and the sign of a number of microseconds that is written in seconds. -/
theorem micros_of_count (count : (signed negative c * 10 ^ e : ℚ) = u / 10 ^ 6) :
    ∃ k : Nat, u = signed negative k ∧ (c * 10 ^ e : ℚ) = k / 10 ^ 6 := by
  have positive : (0 : ℚ) < 10 ^ e := zpow_pos (by norm_num) e
  refine ⟨u.natAbs, ?_, ?_⟩
  · have units : (u : ℚ) = signed negative c * (10 ^ e * 10 ^ 6) := by
      rw [← mul_assoc, count, div_mul_cancel₀ _ (by norm_num)]
    have scale : (0 : ℚ) < 10 ^ e * 10 ^ 6 := by positivity
    cases negative with
    | false =>
      have sign : (0 : ℚ) ≤ u := units ▸ mul_nonneg (by simp [signed]) scale.le
      exact (Int.natAbs_of_nonneg (by exact_mod_cast sign)).symm
    | true =>
      have sign : (u : ℚ) ≤ 0 := units ▸ mul_nonpos_of_nonpos_of_nonneg (by simp [signed]) scale.le
      have sign : u ≤ 0 := by exact_mod_cast sign
      simp only [signed, if_true]
      omega
  · have magnitude : |((signed negative c : Int) : ℚ)| = c := by cases negative <;> simp [signed]
    have same := congrArg abs count
    rw [abs_mul, magnitude, abs_of_pos positive, abs_div, abs_of_pos (show (0 : ℚ) < 10 ^ 6 by norm_num)] at same
    rw [same, Nat.cast_natAbs, Int.cast_abs]

/-- The milliseconds of a number of seconds are the next ones towards 1970. -/
theorem epochMillis_seconds (count : (signed negative c * 10 ^ e : ℚ) = u / 10 ^ 6)
    (bounded : u.natAbs < 10 ^ 18) : epochMillis (.finite negative c e) .seconds = .ok (u.tdiv 1000) := by
  obtain ⟨k, rfl, magnitude⟩ := micros_of_count count
  have bounded : k < 10 ^ 18 := by cases negative <;> simpa [signed] using bounded
  have product : ((c * 1000 : Nat) * 10 ^ e : ℚ) = k / (1000 : Nat) := by
    push_cast
    linear_combination 1000 * magnitude
  have first (some : c * 1000 ≠ 0) : Decimal.adjusted (c * 1000) e < 15 := by
    have bounded : (k : ℚ) < 10 ^ 18 := by exact_mod_cast bounded
    have less : (10 : ℚ) ^ Decimal.adjusted (c * 1000) e < 10 ^ (15 : Int) := by
      calc (10 : ℚ) ^ Decimal.adjusted (c * 1000) e ≤ (c * 1000 : Nat) * 10 ^ e :=
            Decimal.tenTo_adjusted_le some e
        _ = k / (1000 : Nat) := product
        _ < 10 ^ (15 : Int) := by
          rw [div_lt_iff₀ (by norm_num)]
          norm_num at bounded ⊢
          linarith
    exact (zpow_lt_zpow_iff_right₀ (by norm_num)).mp less
  have precision : (Decimal.Context.standard.precision : Int) = 28 := rfl
  have greatest : Decimal.Context.standard.greatest = 999999 := rfl
  have tiny : Decimal.Context.standard.tiny = -1000026 := rfl
  -- Nothing is rounded, since the product has no digits after the third one behind the point.
  have thousandths : ((c * 1000 : Nat) * 10 ^ e : ℚ) = (k : Int) * 10 ^ (-3 : Int) := by
    rw [product, zpow_neg, div_eq_mul_inv]
    norm_num
  have exactly := @Decimal.nearest_lastKept_eq_self .standard _ _ _ _ thousandths
    (fun some => by have := first some; omega) (by omega)
  have small (some : c * 1000 ≠ 0) : max (Decimal.adjusted (c * 1000) e) Decimal.Context.standard.tiny +
      Decimal.Context.standard.precision ≤ Decimal.Context.standard.greatest := by
    have first := first some
    omega
  refine epochMillis_of_scaled rfl (by decide) ?_
  rw [EpochUnit.millis, Decimal.truncate?_scale? (by decide) negative small, exactly, product,
    Nat.floor_div_eq_div]
  cases negative with
  | false => rfl
  | true => exact congrArg some (Int.neg_tdiv k 1000).symm

end Coercion

end SchemaOnRead
