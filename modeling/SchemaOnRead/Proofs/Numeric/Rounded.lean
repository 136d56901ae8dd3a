import Mathlib.Algebra.Order.Floor.Semifield
import SchemaOnRead.Proofs.Numeric.Quantized

/-!
# Results of decimal arithmetic

A result of decimal arithmetic keeps its first digits: it is the nearest multiple of a power of ten to the
exact one, halves going to the even multiple (`round?_of_small`). So it is exact if the exact one is such a
multiple already (`nearest_lastKept_eq_self`).
-/

namespace SchemaOnRead

theorem halfEven_neg (x : ℚ) : halfEven (-x) = -halfEven x := (rounds_halfEven x).neg.eq_halfEven.symm

theorem halfEven_le {x : ℚ} {n : Int} (most : x ≤ n) : halfEven x ≤ n := by
  have near := abs_le.mp (rounds_halfEven x).near
  by_contra more
  have next : (n : ℚ) + 1 ≤ halfEven x := by exact_mod_cast Int.not_le.mp more
  linarith

namespace Decimal

open Text

theorem tenTo_ne_zero (t : Int) : (10 : ℚ) ^ t ≠ 0 := zpow_ne_zero t (by norm_num)

/-- The multiple of `10 ^ t` that is nearest to a number; of two that are equally near, the even one. -/
def nearest (t : Int) (x : ℚ) : ℚ := halfEven (x / 10 ^ t) * 10 ^ t

theorem nearest_mul (t n : Int) : nearest t (n * 10 ^ t) = n * 10 ^ t := by
  rw [nearest, mul_div_cancel_right₀ _ (tenTo_ne_zero t), halfEven_int]

/-- Multiples of a power of ten are multiples of every lower one. -/
theorem nearest_eq_self {t k n : Int} {x : ℚ} (multiple : x = n * 10 ^ k) (lower : t ≤ k) :
    nearest t x = x := by
  obtain ⟨j, same⟩ := Int.eq_ofNat_of_zero_le (show 0 ≤ k - t by omega)
  have powers : (10 : ℚ) ^ k = 10 ^ j * 10 ^ t := by
    rw [← zpow_natCast, ← zpow_add₀ (by norm_num), ← same, Int.sub_add_cancel]
  have whole : x = (n * 10 ^ j : Int) * 10 ^ t := by
    rw [multiple, powers]
    push_cast
    ring
  rw [whole, nearest_mul]

/-! ## Rounding to a context -/

/-- The exponent of the last digit that a result keeps of `c * 10 ^ e`. -/
def Context.lastKept (ctx : Context) (c : Nat) (e : Int) : Int :=
  max (e + max ((width c : Int) - ctx.precision) 0) ctx.tiny

variable {ctx : Context} {c : Nat} {e : Int}

theorem le_lastKept (ctx : Context) (c : Nat) (e : Int) : e ≤ ctx.lastKept c e := by
  rw [Context.lastKept]
  omega

theorem width_pos (n : Nat) : 0 < width n := List.length_pos_iff.mpr (isDigits_ofNat n).nonempty

/-- A number is no smaller than the power of ten of its first digit. -/
theorem tenTo_adjusted_le (some : c ≠ 0) (e : Int) : (10 : ℚ) ^ adjusted c e ≤ c * 10 ^ e := by
  have digits := width_pos c
  have leading : (10 : ℚ) ^ (width c - 1 : Nat) ≤ c := by exact_mod_cast tenTo_width_le some
  have exponents : adjusted c e = (width c - 1 : Nat) + e := by
    rw [adjusted]
    omega
  rw [exponents, zpow_add₀ (by norm_num), zpow_natCast]
  exact mul_le_mul_of_nonneg_right leading (zpow_nonneg (by norm_num) e)

/-- Below the least exponent nothing is kept, and above it no more digits than the context has. -/
theorem lastKept_le (positive : 0 < ctx.precision) (c : Nat) (e : Int) :
    ctx.lastKept c e ≤ max (adjusted c e) ctx.tiny := by
  have some := width_pos c
  rw [Context.lastKept, adjusted]
  omega

/-- The digits that are kept, as an integer: the nearest one. -/
theorem nearest_lastKept (ctx : Context) (c : Nat) (e : Int) :
    nearest (ctx.lastKept c e) (c * 10 ^ e) =
      (shifted c (e - ctx.lastKept c e) : ℚ) * 10 ^ ctx.lastKept c e := by
  have quotient : (c : ℚ) * 10 ^ e / 10 ^ ctx.lastKept c e = c * 10 ^ (e - ctx.lastKept c e) := by
    rw [zpow_sub₀ (by norm_num), mul_div_assoc]
  rw [nearest, quotient, ← shifted_eq]
  push_cast
  rfl

/-- A number keeps all its digits if they reach from the first one to the last one that are kept. -/
theorem nearest_lastKept_eq_self {k n : Int} (value : (c : ℚ) * 10 ^ e = n * 10 ^ k)
    (first : c ≠ 0 → adjusted c e < ctx.precision + k) (last : ctx.tiny ≤ k) :
    nearest (ctx.lastKept c e) (c * 10 ^ e) = c * 10 ^ e := by
  by_cases zero : c = 0
  · exact nearest_eq_self (n := 0) (by simp [zero]) (le_refl _)
  · have first := first zero
    rw [adjusted] at first
    by_cases all : ctx.lastKept c e ≤ e
    · exact nearest_eq_self (n := c) rfl all
    · refine nearest_eq_self value ?_
      rw [Context.lastKept] at all ⊢
      omega

/-- Rounding leaves no more digits than the context has, or a power of ten with one digit more. -/
theorem shifted_le (ctx : Context) (c : Nat) (e : Int) :
    shifted c (e - ctx.lastKept c e) ≤ 10 ^ ctx.precision := by
  have digits : (c : ℚ) ≤ 10 ^ (width c : Int) := by
    rw [zpow_natCast]
    exact_mod_cast (lt_tenTo_width c).le
  have fits : (width c : Int) + (e - ctx.lastKept c e) ≤ ctx.precision := by
    rw [Context.lastKept]
    omega
  have bound : (c : ℚ) * 10 ^ (e - ctx.lastKept c e) ≤ (10 ^ ctx.precision : Int) := by
    calc (c : ℚ) * 10 ^ (e - ctx.lastKept c e)
        ≤ 10 ^ (width c : Int) * 10 ^ (e - ctx.lastKept c e) :=
          mul_le_mul_of_nonneg_right digits (zpow_nonneg (by norm_num) _)
      _ = 10 ^ ((width c : Int) + (e - ctx.lastKept c e)) := (zpow_add₀ (by norm_num) _ _).symm
      _ ≤ 10 ^ (ctx.precision : Int) := zpow_le_zpow_right₀ (by norm_num) fits
      _ = (10 ^ ctx.precision : Int) := by
        rw [zpow_natCast]
        push_cast
        rfl
  have most := halfEven_le bound
  rw [← shifted_eq] at most
  exact_mod_cast most

/-- The digits that a context keeps, before it is seen whether they are too many. -/
theorem coefficient_eq (ctx : Context) (c : Nat) (e : Int) :
    (if ctx.lastKept c e ≤ e then c
      else if (width c : Int) < ctx.lastKept c e - e then 0
      else shiftRight c (ctx.lastKept c e - e).toNat) = shifted c (e - ctx.lastKept c e) := by
  have above := le_lastKept ctx c e
  rw [shifted]
  by_cases all : ctx.lastKept c e ≤ e
  · have none : e - ctx.lastKept c e = 0 := by omega
    rw [if_pos all, none, if_pos (le_refl 0), Int.toNat_zero, Nat.pow_zero, Nat.mul_one]
  · rw [if_neg all, if_neg (show ¬ 0 ≤ e - ctx.lastKept c e by omega), Int.neg_sub]
    split
    · exact (shiftRight_eq_zero (by omega)).symm
    · rfl

/-- A power of ten with one digit more than the context is written with one digit less. -/
theorem shiftRight_tenTo (p : Nat) : shiftRight (10 ^ (p + 1)) 1 = 10 ^ p := by
  have tenth : ((10 ^ (p + 1) : Nat) : ℚ) / 10 ^ 1 = ((10 ^ p : Nat) : Int) := by
    push_cast
    ring
  have rounds := rounds_shiftRight (10 ^ (p + 1)) 1
  rw [tenth] at rounds
  have same := rounds.eq_halfEven
  rw [halfEven_int] at same
  exact_mod_cast same

/-- What is left of a number when a context rounds it: the digits that are kept. -/
theorem round?_eq (positive : 0 < ctx.precision) (negative : Bool) (some : c ≠ 0) (e : Int) :
    ∃ (n : Nat) (t : Int), (n : ℚ) * 10 ^ t = nearest (ctx.lastKept c e) (c * 10 ^ e) ∧
      width n ≤ ctx.precision ∧ t ≤ ctx.lastKept c e + 1 ∧
      ctx.round? negative c e =
        if n ≠ 0 ∧ ctx.greatest < adjusted n t then none else .some (.finite negative n t) := by
  have most := shifted_le ctx c e
  have kept : ctx.round? negative c e =
      let kept := if ctx.precision < width (shifted c (e - ctx.lastKept c e)) then
          (shiftRight (shifted c (e - ctx.lastKept c e)) 1, ctx.lastKept c e + 1)
        else (shifted c (e - ctx.lastKept c e), ctx.lastKept c e)
      if kept.1 ≠ 0 ∧ ctx.greatest < adjusted kept.1 kept.2 then none
      else .some (.finite negative kept.1 kept.2) := by
    rw [← coefficient_eq, Context.round?, if_neg some]
    rfl
  rw [kept, nearest_lastKept]
  generalize ctx.lastKept c e = last at *
  generalize shifted c (e - last) = n at *
  by_cases long : ctx.precision < width n
  · -- The only number with one digit more is the power of ten.
    have power : n = 10 ^ ctx.precision :=
      Nat.le_antisymm most (Nat.not_lt.mp fun less => Nat.not_le.mpr long ((width_le_iff positive).mpr less))
    obtain ⟨p, same⟩ := Nat.exists_eq_add_of_le' positive
    rw [same] at power
    refine ⟨shiftRight n 1, last + 1, ?_, ?_, le_refl _, by simp only [if_pos long]⟩
    · rw [power, shiftRight_tenTo, zpow_add_one₀ (by norm_num), pow_succ]
      push_cast
      ring
    · rw [power, shiftRight_tenTo, width_le_iff positive, same]
      exact Nat.pow_lt_pow_right (by omega) (Nat.lt_succ_self p)
  · exact ⟨n, last, rfl, Nat.not_lt.mp long, by omega, by simp only [if_neg long]⟩

/-- A number that is not large is rounded to the nearest one with the digits of the context. -/
theorem round?_of_small (positive : 0 < ctx.precision) (negative : Bool)
    (small : c ≠ 0 → max (adjusted c e) ctx.tiny + ctx.precision ≤ ctx.greatest) :
    ∃ n t, ctx.round? negative c e = some (.finite negative n t) ∧
      (n : ℚ) * 10 ^ t = nearest (ctx.lastKept c e) (c * 10 ^ e) := by
  by_cases zero : c = 0
  · refine ⟨0, _, by rw [Context.round?, if_pos zero], ?_⟩
    have none : nearest (ctx.lastKept c e) 0 = 0 := by
      simpa using nearest_mul (ctx.lastKept c e) 0
    rw [zero] at none ⊢
    simpa using none.symm
  · obtain ⟨n, t, value, digits, exponent, rounded⟩ := round?_eq positive negative zero e
    have bound := lastKept_le positive c e
    have small := small zero
    refine ⟨n, t, rounded.trans (if_neg fun large => ?_), value⟩
    have greatest := large.2
    rw [adjusted] at greatest
    omega

/-! ## Integers -/

/-- The integer next to a number towards zero is the magnitude, rounded down, with the sign. -/
theorem truncate?_finite (negative : Bool) (c : Nat) (e : Int) :
    truncate? (.finite negative c e) = some (signed negative ⌊(c : ℚ) * 10 ^ e⌋₊) := by
  have whole : magnitude c e = ⌊(c : ℚ) * 10 ^ e⌋₊ := by
    rw [magnitude]
    split
    · rename_i up
      obtain ⟨k, rfl⟩ := Int.eq_ofNat_of_zero_le up
      rw [zpow_natCast]
      exact_mod_cast (Nat.floor_natCast (R := ℚ) (c * 10 ^ k)).symm
    · rename_i down
      obtain ⟨k, same⟩ := Int.eq_ofNat_of_zero_le (show 0 ≤ -e by omega)
      have quotient : (c : ℚ) * 10 ^ e = c / (10 ^ k : Nat) := by
        rw [show e = -k by omega, zpow_neg, zpow_natCast, div_eq_mul_inv]
        push_cast
        rfl
      rw [quotient, Nat.floor_div_eq_div, same, Int.toNat_natCast]
      split
      · rename_i short
        refine (Nat.div_eq_of_lt ?_).symm
        exact (lt_tenTo_width c).trans_le (Nat.pow_le_pow_right (by omega) short)
      · rfl
  rw [truncate?, whole]

/-- The integer next to a product towards zero: the product is rounded first. -/
theorem truncate?_scale? (positive : 0 < ctx.precision) (negative : Bool) {k : Nat}
    (small : c * k ≠ 0 → max (adjusted (c * k) e) ctx.tiny + ctx.precision ≤ ctx.greatest) :
    (scale? ctx (.finite negative c e) k).bind truncate? =
      some (signed negative ⌊nearest (ctx.lastKept (c * k) e) ((c * k : Nat) * 10 ^ e)⌋₊) := by
  obtain ⟨n, t, rounded, value⟩ := round?_of_small positive negative small
  rw [scale?, rounded, Option.bind_some, truncate?_finite, value]

/-- An integer of which only the first `p` digits are kept: the nearest one of this form, and of two that
are equally near the one whose last kept digit is even. -/
def toPrecision (p : Nat) (n : Int) : Int :=
  halfEven (n / 10 ^ (width n.natAbs - p)) * 10 ^ (width n.natAbs - p)

theorem toPrecision_eq (p : Nat) (n : Int) :
    (toPrecision p n : ℚ) = nearest (width n.natAbs - p : Nat) n := by
  rw [toPrecision, nearest, zpow_natCast]
  push_cast
  rfl

theorem toPrecision_neg (p : Nat) (n : Int) : toPrecision p (-n) = -toPrecision p n := by
  rw [toPrecision, toPrecision, Int.natAbs_neg, Int.cast_neg, neg_div, halfEven_neg, neg_mul]

theorem toPrecision_natCast_nonneg (p n : Nat) : 0 ≤ toPrecision p n := by
  have positive : (0 : ℚ) ≤ (n : Int) / 10 ^ (width (n : Int).natAbs - p) := by positivity
  have near := abs_le.mp (rounds_halfEven ((n : Int) / 10 ^ (width (n : Int).natAbs - p))).near
  have above : (-1 : ℚ) < halfEven ((n : Int) / 10 ^ (width (n : Int).natAbs - p)) := by linarith
  have above : -1 < halfEven ((n : Int) / 10 ^ (width (n : Int).natAbs - p)) := by exact_mod_cast above
  rw [toPrecision]
  exact mul_nonneg (by omega) (by positivity)

theorem toPrecision_signed (p : Nat) (negative : Bool) (n : Nat) :
    toPrecision p (signed negative n) = signed negative (toPrecision p n).toNat := by
  have same := Int.toNat_of_nonneg (toPrecision_natCast_nonneg p n)
  cases negative with
  | false => exact same.symm
  | true =>
    change toPrecision p (-(n : Int)) = -((toPrecision p n).toNat : Int)
    rw [toPrecision_neg, same]

/-- The integer that a product of integers is as a decimal: its first digits. -/
theorem truncate?_scale?_integer (positive : 0 < ctx.precision) (noTiny : ctx.tiny ≤ 0) (negative : Bool)
    {k : Nat} (small : (width (c * k) : Int) + ctx.precision ≤ ctx.greatest + 1) :
    (scale? ctx (.finite negative c 0) k).bind truncate? =
      some (toPrecision ctx.precision (signed negative (c * k))) := by
  have last : ctx.lastKept (c * k) 0 = (width ((c * k : Nat) : Int).natAbs - ctx.precision : Nat) := by
    rw [Context.lastKept, Int.natAbs_natCast]
    omega
  have some := width_pos (c * k)
  have product : ((c * k : Nat) : ℚ) * 10 ^ (0 : Int) = ((c * k : Nat) : Int) := by
    rw [zpow_zero, mul_one]
    rfl
  have whole (n : Int) : ⌊(n : ℚ)⌋₊ = n.toNat := by rw [← Int.floor_toNat, Int.floor_intCast]
  rw [truncate?_scale? positive negative (fun _ => by rw [adjusted]; omega), last, product, ← toPrecision_eq,
    toPrecision_signed, whole]

end Decimal

end SchemaOnRead
