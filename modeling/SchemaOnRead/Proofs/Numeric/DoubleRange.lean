import Mathlib.Tactic.NormNum
import Mathlib.Tactic.Ring
import SchemaOnRead.Numeric.Binary64

/-!
# Integers beyond the doubles

An integer has a nearest double as long as it is nearer to the largest double than to the power of
two that comes after it (`ofInt?_eq_none_iff`).
-/

namespace SchemaOnRead.Binary64

/-- An integer is as far from zero as the middle between the largest double and `2 ^ 1024`. -/
def IsHuge (n : Int) : Prop := 2 ^ 1024 - 2 ^ 970 ≤ n.natAbs

theorem leadingExponent_one {num : Nat} (some : num ≠ 0) : leadingExponent num 1 = num.log2 := by
  have one : (1 : Nat).log2 = 0 := rfl
  have least : ¬ num < 1 * 2 ^ num.log2 := by
    rw [Nat.one_mul, Nat.not_lt]
    exact Nat.log2_self_le some
  rw [leadingExponent, one]
  simp only [Int.ofNat_zero, Int.sub_zero, scaleRatio, Int.natCast_nonneg, if_true, Int.toNat_natCast]
  exact if_neg least

/-- A quotient below `2 ^ 53` is rounded up to it from the middle of the last step on, since the step
below is odd. -/
theorem roundRatio_eq_top_iff {num half : Nat} (below : num < 2 ^ 53 * (2 * half)) :
    roundRatio num (2 * half) = 2 ^ 53 ↔ 2 ^ 53 * (2 * half) - half ≤ num := by
  have positive : 0 < 2 * half := by
    rcases Nat.eq_zero_or_pos half with rfl | some
    · simp at below
    · omega
  have parts := Nat.div_add_mod num (2 * half)
  have less := Nat.mod_lt num positive
  have most : num / (2 * half) < 2 ^ 53 := Nat.div_lt_of_lt_mul (by rwa [Nat.mul_comm] at below)
  rw [roundRatio]
  by_cases last : num / (2 * half) = 2 ^ 53 - 1
  · rw [last] at parts ⊢
    have odd : (2 ^ 53 - 1) % 2 = 1 := by norm_num
    split
    · rename_i up
      constructor
      · intro _
        omega
      · intro _
        rfl
    · rename_i down
      constructor
      · intro same
        norm_num at same
      · intro large
        omega
  · constructor
    · intro top
      split at top <;> omega
    · intro large
      have reached : 2 ^ 53 - 1 ≤ num / (2 * half) := by
        rw [Nat.le_div_iff_mul_le positive]
        omega
      omega

/-- The exponent of the double nearest to a positive integer is one more where rounding carries. -/
theorem ofRatio_eq_infinite_iff {num : Nat} (some : num ≠ 0) (negative : Bool) {q : Int} {m d : Nat}
    (scale : q = max ((num.log2 : Int) - 52) (-1074)) (scaled : scaleRatio num 1 q = (m, d)) :
    (∃ sign, ofRatio negative num 1 = .infinite sign) ↔
      971 < if roundRatio m d = 2 ^ 53 then q + 1 else q := by
  rw [ofRatio, if_neg some, leadingExponent_one some, ← scale]
  simp only [scaled]
  change _ ↔ 971 < if roundRatio m d = twoTo 53 then q + 1 else q
  by_cases carries : roundRatio m d = twoTo 53
  · rw [if_pos carries, if_pos carries]
    by_cases beyond : 971 < q + 1
    · simp [beyond]
    · simp [beyond]
  · rw [if_neg carries, if_neg carries]
    by_cases beyond : 971 < q
    · simp [beyond]
    · simp [beyond]

theorem pow_of_add {a b c : Nat} (sum : a + b = c) : 2 ^ c = 2 ^ a * 2 ^ b := by
  rw [← sum, Nat.pow_add]

theorem pow_of_succ {a c : Nat} (next : a + 1 = c) : 2 ^ c = 2 * 2 ^ a := by
  rw [← next, Nat.pow_succ']

/-- A positive integer is rounded to infinity from the middle after the largest double on. -/
theorem ofRatio_infinite_iff {num : Nat} (some : num ≠ 0) (negative : Bool) :
    (∃ sign, ofRatio negative num 1 = .infinite sign) ↔ 2 ^ 1024 - 2 ^ 970 ≤ num := by
  have low := Nat.log2_self_le some
  have high : num < 2 ^ (num.log2 + 1) := Nat.lt_log2_self
  have double : 2 ^ 971 = 2 * 2 ^ 970 := pow_of_succ (by decide)
  have below : 2 ^ 1023 = 2 ^ 53 * 2 ^ 970 := pow_of_add (by decide)
  have top : 2 ^ 1024 = 2 ^ 53 * (2 * 2 ^ 970) := by
    rw [← double]
    exact pow_of_add (by decide)
  obtain ⟨half, halfIs⟩ : ∃ half, 2 ^ 970 = half := ⟨_, rfl⟩
  rw [halfIs] at double below top
  rcases Nat.lt_trichotomy num.log2 1023 with small | same | large
  · have less : num < 2 ^ 1023 :=
      Nat.lt_of_lt_of_le high (Nat.pow_le_pow_right (by decide) (by omega))
    rw [ofRatio_eq_infinite_iff some negative rfl rfl, top, halfIs]
    rw [below] at less
    constructor
    · intro carried
      split at carried <;> omega
    · intro reached
      omega
  · have scale : (971 : Int) = max ((num.log2 : Int) - 52) (-1074) := by
      rw [same]
      decide
    have scaled : scaleRatio num 1 971 = (num, 2 * half) := by
      rw [← double, scaleRatio, if_pos (by decide), Nat.one_mul]
      rfl
    have less : num < 2 ^ 53 * (2 * half) := by
      rw [← top]
      rwa [same] at high
    have rounded := roundRatio_eq_top_iff less
    rw [ofRatio_eq_infinite_iff some negative scale scaled, top, halfIs]
    by_cases carries : roundRatio num (2 * half) = 2 ^ 53
    · rw [if_pos carries]
      exact ⟨fun _ => rounded.mp carries, fun _ => by decide⟩
    · rw [if_neg carries]
      exact ⟨fun beyond => absurd beyond (by decide), fun reached => absurd (rounded.mpr reached) carries⟩
  · have above : 2 ^ 1024 ≤ num :=
      Nat.le_trans (Nat.pow_le_pow_right (by decide) large) low
    rw [ofRatio_eq_infinite_iff some negative rfl rfl]
    constructor
    · intro _
      exact Nat.le_trans (Nat.sub_le _ _) above
    · intro _
      split <;> omega

/-- An integer has no nearest double exactly if it is huge. -/
theorem ofInt?_eq_none_iff (n : Int) : ofInt? n = none ↔ IsHuge n := by
  have infinite : ofInt? n = none ↔ ∃ sign, ofRatio (n < 0) n.natAbs 1 = .infinite sign := by
    rw [ofInt?]
    cases ofRatio (n < 0) n.natAbs 1 <;> simp
  rw [infinite, IsHuge]
  by_cases zero : n.natAbs = 0
  · rw [zero, ofRatio, if_pos rfl]
    constructor
    · rintro ⟨_, impossible⟩
      cases impossible
    · intro reached
      have less : 2 ^ 970 < 2 ^ 1024 := Nat.pow_lt_pow_right (by decide) (by decide)
      exact absurd less (Nat.not_lt_of_le (Nat.sub_eq_zero_iff_le.mp (Nat.le_zero.mp reached)))
  · exact ofRatio_infinite_iff zero _

end SchemaOnRead.Binary64
