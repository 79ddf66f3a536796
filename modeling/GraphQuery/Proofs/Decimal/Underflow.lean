import Mathlib.Algebra.Order.Field.Power
import Mathlib.Data.Nat.Cast.Order.Field
import Mathlib.Tactic.NormNum
import Mathlib.Tactic.Ring
import GraphQuery.Decimal.Binary64

/-!
# Numbers that round to zero

Which numerals are zero once they are rounded to floating point. The least positive number of the
format is `2 ^ -1074`, so what is at most half of it goes to zero: a tie does, since zero is even. All
other numerals stay different from zero, however many digits they have, and also those that are
rounded to an infinity.

The mantissa of a rounded ratio is a rounded quotient, which is zero if and only if the quotient is at
most one half (`Binary64.roundDiv_eq_zero_iff`). The quotient is this small only at the least exponent:
at a greater one the mantissa has all its bits (`Binary64.two_zpow_lt_of_exponentOf`). For numerals with
an exponent far out of range, no quotient is computed, and their first digits decide
(`Binary64.isZero_ofNumeral_iff`).

## Main statements

* `Binary64.isZero_ofRatio_iff`, `Binary64.isZero_ofNumeral_iff`: what is zero after rounding.
-/

namespace GraphQuery.Decimal.Binary64

variable {num den : Nat}

/-! ### Rounded quotients -/

/-- **A rounded quotient is zero** if the quotient is at most one half. -/
theorem roundDiv_eq_zero_iff (hden : 0 < den) : roundDiv num den = 0 ↔ 2 * num ≤ den := by
  unfold roundDiv
  dsimp only
  -- a quotient of one or more is not rounded to zero, and below one the remainder is the number itself
  by_cases hlt : num < den
  · rw [Nat.div_eq_of_lt hlt, Nat.mod_eq_of_lt hlt]
    split <;> omega
  · have hpos : 0 < num / den := Nat.div_pos (Nat.le_of_not_lt hlt) hden
    split <;> omega

/-- Scaling keeps the denominator positive. -/
theorem scale_pos (hden : 0 < den) (e : Int) : 0 < (scale num den e).2 := by
  unfold scale
  split
  · exact Nat.mul_pos hden (Nat.pow_pos Nat.two_pos)
  · exact hden

/-- Scaling divides a ratio by a power of two. -/
theorem scale_ratio (num den : Nat) (e : Int) :
    ((scale num den e).1 / (scale num den e).2 : ℚ) = num / den / 2 ^ e := by
  unfold scale
  split
  case isTrue he =>
    have hpow : ((Nat.pow 2 e.toNat : Nat) : ℚ) = 2 ^ e := by
      rw [Nat.pow_eq, Nat.cast_pow, Nat.cast_ofNat, ← zpow_natCast, Int.toNat_of_nonneg he]
    rw [Nat.cast_mul, hpow, div_div]
  case isFalse he =>
    have hpow : ((Nat.pow 2 (-e).toNat : Nat) : ℚ) = (2 ^ e)⁻¹ := by
      rw [Nat.pow_eq, Nat.cast_pow, Nat.cast_ofNat, ← zpow_natCast, Int.toNat_of_nonneg (by omega),
        zpow_neg]
    rw [Nat.cast_mul, hpow]
    ring

/-- A scaled ratio is rounded to zero if the ratio is at most half the power of two. -/
theorem roundDiv_scale_eq_zero_iff (hden : 0 < den) (e : Int) :
    roundDiv (scale num den e).1 (scale num den e).2 = 0 ↔ (num / den : ℚ) ≤ 2 ^ (e - 1) := by
  have hpos : (0 : ℚ) < (scale num den e).2 := Nat.cast_pos.mpr (scale_pos hden e)
  have hpow : (0 : ℚ) < 2 ^ e := by positivity
  have hratio := scale_ratio num den e
  rw [roundDiv_eq_zero_iff (scale_pos hden e)]
  calc 2 * (scale num den e).1 ≤ (scale num den e).2
    _ ↔ (2 * (scale num den e).1 : ℚ) ≤ (scale num den e).2 := by norm_cast
    _ ↔ ((scale num den e).1 / (scale num den e).2 : ℚ) ≤ 1 / 2 := by
      rw [div_le_div_iff₀ hpos two_pos, one_mul, mul_comm]
    _ ↔ (num / den : ℚ) ≤ 2 ^ (e - 1) := by
      rw [hratio, div_le_iff₀ hpow, zpow_sub_one₀ two_ne_zero, mul_comm, ← div_eq_mul_one_div]
      rfl

/-! ### The exponent -/

/-- The least exponent is a bound for the others. -/
theorem leastExponent_le_exponentOf (num den : Nat) : leastExponent ≤ exponentOf num den := by
  unfold exponentOf
  dsimp only
  split <;> omega

/-- A ratio is above the power of two that the lengths of its parts give. -/
theorem two_zpow_lt_ratio (hnum : num ≠ 0) (hden : 0 < den) :
    (2 : ℚ) ^ ((num.log2 : Int) - den.log2 - 1) < num / den := by
  have hlow : (2 ^ num.log2 : ℚ) ≤ num := mod_cast Nat.log2_self_le hnum
  have hhigh : (den : ℚ) < 2 ^ (den.log2 + 1) := mod_cast Nat.lt_log2_self
  have hpos : (0 : ℚ) < den := Nat.cast_pos.mpr hden
  calc (2 : ℚ) ^ ((num.log2 : Int) - den.log2 - 1)
    _ = 2 ^ num.log2 / 2 ^ (den.log2 + 1) := by
      rw [sub_sub, zpow_sub₀ two_ne_zero, zpow_natCast]
      norm_cast
    _ < 2 ^ num.log2 / den := div_lt_div_of_pos_left (by positivity) hpos hhigh
    _ ≤ num / den := div_le_div_of_nonneg_right hlow hpos.le

/-- **Above the least exponent** a ratio is more than half of the last place of its mantissa. -/
theorem two_zpow_lt_of_exponentOf (hnum : num ≠ 0) (hden : 0 < den)
    (he : leastExponent < exponentOf num den) : (2 : ℚ) ^ (exponentOf num den - 1) < num / den := by
  unfold exponentOf at he ⊢
  dsimp only at he ⊢
  generalize hlow : max ((num.log2 : Int) - den.log2 - 53) leastExponent = low at he ⊢
  split at he
  case isTrue hbits =>
    -- the mantissa would have more than 53 bits at the lower exponent
    rw [if_pos hbits, add_sub_cancel_right]
    have hquotient : (2 ^ 53 : ℚ) ≤ num / den / 2 ^ low := by
      rw [← scale_ratio]
      exact le_trans (mod_cast hbits) Nat.cast_div_le
    rw [le_div_iff₀ (by positivity)] at hquotient
    refine lt_of_lt_of_le ?_ hquotient
    exact lt_mul_of_one_lt_left (by positivity) (by norm_num)
  case isFalse hbits =>
    rw [if_neg hbits]
    refine lt_trans ?_ (two_zpow_lt_ratio hnum hden)
    exact zpow_lt_zpow_right₀ one_lt_two (by omega)

/-! ### Rounding to zero -/

/-- **A mantissa is zero** if the ratio is at most half of the least positive number, and at the least
exponent only. -/
theorem mantissa_eq_zero (hnum : num ≠ 0) (hden : 0 < den) {m : Nat}
    (hm : roundDiv (scale num den (exponentOf num den)).1 (scale num den (exponentOf num den)).2 = m) :
    (m = 0 ↔ (num / den : ℚ) ≤ 2 ^ (-1075 : Int)) ∧ (m = 0 → exponentOf num den = leastExponent) := by
  rw [← hm, roundDiv_scale_eq_zero_iff hden]
  rcases (leastExponent_le_exponentOf num den).eq_or_lt with he | he
  · rw [← he]
    exact ⟨Iff.rfl, fun _ => rfl⟩
  · -- at a greater exponent the ratio is too great for both
    have hlt := two_zpow_lt_of_exponentOf hnum hden he
    have hle : (2 : ℚ) ^ (-1075 : Int) ≤ 2 ^ (exponentOf num den - 1) :=
      zpow_le_zpow_right₀ one_le_two (by unfold leastExponent at he; omega)
    exact ⟨iff_of_false hlt.not_ge (hle.trans_lt hlt).not_ge, fun h => absurd h hlt.not_ge⟩

/-- **A ratio is zero after rounding** if it is at most half of the least positive number. -/
theorem isZero_ofRatio_iff (negative : Bool) (num : Nat) (hden : 0 < den) :
    (ofRatio negative num den).isZero = true ↔ (num / den : ℚ) ≤ 2 ^ (-1075 : Int) := by
  unfold ofRatio
  by_cases hnum : num = 0
  · rw [if_pos hnum, hnum, Nat.cast_zero, zero_div]
    exact iff_of_true rfl (by positivity)
  · rw [if_neg hnum]
    dsimp only
    generalize hm : roundDiv (scale num den (exponentOf num den)).1
      (scale num den (exponentOf num den)).2 = m
    obtain ⟨hzero, hleast⟩ := mantissa_eq_zero hnum hden hm
    rw [← hzero]
    by_cases hm : m = 0
    · rw [hleast hm, hm]
      exact iff_of_true rfl rfl
    · -- a mantissa that needs one more bit is not zero either
      have hpair : (if m = Nat.pow 2 53 then (Nat.pow 2 52, exponentOf num den + 1)
          else (m, exponentOf num den)).1 ≠ 0 := by
        split
        · exact (Nat.pow_pos Nat.two_pos).ne'
        · exact hm
      generalize (if m = Nat.pow 2 53 then (Nat.pow 2 52, exponentOf num den + 1)
        else (m, exponentOf num den)) = rounded at hpair ⊢
      refine iff_of_false ?_ hm
      split
      · exact Bool.false_ne_true
      · rw [isZero, decide_eq_true_iff]
        exact hpair

/-! ### Numerals -/

/-- The number of digits tells the size of a number. -/
theorem toDigits_bounds {n : Nat} (hn : n ≠ 0) :
    10 ^ ((Nat.toDigits 10 n).length - 1) ≤ n ∧ n < 10 ^ (Nat.toDigits 10 n).length := by
  have hlength := @Nat.length_toDigits_pos 10 n
  refine ⟨?_, (Nat.length_toDigits_le_iff (by decide) hlength).mp le_rfl⟩
  by_cases hone : (Nat.toDigits 10 n).length = 1
  · rw [hone]
    exact Nat.one_le_iff_ne_zero.mpr hn
  · have hpred : 0 < (Nat.toDigits 10 n).length - 1 := by omega
    rw [← Nat.not_lt, ← Nat.length_toDigits_le_iff (by decide) hpred]
    omega

/-- **The place of the first digit** tells the size of a numeral. -/
theorem ten_zpow_bounds {n : Nat} (hn : n ≠ 0) (e : Int) :
    (10 : ℚ) ^ ((Nat.toDigits 10 n).length + e - 1) ≤ n * 10 ^ e ∧
      (n * 10 ^ e : ℚ) < 10 ^ ((Nat.toDigits 10 n).length + e) := by
  have hlength := @Nat.length_toDigits_pos 10 n
  have hpow : (0 : ℚ) < 10 ^ e := by positivity
  obtain ⟨hlow, hhigh⟩ := toDigits_bounds hn
  constructor
  · have hsplit : ((Nat.toDigits 10 n).length + e - 1 : Int) =
        ((Nat.toDigits 10 n).length - 1 : Nat) + e := by omega
    rw [hsplit, zpow_add₀ (by norm_num), zpow_natCast]
    exact mul_le_mul_of_nonneg_right (mod_cast hlow) hpow.le
  · rw [zpow_add₀ (by norm_num), zpow_natCast]
    exact mul_lt_mul_of_pos_right (mod_cast hhigh) hpow

/-- **A numeral is zero after rounding** if its value is at most half of the least positive number. -/
theorem isZero_ofNumeral_iff (negative : Bool) (digits : Nat) (e : Int) :
    (ofNumeral (.finite negative digits e)).isZero = true ↔
      (digits * 10 ^ e : ℚ) ≤ 2 ^ (-1075 : Int) := by
  unfold ofNumeral
  dsimp only
  by_cases hdigits : digits = 0
  · rw [if_pos hdigits, hdigits, isZero_ofRatio_iff _ _ Nat.one_pos]
    simp
  rw [if_neg hdigits]
  obtain ⟨hlow, hhigh⟩ := ten_zpow_bounds hdigits e
  -- the number of digits and the exponent together tell the place of the first digit
  split
  case isTrue hplaces =>
    -- far above one
    refine iff_of_false Bool.false_ne_true (not_le_of_gt (lt_of_lt_of_le ?_ hlow))
    calc (2 : ℚ) ^ (-1075 : Int)
      _ < 1 := zpow_lt_one_of_neg₀ one_lt_two (by decide)
      _ ≤ 10 ^ ((Nat.toDigits 10 digits).length + e - 1) := one_le_zpow₀ (by norm_num) (by omega)
  case isFalse =>
    split
    case isTrue hplaces =>
      -- far below the least positive number
      rw [isZero_ofRatio_iff _ _ Nat.one_pos, Nat.cast_zero, zero_div]
      refine iff_of_true (by positivity) (hhigh.le.trans ?_)
      calc (10 : ℚ) ^ ((Nat.toDigits 10 digits).length + e)
        _ ≤ 10 ^ (-331 : Int) := zpow_le_zpow_right₀ (by norm_num) (by omega)
        _ ≤ 2 ^ (-1075 : Int) := by
          have hpowers : 2 ^ 1075 ≤ 10 ^ 331 := by decide +kernel
          rw [zpow_neg, zpow_neg]
          exact inv_anti₀ (by positivity) (mod_cast hpowers)
    case isFalse =>
      split
      case isTrue he =>
        rw [isZero_ofRatio_iff _ _ Nat.one_pos, Nat.cast_one, div_one, Nat.cast_mul, Nat.pow_eq,
          Nat.cast_pow, Nat.cast_ofNat, ← zpow_natCast, Int.toNat_of_nonneg he]
      case isFalse he =>
        have hpow : 0 < Nat.pow 10 (-e).toNat := Nat.pow_pos (by decide)
        rw [isZero_ofRatio_iff _ _ hpow, Nat.pow_eq, Nat.cast_pow, Nat.cast_ofNat, ← zpow_natCast,
          Int.toNat_of_nonneg (by omega), zpow_neg, div_inv_eq_mul]

end GraphQuery.Decimal.Binary64
