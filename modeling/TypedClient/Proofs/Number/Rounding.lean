import Mathlib.Algebra.Order.Field.Rat
import Mathlib.Algebra.Order.Field.Power
import Mathlib.Tactic.Linarith
import Mathlib.Tactic.Positivity
import Mathlib.Tactic.Ring
import TypedClient.Number.Double

/-
  This file says what the parts of rounding compute, as fractions:
  a scaled quotient is a quotient times a power, a rounded one is
  off by a half at most, and the exponent of a quotient leaves 53
  bits before the point.

  Key theorems include:
    * `Number.scaled_div`
    * `Number.abs_roundDiv_sub_le`
    * `Number.even_roundDiv`
    * `Double.exponentOf_spec`
    * `Double.abs_mantissaAt_sub_le`
    * `Double.even_mantissaAt`
-/

namespace TypedClient

namespace Number

------------------------------------------------------------
-- Scaled quotients
------------------------------------------------------------

theorem scaled_snd_pos
    {base den : Nat}
    (num : Nat)
    (shift : Int)
    (hBase : 0 < base)
    (hDen : 0 < den) : 0 < (scaled base num den shift).2 := by
  cases shift with
  | ofNat k => exact hDen
  | negSucc k => exact Nat.mul_pos hDen (Nat.pow_pos hBase)

/- A scaled quotient is the quotient times a power. -/
theorem scaled_div
    {base : Nat}
    (num den : Nat)
    (shift : Int)
    (hBase : 0 < base) :
    ((scaled base num den shift).1 : ℚ) /
        (scaled base num den shift).2 =
      num / den * base ^ shift := by
  have hCast : (base : ℚ) ≠ 0 := by exact_mod_cast hBase.ne'
  cases shift with
  | ofNat k =>
      simp only [scaled, Nat.pow_eq, Nat.cast_mul, Nat.cast_pow,
        Int.ofNat_eq_natCast, zpow_natCast]
      ring
  | negSucc k =>
      simp only [scaled, Nat.pow_eq, Nat.cast_mul, Nat.cast_pow,
        zpow_negSucc]
      rw [div_mul_eq_div_div, div_eq_mul_inv (num / den : ℚ)]

------------------------------------------------------------
-- Rounded quotients
------------------------------------------------------------

/-
  A rounded quotient in whole numbers: it is off by half the
  denominator at most, and even if it is off by exactly that.
-/
theorem roundDiv_bounds
    (num : Nat)
    {den : Nat}
    (hDen : 0 < den) :
    2 * num ≤ 2 * (roundDiv num den * den) + den ∧
      2 * (roundDiv num den * den) ≤ 2 * num + den ∧
      (2 * num = 2 * (roundDiv num den * den) + den ∨
          2 * (roundDiv num den * den) = 2 * num + den →
        roundDiv num den % 2 = 0) := by
  have hDivMod : num / den * den + num % den = num := by
    rw [Nat.mul_comm]
    exact Nat.div_add_mod num den
  have hMod : num % den < den := Nat.mod_lt num hDen
  have hNext : (num / den + 1) * den = num / den * den + den :=
    Nat.succ_mul _ _
  unfold roundDiv
  dsimp only
  split
  · omega
  · split
    · rw [hNext]
      omega
    · split
      · omega
      · rw [hNext]
        omega

/- A rounded quotient is off by a half at most. -/
theorem abs_roundDiv_sub_le
    (num : Nat)
    {den : Nat}
    (hDen : 0 < den) :
    |(roundDiv num den : ℚ) - num / den| ≤ 1 / 2 := by
  have hBounds := roundDiv_bounds num hDen
  have hPos : (0 : ℚ) < den := by exact_mod_cast hDen
  have hLow : (2 * num : ℚ) ≤ 2 * (roundDiv num den * den) + den := by
    exact_mod_cast hBounds.1
  have hHigh : (2 * (roundDiv num den * den) : ℚ) ≤ 2 * num + den := by
    exact_mod_cast hBounds.2.1
  rw [abs_le, sub_div' hPos.ne']
  constructor
  · rw [le_div_iff₀ hPos]
    linarith
  · rw [div_le_iff₀ hPos]
    linarith

/- Half way between two numbers, a quotient goes to the even one. -/
theorem even_roundDiv
    (num : Nat)
    {den : Nat}
    (hDen : 0 < den)
    (h : |(roundDiv num den : ℚ) - num / den| = 1 / 2) :
    roundDiv num den % 2 = 0 := by
  have hPos : (0 : ℚ) < den := by exact_mod_cast hDen
  apply (roundDiv_bounds num hDen).2.2
  rw [sub_div' hPos.ne'] at h
  rcases (abs_eq (by norm_num : (0 : ℚ) ≤ 1 / 2)).1 h with h | h
  · right
    rw [div_eq_iff hPos.ne'] at h
    have hCast : (2 * (roundDiv num den * den) : ℚ) =
        2 * num + den := by linarith
    exact_mod_cast hCast
  · left
    rw [div_eq_iff hPos.ne'] at h
    have hCast : (2 * num : ℚ) =
        2 * (roundDiv num den * den) + den := by linarith
    exact_mod_cast hCast

end Number

namespace Double

------------------------------------------------------------
-- Exponents
------------------------------------------------------------

/- A number lies between two powers of two. -/
theorem log2_bounds
    {n : Nat}
    (h : 0 < n) :
    (2 : ℚ) ^ (n.log2 : Int) ≤ n ∧
      (n : ℚ) < 2 ^ ((n.log2 : Int) + 1) := by
  constructor
  · rw [zpow_natCast]
    exact_mod_cast Nat.log2_self_le h.ne'
  · have hPower : (2 : ℚ) ^ ((n.log2 : Int) + 1) =
        2 ^ (n.log2 + 1) := by
      exact_mod_cast zpow_natCast (2 : ℚ) (n.log2 + 1)
    rw [hPower]
    exact_mod_cast Nat.lt_log2_self

/- A quotient lies between two powers of two, a factor 4 apart. -/
theorem ratio_bounds
    {num den : Nat}
    (hNum : 0 < num)
    (hDen : 0 < den) :
    (2 : ℚ) ^ ((num.log2 : Int) - den.log2 - 1) ≤ num / den ∧
      (num : ℚ) / den < 2 ^ ((num.log2 : Int) - den.log2 + 1) := by
  have hPos : (0 : ℚ) < den := by exact_mod_cast hDen
  rcases log2_bounds hNum with ⟨hNumLow, hNumHigh⟩
  rcases log2_bounds hDen with ⟨hDenLow, hDenHigh⟩
  constructor
  · rw [le_div_iff₀ hPos]
    calc
      (2 : ℚ) ^ ((num.log2 : Int) - den.log2 - 1) * den ≤
          2 ^ ((num.log2 : Int) - den.log2 - 1) *
            2 ^ ((den.log2 : Int) + 1) :=
        mul_le_mul_of_nonneg_left hDenHigh.le (by positivity)
      _ = 2 ^ (num.log2 : Int) := by
        rw [← zpow_add₀ two_ne_zero]
        congr 1
        omega
      _ ≤ num := hNumLow
  · rw [div_lt_iff₀ hPos]
    calc
      (num : ℚ) < 2 ^ ((num.log2 : Int) + 1) := hNumHigh
      _ = 2 ^ ((num.log2 : Int) - den.log2 + 1) *
            2 ^ (den.log2 : Int) := by
        rw [← zpow_add₀ two_ne_zero]
        congr 1
        omega
      _ ≤ 2 ^ ((num.log2 : Int) - den.log2 + 1) * den :=
        mul_le_mul_of_nonneg_left hDenLow (by positivity)

/- A scaled quotient lies below a number if the quotient does. -/
theorem scaled_lt_iff
    (num bound : Nat)
    {den : Nat}
    (e : Int)
    (hDen : 0 < den) :
    (Number.scaled 2 num den (-e)).1 <
        bound * (Number.scaled 2 num den (-e)).2 ↔
      (num : ℚ) / den < bound * 2 ^ e := by
  have hTwo : (0 : ℚ) < 2 ^ e := by positivity
  have hPos : (0 : ℚ) < (Number.scaled 2 num den (-e)).2 := by
    exact_mod_cast
      Number.scaled_snd_pos num (-e) Nat.two_pos hDen
  have hValue := Number.scaled_div num den (-e) Nat.two_pos
  rw [← @Nat.cast_lt ℚ, Nat.cast_mul, ← div_lt_iff₀ hPos, hValue,
    Nat.cast_two, zpow_neg, ← div_eq_mul_inv, div_lt_iff₀ hTwo]

/-
  At its exponent a quotient has at most 53 bits before the point,
  and exactly 53 unless the exponent is the least one.
-/
theorem exponentOf_spec
    {num den : Nat}
    (hNum : 0 < num)
    (hDen : 0 < den) :
    minExponent ≤ exponentOf num den ∧
      (num : ℚ) / den < 2 ^ 53 * 2 ^ exponentOf num den ∧
      (2 ^ 52 * 2 ^ exponentOf num den ≤ (num : ℚ) / den ∨
        exponentOf num den = minExponent) := by
  rcases ratio_bounds hNum hDen with ⟨hLow, hHigh⟩
  have hPower (k : Nat) (e : Int) :
      (2 : ℚ) ^ k * 2 ^ e = 2 ^ (k + e) := by
    rw [← zpow_natCast, ← zpow_add₀ two_ne_zero]
  -- without the least exponent, the quotient has 53 bits exactly
  obtain ⟨e, hEq, hBelow, hAbove⟩ : ∃ e,
      exponentOf num den = max minExponent e ∧
        (num : ℚ) / den < 2 ^ 53 * 2 ^ e ∧
          2 ^ 52 * 2 ^ e ≤ (num : ℚ) / den := by
    refine ⟨_, rfl, ?_⟩
    simp only [Nat.pow_eq, scaled_lt_iff num (2 ^ 52) _ hDen,
      Nat.cast_pow, Nat.cast_ofNat]
    split
    next hSmall =>
      rw [hPower] at hSmall ⊢
      rw [hPower]
      refine ⟨lt_of_lt_of_le hSmall ?_, le_trans ?_ hLow⟩
      · exact zpow_le_zpow_right₀ one_le_two (by omega)
      · exact zpow_le_zpow_right₀ one_le_two (by omega)
    next hLarge =>
      rw [hPower] at hLarge ⊢
      rw [hPower]
      refine ⟨lt_of_lt_of_le hHigh ?_, not_lt.1 hLarge⟩
      exact zpow_le_zpow_right₀ one_le_two (by omega)
  have hMax := le_max_right minExponent e
  rw [hEq]
  refine ⟨le_max_left _ _, lt_of_lt_of_le hBelow ?_, ?_⟩
  · rw [hPower, hPower]
    exact zpow_le_zpow_right₀ one_le_two (by omega)
  · rcases le_total e minExponent with hLess | hMore
    · exact Or.inr (max_eq_left hLess)
    · left
      rw [max_eq_right hMore]
      exact hAbove

------------------------------------------------------------
-- Mantissas
------------------------------------------------------------

/- How far a mantissa at an exponent is off, counted in units. -/
theorem mantissaAt_sub
    (num den : Nat)
    (e : Int) :
    (mantissaAt num den e : ℚ) * 2 ^ e - num / den =
      ((mantissaAt num den e : ℚ) -
        (Number.scaled 2 num den (-e)).1 /
          (Number.scaled 2 num den (-e)).2) * 2 ^ e := by
  have hTwo : (2 : ℚ) ^ e ≠ 0 := by positivity
  rw [Number.scaled_div num den (-e) Nat.two_pos, Nat.cast_two,
    sub_mul, mul_assoc, ← zpow_add₀ two_ne_zero, neg_add_cancel,
    zpow_zero, mul_one]

/- The mantissa at an exponent is off by half a unit at most. -/
theorem abs_mantissaAt_sub_le
    (num : Nat)
    {den : Nat}
    (e : Int)
    (hDen : 0 < den) :
    |(mantissaAt num den e : ℚ) * 2 ^ e - num / den| ≤
      2 ^ e / 2 := by
  have hTwo : (0 : ℚ) < 2 ^ e := by positivity
  have hOff := Number.abs_roundDiv_sub_le
    (Number.scaled 2 num den (-e)).1
    (Number.scaled_snd_pos num (-e) Nat.two_pos hDen)
  rw [mantissaAt_sub, abs_mul, abs_of_pos hTwo]
  calc
    _ ≤ 1 / 2 * (2 : ℚ) ^ e :=
      mul_le_mul_of_nonneg_right hOff hTwo.le
    _ = 2 ^ e / 2 := by ring

/- A mantissa that is off by half a unit is even. -/
theorem even_mantissaAt
    (num : Nat)
    {den : Nat}
    (e : Int)
    (hDen : 0 < den)
    (h : |(mantissaAt num den e : ℚ) * 2 ^ e - num / den| =
      2 ^ e / 2) : mantissaAt num den e % 2 = 0 := by
  have hTwo : (0 : ℚ) < 2 ^ e := by positivity
  apply Number.even_roundDiv _
    (Number.scaled_snd_pos num (-e) Nat.two_pos hDen)
  rw [mantissaAt_sub, abs_mul, abs_of_pos hTwo] at h
  apply mul_right_cancel₀ hTwo.ne'
  calc
    _ = (2 : ℚ) ^ e / 2 := h
    _ = 1 / 2 * 2 ^ e := by ring

end Double

end TypedClient
