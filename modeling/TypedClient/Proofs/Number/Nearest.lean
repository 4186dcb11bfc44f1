import TypedClient.Proofs.Number.Rounding

/-
  This file says which number of the format a fraction rounds to:
  the nearest one, the even one of two that are as near, and an
  infinity from half way above the largest number on.  Quotients
  and decimal numbers of any size are rounded so.

  Key definitions include:
    * `Double.IsFormat`
    * `Double.IsNearest`
    * `Double.limit`
    * `Double.Rounds`

  Key theorems include:
    * `Double.nearest_of_error`
    * `Double.rounds_ofRatio`
    * `Double.rounds_ofDecimal`
-/

namespace TypedClient

namespace Double

------------------------------------------------------------
-- The format
------------------------------------------------------------

/-
  Whether a mantissa and an exponent are those of a number of the
  format.  The mantissa has 53 bits, unless the exponent is the
  least one, so that no number has two of them.
-/
structure IsFormat (m : Nat) (e : Int) : Prop where
  short : m < 2 ^ 53
  low : minExponent ≤ e
  high : e ≤ maxExponent
  full : 2 ^ 52 ≤ m ∨ e = minExponent

/-
  Whether a number of the format is the one that a magnitude
  rounds to: no other is nearer, and if another is as near, the
  mantissa is even.
-/
structure IsNearest (q : ℚ) (m : Nat) (e : Int) : Prop where
  format : IsFormat m e
  nearest : ∀ n f, IsFormat n f →
    |(m : ℚ) * 2 ^ e - q| ≤ |(n : ℚ) * 2 ^ f - q|
  even : ∀ n f, IsFormat n f →
    |(n : ℚ) * 2 ^ f - q| = |(m : ℚ) * 2 ^ e - q| →
      (n : ℚ) * 2 ^ f ≠ m * 2 ^ e → m % 2 = 0

/-
  The magnitude from which on numbers round to an infinity.  It
  lies half way between the largest number of the format, with the
  mantissa `2 ^ 53 - 1`, and the next one if there was one.
-/
def limit : ℚ :=
  (2 ^ 53 - 1 / 2) * 2 ^ maxExponent

/- What a magnitude with a sign rounds to. -/
inductive Rounds (negative : Bool) (q : ℚ) : Double → Prop where
  | finite {m : Nat} {e : Int}
      (hSmall : q < limit)
      (h : IsNearest q m e) :
      Rounds negative q (.finite negative m e)
  | infinite (hLarge : limit ≤ q) :
      Rounds negative q (.infinite negative)

/- The numbers of the format lie on the grids of larger exponents. -/
theorem IsFormat.lt
    {m : Nat}
    {e f : Int}
    (h : IsFormat m e)
    (hLess : e < f) : (m : ℚ) * 2 ^ e < 2 ^ 52 * 2 ^ f := by
  have hShort : (m : ℚ) < 2 ^ 53 := by exact_mod_cast h.short
  calc
    (m : ℚ) * 2 ^ e < 2 ^ 53 * 2 ^ e :=
      mul_lt_mul_of_pos_right hShort (by positivity)
    _ = 2 ^ 52 * 2 ^ (e + 1) := by
      rw [zpow_add₀ two_ne_zero, zpow_one]
      ring
    _ ≤ 2 ^ 52 * 2 ^ f :=
      mul_le_mul_of_nonneg_left
        (zpow_le_zpow_right₀ one_le_two hLess) (by positivity)

/- From an exponent on, numbers are multiples of its power. -/
theorem exists_mul_of_le
    (m : Nat)
    {e f : Int}
    (hLe : f ≤ e) :
    ∃ j : Nat, (m : ℚ) * 2 ^ e = j * 2 ^ f := by
  obtain ⟨k, hk⟩ := Int.le.dest hLe
  refine ⟨m * 2 ^ k, ?_⟩
  rw [← hk, zpow_add₀ two_ne_zero, zpow_natCast]
  push_cast
  ring

------------------------------------------------------------
-- Nearest numbers
------------------------------------------------------------

/-
  A multiple of a unit that is off by half the unit at most is the
  nearest multiple, and another one is as near only if it is off
  by exactly that.
-/
theorem nearest_multiple
    {u q : ℚ}
    {m : Nat}
    (hUnit : 0 < u)
    (hError : |(m : ℚ) * u - q| ≤ u / 2)
    (j : Nat) :
    |(m : ℚ) * u - q| ≤ |(j : ℚ) * u - q| ∧
      (|(j : ℚ) * u - q| = |(m : ℚ) * u - q| → j ≠ m →
        |(m : ℚ) * u - q| = u / 2) := by
  by_cases hEq : j = m
  · rw [hEq]
    exact ⟨le_refl _, fun _ hNe => absurd rfl hNe⟩
  · have hApart : (1 : ℚ) ≤ |(j : ℚ) - m| := by
      have hInt : (1 : Int) ≤ |(j : Int) - m| :=
        Int.one_le_abs (by omega)
      exact_mod_cast hInt
    have hFar : u ≤ |(j : ℚ) * u - m * u| := by
      rw [← sub_mul, abs_mul, abs_of_pos hUnit]
      exact le_mul_of_one_le_left hUnit.le hApart
    have hTriangle : |(j : ℚ) * u - m * u| ≤
        |(j : ℚ) * u - q| + |(m : ℚ) * u - q| := by
      rw [abs_sub_comm (m * u : ℚ) q]
      exact abs_sub_le _ q _
    refine ⟨by linarith, fun hSame _ => ?_⟩
    exact le_antisymm hError (by linarith)

/-
  A mantissa that is off by half a unit at most, and even if it is
  off by exactly that, makes the nearest number: a number with a
  smaller exponent lies below all magnitudes whose mantissas have
  53 bits.
-/
theorem nearest_of_error
    {q : ℚ}
    {m : Nat}
    {e : Int}
    (hError : |(m : ℚ) * 2 ^ e - q| ≤ 2 ^ e / 2)
    (hEven : |(m : ℚ) * 2 ^ e - q| = 2 ^ e / 2 → m % 2 = 0)
    (hFull : 2 ^ 52 * 2 ^ e ≤ q ∨ e = minExponent)
    {n : Nat}
    {f : Int}
    (hFormat : IsFormat n f) :
    |(m : ℚ) * 2 ^ e - q| ≤ |(n : ℚ) * 2 ^ f - q| ∧
      (|(n : ℚ) * 2 ^ f - q| = |(m : ℚ) * 2 ^ e - q| →
        (n : ℚ) * 2 ^ f ≠ m * 2 ^ e → m % 2 = 0) := by
  have hUnit : (0 : ℚ) < 2 ^ e := by positivity
  rcases lt_or_ge f e with hLess | hMore
  · have hBelow := hFormat.lt hLess
    have hMin := hFormat.low
    have hLarge : 2 ^ 52 * 2 ^ e ≤ q :=
      hFull.resolve_right (by omega)
    -- the least number of 53 bits lies between the two
    have hGrid := (nearest_multiple hUnit hError (2 ^ 52)).1
    rw [Nat.cast_pow, Nat.cast_ofNat,
      abs_of_nonpos (sub_nonpos.2 hLarge)] at hGrid
    have hFar : |(n : ℚ) * 2 ^ f - q| = q - n * 2 ^ f := by
      rw [abs_of_neg (by linarith)]
      ring
    rw [hFar]
    exact ⟨by linarith, fun hSame => by linarith⟩
  · obtain ⟨j, hj⟩ := exists_mul_of_le n hMore
    rw [hj]
    have hGrid := nearest_multiple hUnit hError j
    refine ⟨hGrid.1, fun hSame hNe => hEven (hGrid.2 hSame ?_)⟩
    rintro rfl
    exact hNe rfl

------------------------------------------------------------
-- Quotients
------------------------------------------------------------

/- A mantissa of 53 bits and its carry are the same number. -/
theorem carry_eq (e : Int) :
    ((2 ^ 52 : Nat) : ℚ) * 2 ^ (e + 1) = (2 ^ 53 : Nat) * 2 ^ e := by
  rw [zpow_add₀ two_ne_zero, zpow_one]
  push_cast
  ring

/-
  A mantissa of less than 2 ^ 53 is not the one of a magnitude that
  lies half a unit or less below 2 ^ 53 units.
-/
theorem lt_of_error
    {q : ℚ}
    {m : Nat}
    {e : Int}
    (hError : |(m : ℚ) * 2 ^ e - q| ≤ 2 ^ e / 2)
    (hEven : |(m : ℚ) * 2 ^ e - q| = 2 ^ e / 2 → m % 2 = 0)
    (hShort : m < 2 ^ 53) : q < (2 ^ 53 - 1 / 2) * 2 ^ e := by
  have hUnit : (0 : ℚ) < 2 ^ e := by positivity
  by_contra hNot
  have hLarge : (2 ^ 53 - 1 / 2) * (2 : ℚ) ^ e ≤ q := not_lt.1 hNot
  have hMost : (m : ℚ) ≤ 2 ^ 53 - 1 := by
    have hNat : m + 1 ≤ 2 ^ 53 := hShort
    have hCast : ((m + 1 : Nat) : ℚ) ≤ (2 ^ 53 : Nat) := by
      exact_mod_cast hNat
    push_cast at hCast
    linarith
  have hUnits : (m : ℚ) * 2 ^ e ≤ (2 ^ 53 - 1) * 2 ^ e :=
    mul_le_mul_of_nonneg_right hMost hUnit.le
  have hBelow := (abs_le.1 hError).1
  have hEq : (m : ℚ) * 2 ^ e = (2 ^ 53 - 1) * 2 ^ e := by linarith
  have hMantissa : (m : ℚ) = 2 ^ 53 - 1 :=
    mul_right_cancel₀ hUnit.ne' hEq
  have hNat : m = 2 ^ 53 - 1 := by
    have hCast : ((m + 1 : Nat) : ℚ) = (2 ^ 53 : Nat) := by
      push_cast
      linarith
    have hSucc : m + 1 = 2 ^ 53 := by exact_mod_cast hCast
    omega
  have hTie : |(m : ℚ) * 2 ^ e - q| = 2 ^ e / 2 := by
    refine le_antisymm hError ?_
    rw [abs_sub_comm]
    exact le_trans (by linarith) (le_abs_self _)
  have hParity := hEven hTie
  rw [hNat] at hParity
  omega

/- The exponents on either side of the largest one and the limit. -/
theorem mul_le_limit
    {e : Int}
    (h : e ≤ maxExponent) :
    (2 ^ 53 - 1 / 2) * (2 : ℚ) ^ e ≤ limit :=
  mul_le_mul_of_nonneg_left (zpow_le_zpow_right₀ one_le_two h)
    (by norm_num)

/- From the largest exponent on, the limit is reached. -/
theorem limit_le_mul
    {e : Int}
    (h : maxExponent ≤ e) :
    limit ≤ (2 ^ 53 - 1 / 2) * (2 : ℚ) ^ e :=
  mul_le_mul_of_nonneg_left (zpow_le_zpow_right₀ one_le_two h)
    (by norm_num)

/- The mantissa of a quotient has 53 bits, or carries. -/
theorem mantissa_bounds
    {q : ℚ}
    {m : Nat}
    {e : Int}
    (hError : |(m : ℚ) * 2 ^ e - q| ≤ 2 ^ e / 2)
    (hBelow : q < 2 ^ 53 * 2 ^ e)
    (hFull : 2 ^ 52 * 2 ^ e ≤ q ∨ e = minExponent) :
    m ≤ 2 ^ 53 ∧ (2 ^ 52 ≤ m ∨ e = minExponent) := by
  have hUnit : (0 : ℚ) < 2 ^ e := by positivity
  have hOff := abs_le.1 hError
  constructor
  · have hUnits : (m : ℚ) * 2 ^ e < (2 ^ 53 + 1) * 2 ^ e := by
      linarith
    have hMantissa : (m : ℚ) < 2 ^ 53 + 1 :=
      lt_of_mul_lt_mul_right hUnits hUnit.le
    have hNat : m < 2 ^ 53 + 1 := by exact_mod_cast hMantissa
    omega
  · refine hFull.imp_left fun hLarge => ?_
    have hUnits : (2 ^ 52 : ℚ) * 2 ^ e < (m + 1) * 2 ^ e := by
      linarith
    have hMantissa : (2 ^ 52 : ℚ) < m + 1 :=
      lt_of_mul_lt_mul_right hUnits hUnit.le
    have hNat : 2 ^ 52 < m + 1 := by exact_mod_cast hMantissa
    omega

/-
  A mantissa that carries is halved, at the next exponent.  There
  it is even, and beyond the largest exponent the magnitude lies
  half a unit below it at most, which is the limit or above.
-/
theorem rounds_assemble_carry
    (negative : Bool)
    {q : ℚ}
    {e : Int}
    (hError : |((2 ^ 53 : Nat) : ℚ) * 2 ^ e - q| ≤ 2 ^ e / 2)
    (hLow : minExponent ≤ e)
    (hBelow : q < 2 ^ 53 * 2 ^ e)
    (hNearest : ∀ n f, IsFormat n f →
      |((2 ^ 53 : Nat) : ℚ) * 2 ^ e - q| ≤ |(n : ℚ) * 2 ^ f - q|) :
    Rounds negative q (assemble negative (2 ^ 53) e) := by
  have hUnit : (0 : ℚ) < 2 ^ e := by positivity
  simp only [assemble, Nat.pow_eq, if_true]
  split
  next hOver =>
    have hOff := (abs_le.1 hError).2
    push_cast at hOff
    have hReached := limit_le_mul (Int.lt_add_one_iff.1 hOver)
    exact Rounds.infinite (by linarith)
  next hIn =>
    have hIn : e + 1 ≤ maxExponent := not_lt.1 hIn
    have hSmall := mul_le_limit hIn
    have hNext : (2 : ℚ) ^ (e + 1) = 2 * 2 ^ e := by
      rw [zpow_add₀ two_ne_zero, zpow_one, mul_comm]
    have hFormat : IsFormat (2 ^ 52) (e + 1) :=
      ⟨by norm_num, by omega, hIn, Or.inl le_rfl⟩
    rw [hNext] at hSmall
    rw [← carry_eq e] at hNearest
    exact Rounds.finite (by linarith)
      ⟨hFormat, hNearest, fun _ _ _ _ _ => by norm_num⟩

/-
  A mantissa that does not carry stays.  Beyond the largest
  exponent it has 53 bits, so that the magnitude is twice as large
  as the limit.
-/
theorem rounds_assemble_short
    (negative : Bool)
    {q : ℚ}
    {m : Nat}
    {e : Int}
    (hSmall : q < (2 ^ 53 - 1 / 2) * 2 ^ e)
    (hLarge : 2 ^ 52 * 2 ^ e ≤ q ∨ e = minExponent)
    (hShort : m < 2 ^ 53)
    (hNearest : IsFormat m e → IsNearest q m e)
    (hLow : minExponent ≤ e)
    (hFull : 2 ^ 52 ≤ m ∨ e = minExponent) :
    Rounds negative q (assemble negative m e) := by
  simp only [assemble, Nat.pow_eq, hShort.ne, if_false]
  split
  next hOver =>
    have hLarge : 2 ^ 52 * 2 ^ e ≤ q :=
      hLarge.resolve_right fun hEq => by
        rw [hEq, minExponent, maxExponent] at hOver
        omega
    have hNext : (2 : ℚ) ^ e = 2 * 2 ^ (e - 1) := by
      rw [← zpow_one_add₀ two_ne_zero]
      congr 1
      omega
    have hReached := limit_le_mul (Int.le_sub_one_of_lt hOver)
    have hPos : (0 : ℚ) < 2 ^ (e - 1) := by positivity
    rw [hNext] at hLarge
    exact Rounds.infinite (by linarith)
  next hIn =>
    have hIn : e ≤ maxExponent := not_lt.1 hIn
    exact Rounds.finite (lt_of_lt_of_le hSmall (mul_le_limit hIn))
      (hNearest ⟨hShort, hLow, hIn, hFull⟩)

/-
  Assembling a mantissa that is off by half a unit at most gives
  what the magnitude rounds to.
-/
theorem rounds_assemble
    (negative : Bool)
    {q : ℚ}
    {m : Nat}
    {e : Int}
    (hError : |(m : ℚ) * 2 ^ e - q| ≤ 2 ^ e / 2)
    (hEven : |(m : ℚ) * 2 ^ e - q| = 2 ^ e / 2 → m % 2 = 0)
    (hLow : minExponent ≤ e)
    (hBelow : q < 2 ^ 53 * 2 ^ e)
    (hFull : 2 ^ 52 * 2 ^ e ≤ q ∨ e = minExponent) :
    Rounds negative q (assemble negative m e) := by
  have hBounds := mantissa_bounds hError hBelow hFull
  have hNearest (n : Nat) (f : Int) (hFormat : IsFormat n f) :=
    nearest_of_error hError hEven hFull hFormat
  rcases Nat.lt_or_eq_of_le hBounds.1 with hShort | hCarry
  · exact rounds_assemble_short negative
      (lt_of_error hError hEven hShort) hFull hShort
      (fun hFormat => ⟨hFormat,
        fun n f hOther => (hNearest n f hOther).1,
        fun n f hOther => (hNearest n f hOther).2⟩)
      hLow hBounds.2
  · subst hCarry
    exact rounds_assemble_carry negative hError hLow hBelow
      fun n f hOther => (hNearest n f hOther).1

/- Zero rounds to zero, and so does what is next to nothing. -/
theorem rounds_zero
    (negative : Bool)
    {q : ℚ}
    (hLow : 0 ≤ q)
    (hHigh : q < 2 ^ minExponent / 2) :
    Rounds negative q (zero negative) := by
  have hEq : |((0 : Nat) : ℚ) * 2 ^ minExponent - q| = q := by
    rw [Nat.cast_zero, zero_mul, zero_sub, abs_neg,
      abs_of_nonneg hLow]
  have hUnit : (0 : ℚ) < 2 ^ minExponent := by positivity
  exact rounds_assemble negative (by rw [hEq]; exact hHigh.le)
    (fun _ => rfl) le_rfl (by linarith) (Or.inr rfl)

/- A quotient is rounded to nearest. -/
theorem rounds_ofRatio
    (negative : Bool)
    (num : Nat)
    {den : Nat}
    (hDen : 0 < den) :
    Rounds negative (num / den) (ofRatio negative num den) := by
  unfold ofRatio
  split
  next hZero =>
    rw [hZero, Nat.cast_zero, zero_div]
    exact rounds_zero negative le_rfl (by positivity)
  next hNum =>
    have hPos : 0 < num := Nat.pos_of_ne_zero hNum
    rcases exponentOf_spec hPos hDen with ⟨hLow, hBelow, hFull⟩
    exact rounds_assemble negative
      (abs_mantissaAt_sub_le num _ hDen)
      (even_mantissaAt num _ hDen) hLow hBelow hFull

------------------------------------------------------------
-- Decimal numbers
------------------------------------------------------------

theorem zpow_le_ten_zpow
    {e : Int}
    (h : 0 ≤ e) : (2 : ℚ) ^ (3 * e) ≤ 10 ^ e := by
  rw [zpow_mul]
  exact zpow_le_zpow_left₀ h (by positivity) (by norm_num)

/- Powers of ten beyond the reach of the format are infinities. -/
theorem limit_le_zpow
    {e : Int}
    (h : 400 < e) : limit ≤ 10 ^ e := by
  have hUnit : (0 : ℚ) < 2 ^ maxExponent := by positivity
  calc
    limit ≤ 2 ^ 53 * 2 ^ maxExponent := by
      rw [limit]
      linarith
    _ = 2 ^ ((53 : Nat) + maxExponent) := by
      rw [← zpow_natCast, ← zpow_add₀ two_ne_zero]
    _ ≤ 2 ^ (3 * e) :=
      zpow_le_zpow_right₀ one_le_two (by rw [maxExponent]; omega)
    _ ≤ 10 ^ e := zpow_le_ten_zpow (by omega)

/- Digits with an exponent out of reach are next to nothing. -/
theorem digits_lt_unit
    {digits : Nat}
    {e : Int}
    (hDigits : 0 < digits)
    (h : e < -(400 + (digits.log2 : Int))) :
    (digits : ℚ) * 10 ^ e < 2 ^ minExponent / 2 := by
  have hTen : (10 : ℚ) ^ e ≤ 2 ^ (3 * e) := by
    have hOpposite := zpow_le_ten_zpow (e := -e) (by omega)
    rw [mul_neg, zpow_neg, zpow_neg] at hOpposite
    exact (inv_le_inv₀ (by positivity) (by positivity)).1 hOpposite
  calc
    (digits : ℚ) * 10 ^ e ≤ digits * 2 ^ (3 * e) :=
      mul_le_mul_of_nonneg_left hTen (Nat.cast_nonneg digits)
    _ < 2 ^ ((digits.log2 : Int) + 1) * 2 ^ (3 * e) :=
      mul_lt_mul_of_pos_right (log2_bounds hDigits).2
        (by positivity)
    _ = 2 ^ ((digits.log2 : Int) + 1 + 3 * e) :=
      (zpow_add₀ two_ne_zero _ _).symm
    _ ≤ 2 ^ (minExponent - 1) :=
      zpow_le_zpow_right₀ one_le_two (by rw [minExponent]; omega)
    _ = 2 ^ minExponent / 2 := by
      rw [zpow_sub₀ two_ne_zero, zpow_one]

/- A decimal number is rounded to nearest. -/
theorem rounds_ofDecimal
    (negative : Bool)
    (digits : Nat)
    (e : Int) :
    Rounds negative (digits * 10 ^ e)
      (ofDecimal negative digits e) := by
  unfold ofDecimal
  split
  next hZero =>
    rw [hZero, Nat.cast_zero, zero_mul]
    exact rounds_zero negative le_rfl (by positivity)
  next hDigits =>
    have hPos : 0 < digits := Nat.pos_of_ne_zero hDigits
    split
    next hLarge =>
      have hOne : (1 : ℚ) ≤ digits := by exact_mod_cast hPos
      refine Rounds.infinite (le_trans (limit_le_zpow hLarge) ?_)
      exact le_mul_of_one_le_left (by positivity) hOne
    next =>
      split
      next hSmall =>
        exact rounds_zero negative (by positivity)
          (digits_lt_unit hPos hSmall)
      next =>
        have hDen := Number.scaled_snd_pos digits e
          (Nat.succ_pos 9) Nat.one_pos
        have hValue := Number.scaled_div digits 1 e
          (Nat.succ_pos 9)
        have hRounds := rounds_ofRatio negative
          (Number.scaled 10 digits 1 e).1 hDen
        rw [hValue, Nat.cast_one, div_one] at hRounds
        exact_mod_cast hRounds

end Double

end TypedClient
