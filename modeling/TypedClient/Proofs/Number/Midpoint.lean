import TypedClient.Proofs.Number.Nearest

/-
  This file says on which side of two neighbours of the format a
  magnitude rounds: up to half way to the lower one, from half way
  on to the upper one, and at half way to the even one.  At the
  bounds of the integers of 64 bits the lower neighbour is odd
  below `2 ^ 63`, and even below `2 ^ 63 + 2048`.

  Key theorems include:
    * `Double.IsNearest.le_iff`
    * `Double.IsNearest.lt_word_iff`
    * `Double.IsNearest.le_word_iff`
    * `Double.IsNearest.exists_whole`
-/

namespace TypedClient

namespace Double

------------------------------------------------------------
-- Neighbours
------------------------------------------------------------

/- No number of the format lies between two neighbours. -/
theorem IsFormat.le_or_le
    {m j : Nat}
    {e : Int}
    (h : IsFormat m e)
    (f : Int)
    (hFull : 2 ^ 52 ≤ j) :
    (m : ℚ) * 2 ^ e ≤ j * 2 ^ f ∨
      ((j : ℚ) + 1) * 2 ^ f ≤ m * 2 ^ e := by
  have hUnit : (0 : ℚ) < 2 ^ f := by positivity
  rcases lt_or_ge e f with hLess | hMore
  · left
    have hCast : (2 ^ 52 : ℚ) ≤ j := by exact_mod_cast hFull
    exact le_trans (h.lt hLess).le
      (mul_le_mul_of_nonneg_right hCast hUnit.le)
  · obtain ⟨k, hk⟩ := exists_mul_of_le m hMore
    rw [hk]
    rcases Nat.lt_or_ge j k with hAbove | hBelow
    · right
      have hCast : (j : ℚ) + 1 ≤ k := by exact_mod_cast hAbove
      exact mul_le_mul_of_nonneg_right hCast hUnit.le
    · left
      have hCast : (k : ℚ) ≤ j := by exact_mod_cast hBelow
      exact mul_le_mul_of_nonneg_right hCast hUnit.le

/- An odd number of 53 bits or more has no other mantissa. -/
theorem IsFormat.odd
    {m j : Nat}
    {e f : Int}
    (h : IsFormat m e)
    (hFull : 2 ^ 52 ≤ j)
    (hOdd : j % 2 = 1)
    (hEq : (m : ℚ) * 2 ^ e = j * 2 ^ f) : m % 2 = 1 := by
  have hUnit : (0 : ℚ) < 2 ^ f := by positivity
  rcases lt_trichotomy e f with hLess | hSame | hMore
  · have hBelow := h.lt hLess
    have hCast : (2 ^ 52 : ℚ) ≤ j := by exact_mod_cast hFull
    have hAbove : (2 ^ 52 : ℚ) * 2 ^ f ≤ j * 2 ^ f :=
      mul_le_mul_of_nonneg_right hCast hUnit.le
    linarith
  · rw [hSame] at hEq
    have hMantissa : (m : ℚ) = j := mul_right_cancel₀ hUnit.ne' hEq
    have hNat : m = j := by exact_mod_cast hMantissa
    rw [hNat]
    exact hOdd
  · obtain ⟨k, hk⟩ := exists_mul_of_le m (Int.add_one_le_of_lt hMore)
    have hTwice : (j : ℚ) * 2 ^ f = (2 * k : Nat) * 2 ^ f := by
      rw [← hEq, hk, zpow_add₀ two_ne_zero, zpow_one]
      push_cast
      ring
    have hEven : j = 2 * k := by
      exact_mod_cast mul_right_cancel₀ hUnit.ne' hTwice
    omega

/- A number of 53 bits, with a carry perhaps, is in the format. -/
theorem exists_isFormat
    {j : Nat}
    {f : Int}
    (hFull : 2 ^ 52 ≤ j)
    (hShort : j ≤ 2 ^ 53)
    (hLow : minExponent ≤ f)
    (hHigh : f < maxExponent) :
    ∃ n g, IsFormat n g ∧ (n : ℚ) * 2 ^ g = j * 2 ^ f := by
  rcases Nat.lt_or_eq_of_le hShort with hLess | hCarry
  · exact ⟨j, f, ⟨hLess, hLow, hHigh.le, Or.inl hFull⟩, rfl⟩
  · refine ⟨2 ^ 52, f + 1, ⟨by norm_num, by omega, hHigh,
      Or.inl le_rfl⟩, ?_⟩
    rw [hCarry]
    exact carry_eq f

------------------------------------------------------------
-- Half way
------------------------------------------------------------

/-
  What is nearer to the lower of two neighbours, or as near as the
  upper one, is the rounding of something up to half way; at half
  way it is the lower neighbour itself.
-/
theorem le_mid_of_le
    {v q a b : ℚ}
    (hLess : a < b)
    (hNear : |v - q| ≤ |b - q|)
    (hSide : v ≤ a) :
    q ≤ (a + b) / 2 ∧
      (q = (a + b) / 2 → v = a ∧ |b - q| = |v - q|) := by
  have hBelow : q - v ≤ |v - q| := by
    rw [abs_sub_comm]
    exact le_abs_self _
  constructor
  · by_contra hNot
    have hAbove : (a + b) / 2 < q := not_le.1 hNot
    have hFar : |b - q| < q - a := by
      rw [abs_lt]
      constructor
      · linarith
      · linarith
    linarith
  · intro hMid
    have hUpper : |b - q| = b - q := abs_of_pos (by linarith)
    rw [hUpper] at hNear ⊢
    exact ⟨by linarith, by linarith⟩

/- The same for the upper one of two neighbours. -/
theorem mid_le_of_le
    {v q a b : ℚ}
    (hLess : a < b)
    (hNear : |v - q| ≤ |a - q|)
    (hSide : b ≤ v) :
    (a + b) / 2 ≤ q ∧
      (q = (a + b) / 2 → v = b ∧ |a - q| = |v - q|) := by
  have hTurned (x : ℚ) : |-x - -q| = |x - q| := by
    rw [← abs_neg (x - q)]
    congr 1
    ring
  have hMirror := le_mid_of_le (v := -v) (q := -q)
    (neg_lt_neg hLess) (by rw [hTurned, hTurned]; exact hNear)
    (neg_le_neg hSide)
  rw [hTurned, hTurned] at hMirror
  refine ⟨by linarith [hMirror.1], fun hMid => ?_⟩
  have hBoth := hMirror.2 (by linarith)
  exact ⟨neg_inj.1 hBoth.1, hBoth.2⟩

variable {q : ℚ} {m : Nat} {e : Int}

/-
  A magnitude rounds to the lower of two neighbours, or below it,
  exactly if it lies below the point half way between them, or at
  that point if the lower neighbour is even.
-/
theorem IsNearest.le_iff
    (h : IsNearest q m e)
    {j : Nat}
    {f : Int}
    (hFull : 2 ^ 52 ≤ j)
    (hShort : j < 2 ^ 53)
    (hLow : minExponent ≤ f)
    (hHigh : f < maxExponent) :
    (m : ℚ) * 2 ^ e ≤ j * 2 ^ f ↔
      q < (j + 1 / 2) * 2 ^ f ∨
        q = (j + 1 / 2) * 2 ^ f ∧ j % 2 = 0 := by
  have hUnit : (0 : ℚ) < 2 ^ f := by positivity
  have hSides := h.format.le_or_le f hFull
  obtain ⟨a, ea, hA, hLower⟩ :=
    exists_isFormat hFull hShort.le hLow hHigh
  obtain ⟨b, eb, hB, hUpper⟩ :=
    exists_isFormat (Nat.le_succ_of_le hFull) hShort hLow hHigh
  have hNearA := h.nearest a ea hA
  have hNearB := h.nearest b eb hB
  have hEvenA := h.even a ea hA
  have hEvenB := h.even b eb hB
  rw [hLower] at hNearA hEvenA
  rw [hUpper] at hNearB hEvenB
  push_cast at hNearB hEvenB
  have hLess : (j : ℚ) * 2 ^ f < (j + 1) * 2 ^ f := by linarith
  have hMid : ((j : ℚ) + 1 / 2) * 2 ^ f =
      (j * 2 ^ f + (j + 1) * 2 ^ f) / 2 := by ring
  rw [hMid]
  constructor
  · intro hSide
    have hBelow := le_mid_of_le hLess hNearB hSide
    refine (lt_or_eq_of_le hBelow.1).imp_right fun hTie => ?_
    have hBoth := hBelow.2 hTie
    have hEven := hEvenB hBoth.2 (by linarith [hBoth.1])
    refine ⟨hTie, ?_⟩
    by_contra hOdd
    have hAlso := h.format.odd hFull (by omega) hBoth.1
    omega
  · intro hPlace
    by_contra hNot
    have hSide := hSides.resolve_left hNot
    have hAbove := mid_le_of_le hLess hNearA hSide
    rcases hPlace with hBefore | ⟨hTie, hParity⟩
    · linarith [hAbove.1]
    · have hBoth := hAbove.2 hTie
      have hEven := hEvenA hBoth.2 (by linarith [hBoth.1])
      have hAlso := h.format.odd (j := j + 1) (f := f)
        (by omega) (by omega) (by push_cast; exact hBoth.1)
      omega

------------------------------------------------------------
-- Words
------------------------------------------------------------

/-
  The number below `2 ^ 63` is odd, so that the point half way to
  it rounds up.
-/
theorem IsNearest.lt_word_iff (h : IsNearest q m e) :
    (m : ℚ) * 2 ^ e < 2 ^ 63 ↔ q < 2 ^ 63 - 512 := by
  have hSides := h.format.le_or_le (j := 2 ^ 53 - 1) 10
    (by norm_num)
  have hBelow := h.le_iff (j := 2 ^ 53 - 1) (f := 10)
    (by norm_num) (by norm_num) (by decide) (by decide)
  have hLower : ((2 ^ 53 - 1 : Nat) : ℚ) * 2 ^ (10 : Int) =
      2 ^ 63 - 1024 := by norm_num
  have hUpper : (((2 ^ 53 - 1 : Nat) : ℚ) + 1) * 2 ^ (10 : Int) =
      2 ^ 63 := by norm_num
  have hMid : (((2 ^ 53 - 1 : Nat) : ℚ) + 1 / 2) * 2 ^ (10 : Int) =
      2 ^ 63 - 512 := by norm_num
  rw [hLower, hUpper] at hSides
  rw [hLower, hMid] at hBelow
  constructor
  · intro hLess
    rcases hBelow.1 (hSides.resolve_right (not_le.2 hLess)) with
      hBefore | ⟨_, hEven⟩
    · exact hBefore
    · exact absurd hEven (by decide)
  · intro hBefore
    have hSmall := hBelow.2 (Or.inl hBefore)
    linarith

/-
  The number `2 ^ 63` is even, so that the point half way to the
  next one rounds down.
-/
theorem IsNearest.le_word_iff (h : IsNearest q m e) :
    (m : ℚ) * 2 ^ e ≤ 2 ^ 63 ↔ q ≤ 2 ^ 63 + 1024 := by
  have hBelow := h.le_iff (j := 2 ^ 52) (f := 11)
    (by norm_num) (by norm_num) (by decide) (by decide)
  have hLower : ((2 ^ 52 : Nat) : ℚ) * 2 ^ (11 : Int) =
      2 ^ 63 := by norm_num
  have hMid : (((2 ^ 52 : Nat) : ℚ) + 1 / 2) * 2 ^ (11 : Int) =
      2 ^ 63 + 1024 := by norm_num
  have hEven : 2 ^ 52 % 2 = 0 := by decide
  rw [hLower, hMid, and_iff_left hEven, ← le_iff_lt_or_eq] at hBelow
  exact hBelow

/-
  From `2 ^ 52` on, magnitudes round to whole numbers: the number
  `2 ^ 52` has the exponent zero.
-/
theorem IsNearest.exists_whole
    (h : IsNearest q m e)
    (hLarge : 2 ^ 52 ≤ q) : ∃ n : Nat, (m : ℚ) * 2 ^ e = n := by
  have hFormat : IsFormat (2 ^ 52) 0 :=
    ⟨by norm_num, by decide, by decide, Or.inl le_rfl⟩
  have hNear := h.nearest _ _ hFormat
  rw [Nat.cast_pow, Nat.cast_ofNat, zpow_zero, mul_one,
    abs_of_nonpos (sub_nonpos.2 hLarge)] at hNear
  have hValue : (2 : ℚ) ^ 52 ≤ m * 2 ^ e := by
    have hBelow := (abs_le.1 hNear).1
    linarith
  have hExponent : 0 ≤ e := by
    by_contra hNegative
    have hSmall := h.format.lt (not_le.1 hNegative)
    rw [zpow_zero, mul_one] at hSmall
    linarith
  obtain ⟨n, hn⟩ := exists_mul_of_le m hExponent
  exact ⟨n, by rw [hn, zpow_zero, mul_one]⟩

end Double

end TypedClient
