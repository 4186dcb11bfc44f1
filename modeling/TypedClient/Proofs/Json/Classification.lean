import TypedClient.Proofs.Json.Grammar
import TypedClient.Proofs.Json.Number
import TypedClient.Proofs.Number.Midpoint
import TypedClient.Shape.Infer

/-
  This file shows that a number counts as an integer or as a
  fraction by its value alone, in both representations.  A number
  that is written with a point or an exponent is rounded first, so
  that at the bounds of 64 bits it counts by what it rounds to.

  Key definitions include:
    * `Json.primitive?`
    * `Json.Numeral.magnitude`
    * `Json.Numeral.exact`
    * `Json.IsClassified`
    * `Json.Numeral.RoundsTo`
    * `Json.CountsByValue`

  Key theorems include:
    * `Json.isClassified_of_isNumber`
    * `Json.isWord_iff_of_rounds`
    * `Json.Numeral.exists_roundsTo`
    * `Json.countsByValue`
-/

namespace TypedClient

theorem Double.value?_finite (negative : Bool) (m : Nat) (e : Int) :
    (Double.finite negative m e).value? =
      some (if negative then -((m : ℚ) * 2 ^ e) else m * 2 ^ e) := by
  cases negative with
  | false => simp [Double.value?, Double.signed]
  | true => simp [Double.value?, Double.signed]

namespace Json

------------------------------------------------------------
-- Numbers
------------------------------------------------------------

/- What a number counts as. -/
def primitive? : Json → Option Shape.Primitive
  | .int n => some (.ofInteger n)
  | .double x => some (.ofDouble x)
  | _ => none

/-
  A number that counts by its value: as an integer if the value is
  one of 64 bits, as a fraction if not, wherever it is met.
-/
structure IsClassified (v : Json) : Prop where
  int_iff : v.primitive? = some .int ↔ v.IsWord
  float_iff : v.primitive? = some .float ↔ ¬ v.IsWord
  inferred : ∀ budget name table,
    Shape.infer (budget + 1) name v table =
      ⟨v.primitive?.map Shape.primitive, table⟩

/- What counts by one primitive of the two counts by its value. -/
theorem primitive?_cases_of_iff
    {v : Json}
    {p : Shape.Primitive}
    (hPrimitive : v.primitive? = some p)
    (hCases : p = .int ∨ p = .float)
    (hIff : p = .int ↔ v.IsWord) :
    v.primitive? = some .int ∧ v.IsWord ∨
      v.primitive? = some .float ∧ ¬ v.IsWord := by
  rw [hPrimitive, ← hIff]
  rcases hCases with rfl | rfl
  · exact Or.inl ⟨rfl, rfl⟩
  · exact Or.inr ⟨rfl, fun hNot => nomatch hNot⟩

/- A number counts as an integer or as a fraction. -/
theorem primitive?_cases
    {v : Json}
    (h : v.IsNumber) :
    v.primitive? = some .int ∧ v.IsWord ∨
      v.primitive? = some .float ∧ ¬ v.IsWord := by
  cases v with
  | int n =>
      exact primitive?_cases_of_iff rfl
        (Shape.Primitive.ofInteger_eq_or n)
        Shape.Primitive.ofInteger_eq_int_iff_isWord
  | double x =>
      exact primitive?_cases_of_iff rfl
        (Shape.Primitive.ofDouble_eq_or x)
        Shape.Primitive.ofDouble_eq_int_iff_isWord
  | null => cases h
  | bool b => cases h
  | string t => cases h
  | array items => cases h
  | object members => cases h

/- Every number counts by its value. -/
theorem isClassified_of_isNumber
    {v : Json}
    (h : v.IsNumber) : v.IsClassified where
  int_iff := by
    rcases primitive?_cases h with ⟨hInt, hWord⟩ | ⟨hFloat, hNot⟩
    · exact iff_of_true hInt hWord
    · rw [hFloat]
      exact iff_of_false (fun hEq => nomatch hEq) hNot
  float_iff := by
    rcases primitive?_cases h with ⟨hInt, hWord⟩ | ⟨hFloat, hNot⟩
    · rw [hInt]
      exact iff_of_false (fun hEq => nomatch hEq)
        fun hNot => hNot hWord
    · exact iff_of_true hFloat hNot
  inferred := by
    intro budget name table
    cases v with
    | int n => rfl
    | double x => rfl
    | null => cases h
    | bool b => cases h
    | string t => cases h
    | array items => cases h
    | object members => cases h

/- Numbers of one value count alike. -/
theorem primitive?_eq_of_value
    {v w : Json}
    (hV : v.IsNumber)
    (hW : w.IsNumber)
    (hValue : v.value? = w.value?) :
    v.primitive? = w.primitive? := by
  have hWord : v.IsWord ↔ w.IsWord := by
    rw [IsWord, IsWord, hValue]
  rcases primitive?_cases hV with ⟨hInt, hYes⟩ | ⟨hFloat, hNo⟩
  · have hAlso := (isClassified_of_isNumber hW).int_iff.2
      (hWord.1 hYes)
    rw [hInt, hAlso]
  · have hAlso := (isClassified_of_isNumber hW).float_iff.2
      fun hYes => hNo (hWord.2 hYes)
    rw [hFloat, hAlso]

------------------------------------------------------------
-- Written numbers
------------------------------------------------------------

namespace Numeral

/- The digits of a number without its point, read as one number. -/
def digits (n : Numeral) : Nat :=
  ofDigits (digitValues n.whole ++ digitValues n.fraction)

/- The power of ten that the digits count. -/
def scale (n : Numeral) : Int :=
  (n.exponent.map Exponent.value).getD 0 - n.fraction.length

/- The exact value of a written number without its sign. -/
def magnitude (n : Numeral) : ℚ :=
  n.digits * 10 ^ n.scale

/- The exact value of a written number. -/
def exact (n : Numeral) : ℚ :=
  if n.negative then -n.magnitude else n.magnitude

/-
  The double that a written number is read as.

    * `rounds`: it is what the exact value rounds to
    * `bounds`: it counts as an integer if it is whole and the
      exact value lies between two points, half way from the
      bounds of 64 bits to the doubles beyond them; the lower
      point itself rounds to the bound, the upper one away from it
    * `whole`: from `2 ^ 52` on, everything that is not too large
      rounds to something whole
-/
structure RoundsTo (n : Numeral) (x : Double) : Prop where
  read : decode (RawText.ofChars n.text) = .ok (.double x)
  rounds : Double.Rounds n.negative n.magnitude x
  bounds : (Json.double x).primitive? = some .int ↔
    (∃ k : Int, x.value? = some (k : ℚ)) ∧
      -(2 ^ 63 + 1024) ≤ n.exact ∧ n.exact < 2 ^ 63 - 512
  whole : 2 ^ 52 ≤ n.magnitude → n.magnitude < Double.limit →
    ∃ k : Int, x.value? = some (k : ℚ)

end Numeral

/- A number that stands alone is read as its value. -/
theorem decode_numeral
    {n : Numeral}
    (h : n.Fits) :
    decode (RawText.ofChars n.text) = .ok n.value := by
  let alone : Written :=
    ⟨⟨[], by simp⟩, .number n, ⟨[], by simp⟩⟩
  have hReadable : alone.IsReadable := ⟨h, Nat.zero_le maxDepth⟩
  have hText : alone.text = n.text := List.append_nil n.text
  have hRead := decode_written hReadable
  rw [hText] at hRead
  exact hRead

/- A number that is written as an integer keeps its exact value. -/
theorem Numeral.exists_exact
    {n : Numeral}
    (h : n.IsInteger) :
    ∃ k : Int, n.value = .int k ∧ (k : ℚ) = n.exact := by
  refine ⟨Double.signed n.negative
    (ofDigits (digitValues n.whole)), ?_, ?_⟩
  · simp only [value, h.2, h.1, if_true]
  · have hDigits : n.digits = ofDigits (digitValues n.whole) := by
      rw [digits, h.1]
      exact congrArg ofDigits (List.append_nil _)
    have hScale : n.scale = 0 := by
      rw [scale, h.1, h.2]
      rfl
    rw [exact, magnitude, hScale, zpow_zero, mul_one, hDigits,
      Double.signed]
    split
    · push_cast
      rfl
    · push_cast
      rfl

/- Any other number is read as the double that it rounds to. -/
theorem Numeral.value_eq_double
    {n : Numeral}
    (h : ¬ n.IsInteger) :
    n.value = .double
      (Double.ofDecimal n.negative n.digits n.scale) := by
  unfold value
  cases hExponent : n.exponent with
  | some e =>
      simp only [double, digits, scale, hExponent,
        Option.map_some, Option.getD_some]
  | none =>
      have hFraction : n.fraction ≠ [] := fun hNil =>
        h ⟨hNil, hExponent⟩
      simp only [hFraction, if_false, double, digits, scale,
        hExponent, Option.map_none, Option.getD_none]

------------------------------------------------------------
-- Rounded numbers
------------------------------------------------------------

/- The integers of 64 bits are the whole values in their range. -/
theorem isWord_iff_of_value
    {v : Json}
    {a : ℚ}
    (h : v.value? = some a) :
    v.IsWord ↔ (∃ k : Int, v.value? = some (k : ℚ)) ∧
      -2 ^ 63 ≤ a ∧ a < 2 ^ 63 := by
  constructor
  · rintro ⟨n, hValue, hLow, hHigh⟩
    have hEq : a = n := Option.some.inj (h.symm.trans hValue)
    have hLess : n < 2 ^ 63 := by omega
    rw [hEq]
    exact ⟨⟨n, hValue⟩, by exact_mod_cast hLow,
      by exact_mod_cast hLess⟩
  · rintro ⟨⟨n, hValue⟩, hLow, hHigh⟩
    have hEq : a = n := Option.some.inj (h.symm.trans hValue)
    rw [hEq] at hLow hHigh
    have hFrom : -2 ^ 63 ≤ n := by exact_mod_cast hLow
    have hLess : n < 2 ^ 63 := by exact_mod_cast hHigh
    exact ⟨n, hValue, hFrom, by omega⟩

/-
  What a magnitude rounds to is an integer of 64 bits if it is
  whole and the magnitude lies within the half-way points.
-/
theorem isWord_iff_of_rounds
    {negative : Bool}
    {q : ℚ}
    {x : Double}
    (hPos : 0 ≤ q)
    (h : Double.Rounds negative q x) :
    (Json.double x).IsWord ↔
      (∃ k : Int, x.value? = some (k : ℚ)) ∧
        -(2 ^ 63 + 1024) ≤ (if negative then -q else q) ∧
          (if negative then -q else q) < 2 ^ 63 - 512 := by
  cases h with
  | infinite hLarge => simp [IsWord, value?, Double.value?]
  | @finite m e hSmall hNearest =>
      have hUpper := hNearest.lt_word_iff
      have hLower := hNearest.le_word_iff
      have hMagnitude : (0 : ℚ) ≤ m * 2 ^ e := by positivity
      have hWord := isWord_iff_of_value
        (v := .double (.finite negative m e))
        (Double.value?_finite negative m e)
      rw [hWord]
      refine and_congr_right fun _ => ?_
      cases negative with
      | false =>
          rw [if_neg Bool.false_ne_true, if_neg Bool.false_ne_true,
            hUpper]
          exact and_congr_left fun _ =>
            iff_of_true (by linarith) (by linarith)
      | true =>
          rw [if_pos rfl, if_pos rfl, neg_le_neg_iff, neg_le_neg_iff,
            hLower]
          exact and_congr_right fun _ =>
            iff_of_true (by linarith) (by linarith)

/- Large magnitudes round to whole numbers, or to infinities. -/
theorem exists_whole_of_rounds
    {negative : Bool}
    {q : ℚ}
    {x : Double}
    (h : Double.Rounds negative q x)
    (hLarge : 2 ^ 52 ≤ q)
    (hSmall : q < Double.limit) :
    ∃ k : Int, x.value? = some (k : ℚ) := by
  cases h with
  | infinite hLimit => exact absurd hSmall (not_lt.2 hLimit)
  | @finite m e _ hNearest =>
      obtain ⟨k, hk⟩ := hNearest.exists_whole hLarge
      rw [Double.value?_finite, hk]
      cases negative with
      | false => exact ⟨k, by simp⟩
      | true => exact ⟨-k, by simp⟩

/- A number that is no integer is read as what it rounds to. -/
theorem Numeral.exists_roundsTo
    {n : Numeral}
    (h : ¬ n.IsInteger) : ∃ x, n.RoundsTo x := by
  have hRead := decode_numeral (n := n) fun hInteger =>
    absurd hInteger h
  rw [Numeral.value_eq_double h] at hRead
  have hRounds : Double.Rounds n.negative n.magnitude
      (Double.ofDecimal n.negative n.digits n.scale) :=
    Double.rounds_ofDecimal n.negative n.digits n.scale
  have hPos : 0 ≤ n.magnitude := by
    rw [magnitude]
    positivity
  have hClassified := isClassified_of_isNumber
    (v := .double (.ofDecimal n.negative n.digits n.scale)) trivial
  exact ⟨_, hRead, hRounds,
    hClassified.int_iff.trans (isWord_iff_of_rounds hPos hRounds),
    exists_whole_of_rounds hRounds⟩

/-
  How numbers count.

    * `classified`: by their value
    * `alike`: in the same way if they have the same value
    * `exact`: by the exact value if they are written as integers
    * `rounded`: by the value of the double that is nearest to the
      exact one if they are written in another way
-/
structure CountsByValue : Prop where
  classified : ∀ v : Json, v.IsNumber → v.IsClassified
  alike : ∀ v w : Json, v.IsNumber → w.IsNumber →
    v.value? = w.value? → v.primitive? = w.primitive?
  exact : ∀ n : Numeral, n.IsInteger → n.Fits →
    ∃ k : Int, decode (RawText.ofChars n.text) = .ok (.int k) ∧
      (k : ℚ) = n.exact
  rounded : ∀ n : Numeral, ¬ n.IsInteger → ∃ x, n.RoundsTo x

/- Numbers count by their value, rounded or not. -/
theorem countsByValue : CountsByValue where
  classified := fun _ => isClassified_of_isNumber
  alike := fun _ _ => primitive?_eq_of_value
  exact := by
    intro n hInteger hFits
    obtain ⟨k, hValue, hExact⟩ := Numeral.exists_exact hInteger
    exact ⟨k, (decode_numeral hFits).trans (congrArg _ hValue),
      hExact⟩
  rounded := fun _ => Numeral.exists_roundsTo

/- The point half way to the upper bound of 64 bits, written. -/
def halfWay : Numeral where
  negative := false
  whole := ['9', '2', '2', '3', '3', '7', '2', '0', '3', '6', '8',
    '5', '4', '7', '7', '5', '2', '9', '6']
  fraction := ['0']
  exponent := none
  hWhole := by simp [IsDigits]
  hFirst := Or.inr ⟨'9', _, rfl, by decide⟩
  hFraction := by simp [IsDigits]

/-
  The exact value of that point is an integer of 64 bits, but what
  it rounds to is not, and it counts as a fraction.
-/
theorem countsByValue_halfWay :
    ¬ halfWay.IsInteger ∧ halfWay.exact = 2 ^ 63 - 512 ∧
      ∃ x, halfWay.RoundsTo x ∧
        (Json.double x).primitive? = some .float := by
  have hPoint : ¬ halfWay.IsInteger := fun h => nomatch h.1
  have hExact : halfWay.exact = 2 ^ 63 - 512 := by
    have hDigits : halfWay.digits = 92233720368547752960 := by decide
    have hScale : halfWay.scale = -1 := by decide
    have hPositive : halfWay.negative = false := rfl
    rw [Numeral.exact, Numeral.magnitude, hDigits, hScale, hPositive]
    norm_num
  obtain ⟨x, hRounds⟩ := countsByValue.rounded halfWay hPoint
  have hCounts := countsByValue.classified (.double x) trivial
  refine ⟨hPoint, hExact, x, hRounds, hCounts.float_iff.2 ?_⟩
  intro hWord
  have hBelow := (hRounds.bounds.1 (hCounts.int_iff.2 hWord)).2.2
  rw [hExact] at hBelow
  exact lt_irrefl _ hBelow

/- Just below that point, a written number counts as an integer. -/
example :
    let v := decode (RawText.ofString "9223372036854775295.9")
    v.toOption.bind primitive? = some .int := by
  decide

end Json

end TypedClient
