import TypedClient.Proofs.Number.Rounding
import TypedClient.Shape.Basic

/-
  This file says which value a JSON number has, and that the
  primitive of a number depends on nothing else: it is that of
  integers if the value is an integer of 64 bits, and that of
  fractions if it is not, or if there is no finite value.

  Key definitions include:
    * `Double.value?`
    * `Json.value?`
    * `Json.IsNumber`
    * `Json.IsWord`

  Key theorems include:
    * `Double.integer?_eq_some_iff`
    * `Shape.Primitive.ofInteger_eq_int_iff_isWord`
    * `Shape.Primitive.ofDouble_eq_int_iff_isWord`
-/

namespace TypedClient

------------------------------------------------------------
-- Doubles
------------------------------------------------------------

namespace Double

/- The value of a finite number, as an exact fraction. -/
def value? : Double → Option ℚ
  | finite negative mantissa exponent =>
      some (signed negative mantissa * 2 ^ exponent)
  | _ => none

/- A scaled quotient is the number times a power of two. -/
theorem scaled_eq (negative : Bool) (m : Nat) (e : Int) :
    let q := Number.scaled 2 m 1 e
    (signed negative q.1 : ℚ) / q.2 =
      signed negative m * 2 ^ e := by
  have hValue := Number.scaled_div m 1 e Nat.two_pos
  rw [Nat.cast_one, div_one, Nat.cast_two] at hValue
  cases negative with
  | false => simpa [signed] using hValue
  | true => simpa [signed, neg_div] using hValue

/- A signed number that is a multiple is one without a sign. -/
theorem signed_eq_mul_iff
    {negative : Bool}
    {num den : Nat}
    (hDen : 0 < den)
    {n : Int} :
    signed negative num = n * den ↔
      num % den = 0 ∧ signed negative (num / den) = n := by
  have hInt : (den : Int) ≠ 0 := by
    exact_mod_cast hDen.ne'
  constructor
  · intro hEq
    have hDvd : (den : Int) ∣ num := by
      cases negative with
      | false => exact ⟨n, by rw [Int.mul_comm, ← hEq]; rfl⟩
      | true =>
          exact ⟨-n, by
            rw [Int.mul_comm, Int.neg_mul, ← hEq]
            simp [signed]⟩
    have hNat : den ∣ num := Int.natCast_dvd_natCast.1 hDvd
    refine ⟨Nat.mod_eq_zero_of_dvd hNat, ?_⟩
    rcases hNat with ⟨k, rfl⟩
    rw [Nat.mul_div_cancel_left k hDen]
    apply Int.eq_of_mul_eq_mul_right hInt
    rw [← hEq]
    cases negative <;> simp [signed, Int.mul_comm]
  · rintro ⟨hMod, rfl⟩
    rcases Nat.dvd_of_mod_eq_zero hMod with ⟨k, rfl⟩
    rw [Nat.mul_div_cancel_left k hDen]
    cases negative <;> simp [signed, Int.mul_comm]

/- A double is an integer if its value is that integer. -/
theorem integer?_eq_some_iff
    {x : Double}
    {n : Int} :
    x.integer? = some n ↔ x.value? = some (n : ℚ) := by
  cases x with
  | nan => simp [integer?, value?]
  | infinite negative => simp [integer?, value?]
  | finite negative m e =>
      have hDen :=
        Number.scaled_snd_pos m e Nat.two_pos Nat.one_pos
      have hCast : ((Number.scaled 2 m 1 e).2 : ℚ) ≠ 0 := by
        exact_mod_cast hDen.ne'
      have hValue : (signed negative m * 2 ^ e : ℚ) = n ↔
          signed negative (Number.scaled 2 m 1 e).1 =
            n * (Number.scaled 2 m 1 e).2 := by
        rw [← scaled_eq negative m e, div_eq_iff hCast]
        exact_mod_cast Iff.rfl
      simp only [integer?, value?, Option.some.injEq, hValue,
        signed_eq_mul_iff hDen, Option.ite_none_right_eq_some]

end Double

------------------------------------------------------------
-- Numbers in JSON
------------------------------------------------------------

namespace Json

/- Whether a value is a number. -/
def IsNumber : Json → Prop
  | .int _ => True
  | .double _ => True
  | _ => False

/- The value of a number, if it is a finite one. -/
def value? : Json → Option ℚ
  | .int n => some n
  | .double x => x.value?
  | _ => none

/- A number whose value is an integer of 64 bits. -/
def IsWord (v : Json) : Prop :=
  ∃ n : Int, v.value? = some (n : ℚ) ∧
    -2 ^ 63 ≤ n ∧ n ≤ 2 ^ 63 - 1

end Json

------------------------------------------------------------
-- Primitives
------------------------------------------------------------

namespace Shape.Primitive

/- The integers of 64 bits lie within the bound. -/
theorem ofInteger_eq_int_iff
    {n : Int} :
    ofInteger n = int ↔ -2 ^ 63 ≤ n ∧ n ≤ 2 ^ 63 - 1 := by
  have hBound : wordBound = 2 ^ 63 := rfl
  rw [ofInteger, hBound]
  split
  next hWord => exact iff_of_true rfl ⟨hWord.1, by omega⟩
  next hLarge =>
    refine iff_of_false (by simp) fun h => hLarge ⟨h.1, ?_⟩
    omega

/- An integer counts as one of 64 bits or as a fraction. -/
theorem ofInteger_eq_or (n : Int) :
    ofInteger n = int ∨ ofInteger n = float := by
  rw [ofInteger]
  split
  · exact Or.inl rfl
  · exact Or.inr rfl

/- The primitive of an integer goes by its value. -/
theorem ofInteger_eq_int_iff_isWord
    {n : Int} :
    ofInteger n = int ↔ (Json.int n).IsWord := by
  rw [ofInteger_eq_int_iff]
  constructor
  · exact fun h => ⟨n, rfl, h⟩
  · rintro ⟨k, hValue, hWord⟩
    have hEq : n = k := by
      exact_mod_cast Option.some.inj hValue
    exact hEq ▸ hWord

/- The primitive of a double goes by its value. -/
theorem ofDouble_eq_int_iff_isWord
    {x : Double} :
    ofDouble x = int ↔ (Json.double x).IsWord := by
  rw [ofDouble]
  constructor
  · intro h
    cases hInteger : x.integer? with
    | none =>
        rw [hInteger] at h
        cases h
    | some n =>
        rw [hInteger] at h
        exact ⟨n, Double.integer?_eq_some_iff.1 hInteger,
          ofInteger_eq_int_iff.1 h⟩
  · rintro ⟨n, hValue, hWord⟩
    rw [Double.integer?_eq_some_iff.2 hValue]
    exact ofInteger_eq_int_iff.2 hWord

/- A double counts as an integer of 64 bits or as a fraction. -/
theorem ofDouble_eq_or (x : Double) :
    ofDouble x = int ∨ ofDouble x = float := by
  rw [ofDouble]
  split
  · exact ofInteger_eq_or _
  · exact Or.inr rfl

end Shape.Primitive

end TypedClient
