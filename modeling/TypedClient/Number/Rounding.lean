/-
  This file rounds a quotient of natural numbers to the nearest
  natural number.  A quotient half way between two goes to the
  even one.

  Key definitions include:
    * `Number.scaled`
    * `Number.roundDiv`
-/

namespace TypedClient

namespace Number

/-
  The quotient `num / den` times `base ^ shift`, as a numerator
  and a denominator.
-/
def scaled
    (base num den : Nat)
    (shift : Int) : Nat × Nat :=
  match shift with
  | .ofNat k => (num * base.pow k, den)
  | .negSucc k => (num, den * base.pow (k + 1))

/- The natural number nearest to `num / den`. -/
def roundDiv (num den : Nat) : Nat :=
  let q := num / den
  let r := num % den
  if 2 * r < den then q
  else if den < 2 * r then q + 1
  else if q % 2 = 0 then q
  else q + 1

end Number

end TypedClient
