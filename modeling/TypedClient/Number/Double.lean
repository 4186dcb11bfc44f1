import TypedClient.Number.Rounding

/-
  This file defines the double-precision numbers as a plain type
  whose every operation is exact arithmetic followed by one
  rounding to nearest, ties to even.

  Key definitions include:
    * `Double`
    * `Double.ofRatio`
    * `Double.ofDecimal`
    * `Double.add`
    * `Double.mul`
    * `Double.integer?`
-/

namespace TypedClient

------------------------------------------------------------
-- The type
------------------------------------------------------------

/-
  A finite number is `mantissa * 2 ^ exponent` with a sign.  The
  mantissa has 53 bits, or fewer at the least exponent.
-/
inductive Double where
  | nan
  | infinite (negative : Bool)
  | finite (negative : Bool) (mantissa : Nat) (exponent : Int)
deriving DecidableEq, Repr, Inhabited

namespace Double

/- The exponent of the numbers next to zero. -/
def minExponent : Int :=
  -1074

/- The exponent of the largest finite numbers. -/
def maxExponent : Int :=
  971

/- The zero of a sign. -/
def zero (negative : Bool) : Double :=
  finite negative 0 minExponent

------------------------------------------------------------
-- Rounding
------------------------------------------------------------

/- The mantissa that a quotient rounds to at an exponent. -/
def mantissaAt (num den : Nat) (exponent : Int) : Nat :=
  let s := Number.scaled 2 num den (-exponent)
  Number.roundDiv s.1 s.2

/-
  The exponent at which a positive quotient has 53 bits before
  the point, or the least exponent.
-/
def exponentOf (num den : Nat) : Int :=
  let e := (num.log2 : Int) - den.log2 - 52
  let s := Number.scaled 2 num den (-e)
  max minExponent (if s.1 < Nat.pow 2 52 * s.2 then e - 1 else e)

/- The finite number of a mantissa of up to 53 bits, or 2 ^ 53. -/
def assemble
    (negative : Bool)
    (mantissa : Nat)
    (exponent : Int) : Double :=
  let carried := mantissa = Nat.pow 2 53
  let m := if carried then Nat.pow 2 52 else mantissa
  let e := if carried then exponent + 1 else exponent
  if maxExponent < e then infinite negative
  else finite negative m e

/- The number nearest to a quotient, with a sign. -/
def ofRatio (negative : Bool) (num den : Nat) : Double :=
  if num = 0 then zero negative
  else
    let e := exponentOf num den
    assemble negative (mantissaAt num den e) e

/- The number nearest to `m * 2 ^ e`, with a sign. -/
def ofDyadic (negative : Bool) (m : Nat) (e : Int) : Double :=
  let s := Number.scaled 2 m 1 e
  ofRatio negative s.1 s.2

/-
  The number nearest to `digits * 10 ^ e`, with a sign.  Far
  outside the range of exponents no power is computed.
-/
def ofDecimal
    (negative : Bool)
    (digits : Nat)
    (e : Int) : Double :=
  if digits = 0 then zero negative
  else if 400 < e then infinite negative
  else if e < -(400 + (digits.log2 : Int)) then zero negative
  else
    let s := Number.scaled 10 digits 1 e
    ofRatio negative s.1 s.2

/- The number nearest to an integer. -/
def ofInt (n : Int) : Double :=
  ofRatio (n < 0) n.natAbs 1

------------------------------------------------------------
-- Arithmetic
------------------------------------------------------------

/- A signed multiple of a power of two, to be rounded. -/
def signed (negative : Bool) (m : Nat) : Int :=
  if negative then -m else m

/- The sum, rounded. -/
def add : Double → Double → Double
  | nan, _ => nan
  | _, nan => nan
  | infinite s, infinite t =>
      if s = t then infinite s else nan
  | infinite s, finite _ _ _ => infinite s
  | finite _ _ _, infinite t => infinite t
  | finite s m e, finite t n f =>
      let low := min e f
      let sum :=
        signed s (m * Nat.pow 2 (e - low).toNat) +
          signed t (n * Nat.pow 2 (f - low).toNat)
      if sum = 0 then zero (s && t)
      else ofDyadic (sum < 0) sum.natAbs low

/- The product, rounded. -/
def mul : Double → Double → Double
  | nan, _ => nan
  | _, nan => nan
  | infinite s, infinite t => infinite (s != t)
  | infinite s, finite t n _ =>
      if n = 0 then nan else infinite (s != t)
  | finite s m _, infinite t =>
      if m = 0 then nan else infinite (s != t)
  | finite s m e, finite t n f =>
      ofDyadic (s != t) (m * n) (e + f)

/- The number with the other sign. -/
def neg : Double → Double
  | nan => nan
  | infinite s => infinite !s
  | finite s m e => finite (!s) m e

------------------------------------------------------------
-- Comparison
------------------------------------------------------------

/- Whether a number is a zero of either sign. -/
def isZero : Double → Bool
  | finite _ m _ => m = 0
  | _ => false

/- The integer that a number is, if it is one. -/
def integer? : Double → Option Int
  | finite s m e =>
      let q := Number.scaled 2 m 1 e
      if q.1 % q.2 = 0 then some (signed s (q.1 / q.2))
      else none
  | _ => none

end Double

end TypedClient
