import TypedClient.Number.Fixed

/-
  This file writes a double by the fewest decimal digits that
  read back as the same number.  From `10 ^ -4` up to `10 ^ 16`
  the text is positional and shows at least one decimal place;
  outside it has an exponent of at least two digits.

  Key definitions include:
    * `Double.Interval`
    * `Double.shortestDigits`
    * `Double.shortest`
-/

namespace TypedClient

namespace Double

------------------------------------------------------------
-- Rounding interval
------------------------------------------------------------

/-
  The reals that round to a positive number: its value and the
  two ends over a common denominator, and whether the ends round
  to it too.
-/
structure Interval where
  low : Nat
  value : Nat
  high : Nat
  den : Nat
  closed : Bool

/- The interval of a mantissa and an exponent. -/
def interval (m : Nat) (e : Int) : Interval :=
  let narrow := m = Nat.pow 2 52 ∧ minExponent < e
  let unit := Number.scaled 2 1 1 (e - 2)
  { low := (4 * m - if narrow then 1 else 2) * unit.1
    value := 4 * m * unit.1
    high := (4 * m + 2) * unit.1
    den := unit.2
    closed := m % 2 = 0 }

/- Whether a quotient lies in an interval. -/
def Interval.holds (i : Interval) (num den : Nat) : Bool :=
  let low := i.low * den
  let high := i.high * den
  let mid := num * i.den
  if i.closed then low ≤ mid && mid ≤ high
  else low < mid && mid < high

------------------------------------------------------------
-- Decimal grid
------------------------------------------------------------

/-
  The first exponent from `k` on whose power of ten is above a
  quotient.
-/
def powerAbove (num den : Nat) : (fuel : Nat) → Int → Int
  | 0, k => k
  | fuel + 1, k =>
      let s := Number.scaled 10 1 1 k
      if num * s.2 < den * s.1 then k
      else powerAbove num den fuel (k + 1)

/- The number of digits of a quotient before its point. -/
def pointOf (num den : Nat) : Int :=
  let bits := (num.log2 : Int) - den.log2 - 1
  powerAbove num den 4 (bits * 30103 / 100000)

/-
  The better of the two neighbours of an interval's value on the
  grid of `10 ^ e`, if one of them lies in the interval.
-/
def gridPoint? (i : Interval) (e : Int) : Option Nat :=
  let s := Number.scaled 10 i.value i.den (-e)
  let q := s.1 / s.2
  let twice := 2 * (s.1 % s.2)
  let point (n : Nat) := Number.scaled 10 n 1 e
  let below := i.holds (point q).1 (point q).2 && q != 0
  let above := i.holds (point (q + 1)).1 (point (q + 1)).2
  let nearBelow :=
    twice < s.2 || (twice == s.2 && q % 2 == 0)
  if below && (nearBelow || !above) then some q
  else if above then some (q + 1)
  else none

/- The first grid point from `digits` digits on. -/
def firstGridPoint
    (i : Interval)
    (point : Int) : (fuel digits : Nat) → Nat × Int
  | 0, digits => (0, point - digits)
  | fuel + 1, digits =>
      match gridPoint? i (point - digits) with
      | some n => (n, point - digits)
      | none => firstGridPoint i point fuel (digits + 1)

/-
  The fewest digits that read back, without zeros at their end,
  and the place of the decimal point from their start.
-/
def shortestDigits (m : Nat) (e : Int) : List Char × Int :=
  let i := interval m e
  let found := firstGridPoint i (pointOf i.value i.den) 17 1
  let digits := Number.decimalDigits found.1
  ((digits.reverse.dropWhile (· == '0')).reverse,
    digits.length + found.2)

------------------------------------------------------------
-- Text
------------------------------------------------------------

/- Digits with a decimal point, at least one digit behind it. -/
def positional (digits : List Char) (point : Int) : List Char :=
  if point ≤ 0 then
    '0' :: '.' :: List.replicate (-point).toNat '0' ++ digits
  else
    let k := point.toNat
    if digits.length ≤ k then
      digits ++ List.replicate (k - digits.length) '0' ++
        ['.', '0']
    else digits.take k ++ '.' :: digits.drop k

/- Digits with one digit before the point and an exponent. -/
def scientific (digits : List Char) (point : Int) : List Char :=
  let lead :=
    match digits with
    | [] => []
    | [d] => [d]
    | d :: ds => d :: '.' :: ds
  let e := point - 1
  lead ++ 'e' :: (if e < 0 then '-' else '+') ::
    Number.padZeros 2 (Number.decimalDigits e.natAbs)

/- The shortest text of a number. -/
def shortestChars : Double → List Char
  | nan => ['n', 'a', 'n']
  | infinite s => signText s ++ ['i', 'n', 'f']
  | finite s m e =>
      if m = 0 then signText s ++ ['0', '.', '0']
      else
        let d := shortestDigits m e
        signText s ++
          if -4 < d.2 ∧ d.2 ≤ 16 then positional d.1 d.2
          else scientific d.1 d.2

/- The shortest text of a number. -/
def shortest (x : Double) : String :=
  String.ofList (shortestChars x)

end Double

end TypedClient
