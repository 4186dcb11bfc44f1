import TypedClient.Number.Double

/-
  This file writes a double with a fixed number of decimal
  places.  The exact value is rounded, ties to even, and the
  sign stays even in front of a zero.

  Key definitions include:
    * `Number.decimalDigits`
    * `Number.pointed`
    * `Double.fixed`
-/

namespace TypedClient

namespace Number

/- The decimal digits of a natural number. -/
def decimalDigits (n : Nat) : List Char :=
  Nat.toDigits 10 n

/- Digits filled up with zeros on the left. -/
def padZeros (width : Nat) (digits : List Char) : List Char :=
  List.replicate (width - digits.length) '0' ++ digits

/- A number of units of `10 ^ -places`, with a decimal point. -/
def pointed (places units : Nat) : List Char :=
  if places = 0 then decimalDigits units
  else
    decimalDigits (units / Nat.pow 10 places) ++ '.' ::
      padZeros places (decimalDigits (units % Nat.pow 10 places))

end Number

namespace Double

/- A minus sign for negative numbers. -/
def signText (negative : Bool) : List Char :=
  if negative then ['-'] else []

/- The text of a number with a fixed number of places. -/
def fixedChars (places : Nat) : Double → List Char
  | nan => ['n', 'a', 'n']
  | infinite s => signText s ++ ['i', 'n', 'f']
  | finite s m e =>
      let q := Number.scaled 2 (m * Nat.pow 10 places) 1 e
      signText s ++
        Number.pointed places (Number.roundDiv q.1 q.2)

/- The text of a number with a fixed number of places. -/
def fixed (places : Nat) (x : Double) : String :=
  String.ofList (fixedChars places x)

end Double

end TypedClient
