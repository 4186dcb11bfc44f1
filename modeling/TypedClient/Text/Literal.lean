import TypedClient.Text.CodePoint

/-
  This file writes text as a quoted literal of visible ASCII
  characters.  A character outside ASCII is written by its
  UTF-16 units, one escape a unit.

  Key definitions include:
    * `Text.hexDigits`
    * `Text.units`
    * `Text.escapePoint`
    * `Text.literal`
-/

namespace TypedClient

namespace Text

------------------------------------------------------------
-- Hexadecimal digits
------------------------------------------------------------

/- The hexadecimal digit of a number below sixteen. -/
def hexDigit (n : Nat) : Char :=
  if n < 10 then Char.ofNat (48 + n) else Char.ofNat (87 + n)

/- The lowest `width` hexadecimal digits of a number. -/
def hexDigits (width n : Nat) : List Char :=
  match width with
  | 0 => []
  | w + 1 => hexDigits w (n / 16) ++ [hexDigit (n % 16)]

------------------------------------------------------------
-- Escapes
------------------------------------------------------------

/- The UTF-16 units of a character. -/
def units (c : Char) : List Nat :=
  if c.toNat < 0x10000 then [c.toNat]
  else
    [0xD800 + (c.toNat - 0x10000) / 0x400,
      0xDC00 + (c.toNat - 0x10000) % 0x400]

/- The escape of a UTF-16 unit. -/
def escapeUnit (u : Nat) : List Char :=
  '\\' :: 'u' :: hexDigits 4 u

/- A character as it stands in a literal. -/
def escapeChar (c : Char) : List Char :=
  if c = '"' then ['\\', '"']
  else if c = '\\' then ['\\', '\\']
  else if c = '\n' then ['\\', 'n']
  else if c = '\r' then ['\\', 'r']
  else if c = '\t' then ['\\', 't']
  else if c = '\x08' then ['\\', 'b']
  else if c = '\x0c' then ['\\', 'f']
  else if 32 ≤ c.toNat ∧ c.toNat < 127 then [c]
  else (units c).flatMap escapeUnit

/- A code point as it stands in a literal. -/
def escapePoint : CodePoint → List Char
  | .scalar c => escapeChar c
  | .surrogate k => escapeUnit (CodePoint.surrogate k).toNat

/- Text as a literal. -/
def literal (text : RawText) : List Char :=
  '"' :: text.flatMap escapePoint ++ ['"']

end Text

end TypedClient
