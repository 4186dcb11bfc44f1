/-
  This file defines patterns over characters and matching by
  derivatives: the derivative of a pattern at a character
  matches what the pattern matches behind that character.

  Key definitions include:
    * `Text.Pattern`
    * `Text.Pattern.accepts`
-/

namespace TypedClient

namespace Text

------------------------------------------------------------
-- Patterns
------------------------------------------------------------

/-
  A regular pattern: no text at all, the empty text, one
  character that satisfies a test, two patterns in a row, either
  of two, or any number of one.
-/
inductive Pattern where
  | never
  | empty
  | one (p : Char → Bool)
  | seq (a b : Pattern)
  | alt (a b : Pattern)
  | star (a : Pattern)

namespace Pattern

/- The pattern of one given character. -/
def char (c : Char) : Pattern :=
  one (· == c)

/- The pattern of one of the given characters. -/
def oneOf (s : String) : Pattern :=
  one fun c => c ∈ s.toList

/- The pattern of one digit. -/
def digit : Pattern :=
  one Char.isDigit

/- Patterns one after another. -/
def all : List Pattern → Pattern
  | [] => empty
  | [a] => a
  | a :: as => seq a (all as)

/- One of several patterns. -/
def any : List Pattern → Pattern
  | [] => never
  | [a] => a
  | a :: as => alt a (any as)

/- The pattern of a word. -/
def word (s : String) : Pattern :=
  all (s.toList.map char)

/- A pattern that may be absent. -/
def optional (a : Pattern) : Pattern :=
  alt empty a

/- A pattern at least once. -/
def many (a : Pattern) : Pattern :=
  seq a (star a)

------------------------------------------------------------
-- Matching
------------------------------------------------------------

/- Whether a pattern matches the empty text. -/
def nullable : Pattern → Bool
  | never => false
  | empty => true
  | one _ => false
  | seq a b => a.nullable && b.nullable
  | alt a b => a.nullable || b.nullable
  | star _ => true

/- Sequence, without patterns that do nothing. -/
def joinSeq : Pattern → Pattern → Pattern
  | never, _ => never
  | empty, b => b
  | a, b => seq a b

/- Choice, without patterns that never match. -/
def joinAlt : Pattern → Pattern → Pattern
  | never, b => b
  | a, never => a
  | a, b => alt a b

/- The pattern of what may follow a character. -/
def derivative (c : Char) : Pattern → Pattern
  | never => never
  | empty => never
  | one p => if p c then empty else never
  | seq a b =>
      if a.nullable then
        joinAlt (joinSeq (a.derivative c) b) (b.derivative c)
      else joinSeq (a.derivative c) b
  | alt a b => joinAlt (a.derivative c) (b.derivative c)
  | star a => joinSeq (a.derivative c) (star a)

/- Whether a pattern matches a whole text. -/
def accepts (a : Pattern) : List Char → Bool
  | [] => a.nullable
  | c :: cs => (a.derivative c).accepts cs

end Pattern

end Text

end TypedClient
