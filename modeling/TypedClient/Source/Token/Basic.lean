import TypedClient.Source.Mistake

/-
  This file defines the tokens of source.  Layout is among them:
  the end of a line of code, and every change of the indentation.

  Key definitions include:
    * `Source.Quoted`
    * `Source.Token.Item`
    * `Source.Token`
    * `Source.Bracket`
    * `Source.Ending`
-/

namespace TypedClient

namespace Source

------------------------------------------------------------
-- Tokens
------------------------------------------------------------

/-
  A string literal: the letters in front of its quotes, in small
  letters, and what stands between the quotes.
-/
structure Quoted where
  lead : List Char
  body : List Char
deriving DecidableEq, Repr

/- What a token is. -/
inductive Token.Item where
  | name (s : String)
  | keyword (s : String)
  | symbol (s : String)
  | number (s : String)
  | string (q : Quoted)
  | newline
  | indent
  | dedent
  | finish
deriving DecidableEq, Repr

/-
  A token with the line on which it ends, or starts if it is a
  string, and the number of brackets that are open behind it.
-/
structure Token where
  item : Token.Item
  line : Nat
  depth : Nat
deriving Repr

namespace Token

/- Whether a token is a number. -/
def isNumber (t : Token) : Bool :=
  match t.item with
  | .number _ => true
  | _ => false

/- Whether a token is a keyword or a symbol of some text. -/
def reads (t : Token) (text : String) : Bool :=
  match t.item with
  | .keyword s => s == text
  | .symbol s => s == text
  | _ => false

/- Whether a token is a name of some text. -/
def isNamed (t : Token) (text : String) : Bool :=
  match t.item with
  | .name s => s == text
  | _ => false

end Token

------------------------------------------------------------
-- Brackets
------------------------------------------------------------

/- An open bracket and its line. -/
structure Bracket where
  mark : Char
  line : Nat
deriving DecidableEq, Repr

namespace Bracket

/- The bracket that closes an open one. -/
def closing (b : Bracket) : Char :=
  if b.mark = '(' then ')'
  else if b.mark = '[' then ']'
  else '\x7d'

/- The mistake of a bracket that stays open. -/
def unclosed (b : Bracket) : Mistake :=
  ⟨"'" ++ b.mark.toString ++ "' was never closed", b.line⟩

end Bracket

------------------------------------------------------------
-- Ends of scans
------------------------------------------------------------

/-
  How the tokens of a text end.

    * `complete`: all of the text is read
    * `refused`: a piece of the text is no token
    * `halted`: the layout of the text is wrong, or it ends too
      early, perhaps inside a bracket
-/
inductive Ending where
  | complete
  | refused (m : Mistake)
  | halted (m : Mistake) (inside : Option Bracket)
deriving DecidableEq, Repr

end Source

end TypedClient
