/-
  This file defines text as the document formats allow it.  An
  escape may name half of a surrogate pair, so decoded text is a
  list of code points, and only some of it is a `String`.

  Key definitions include:
    * `CodePoint`
    * `CodePoint.ofNat?`
    * `RawText`
    * `RawText.ofString`
    * `RawText.toString?`
    * `RawText.blanked`
    * `RawText.ble`
-/

namespace TypedClient

------------------------------------------------------------
-- Code points
------------------------------------------------------------

/-
  A code point is a character or a surrogate that stands alone;
  the latter is counted from U+D800.
-/
inductive CodePoint where
  | scalar (c : Char)
  | surrogate (offset : Fin 0x800)
deriving DecidableEq, Repr, Inhabited

namespace CodePoint

instance : Coe Char CodePoint :=
  ⟨scalar⟩

/- The number of a code point. -/
def toNat : CodePoint → Nat
  | scalar c => c.toNat
  | surrogate k => 0xD800 + k.val

/- The code point of a number, up to U+10FFFF. -/
def ofNat? (n : Nat) : Option CodePoint :=
  if h : n.isValidChar then
    some (scalar (Char.ofNatAux n h))
  else if hs : n - 0xD800 < 0x800 then
    if 0xD800 ≤ n then some (surrogate ⟨n - 0xD800, hs⟩)
    else none
  else none

/- The character of a code point that is one. -/
def toChar? : CodePoint → Option Char
  | scalar c => some c
  | surrogate _ => none

/- Whether a code point is a character of some kind. -/
def isChar (kind : Char → Bool) : CodePoint → Bool
  | scalar c => kind c
  | surrogate _ => false

end CodePoint

------------------------------------------------------------
-- Raw text
------------------------------------------------------------

/- Text that may hold surrogates that stand alone. -/
abbrev RawText :=
  List CodePoint

namespace RawText

/- The code points of characters. -/
def ofChars (cs : List Char) : RawText :=
  cs.map .scalar

/- The code points of a string. -/
@[coe]
def ofString (s : String) : RawText :=
  ofChars s.toList

instance : Coe String RawText :=
  ⟨ofString⟩

/- The characters of text without surrogates. -/
def toChars? (t : RawText) : Option (List Char) :=
  t.mapM CodePoint.toChar?

/- The string of text without surrogates. -/
def toString? (t : RawText) : Option String :=
  t.toChars?.map String.ofList

/- The string of text, with a blank for each surrogate. -/
def blanked (t : RawText) : String :=
  String.ofList (t.map fun p => p.toChar?.getD ' ')

/- Lexicographic order by code point. -/
def ble : RawText → RawText → Bool
  | [], _ => true
  | _ :: _, [] => false
  | a :: s, b :: t =>
      a.toNat < b.toNat || (a.toNat == b.toNat && ble s t)

end RawText

end TypedClient
