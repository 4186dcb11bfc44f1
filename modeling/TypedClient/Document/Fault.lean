/-
  This file lists the ways in which a document fails to be built
  or shown, and limits how deep its parts may lie.

  Key definitions include:
    * `Document.Fault`
    * `Document.maxDepth`
    * `Document.descend`
-/

namespace TypedClient

/-
  Why a text gives no document, or a document no text.

    * `malformed`: the text breaks the rules of its format
    * `tooDeep`: its collections are nested too deeply
    * `badValue`: a scalar does not fit its type
    * `noDigits`: a number has no digits at all
    * `unknownWord`: a truth value is none of the known words
    * `badTimestamp`: a point in time does not have its form
    * `nestedTimestamp`: a point in time is a collection
    * `tooLarge`: a number leaves the range of doubles
-/
inductive Document.Fault where
  | malformed
  | tooDeep
  | badValue
  | noDigits
  | unknownWord
  | badTimestamp
  | nestedTimestamp
  | tooLarge
deriving DecidableEq, Repr

/-
  The levels that a recursion may go down while a document is
  built or shown.
-/
def Document.maxDepth : Nat :=
  960

/- The levels that are left below one of them. -/
def Document.descend : Nat → Except Document.Fault Nat
  | 0 => .error .tooDeep
  | level + 1 => .ok level

end TypedClient
