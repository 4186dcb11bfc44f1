import TypedClient.Text.CodePoint
import TypedClient.Text.Ranges
import TypedClient.Text.Split

/-
  This file defines white space and the two operations that
  depend on it: trimming the end of a line and listing words.

  Key definitions include:
    * `Text.isBlank`
    * `Text.trimEnd`
    * `Text.words`
-/

namespace TypedClient

namespace Text

------------------------------------------------------------
-- White space
------------------------------------------------------------

/-
  Code points of white space, among them the four information
  separators.
-/
def blankRanges : List (Nat × Nat) :=
  [(9, 13), (28, 32), (133, 133), (160, 160), (5760, 5760),
    (8192, 8202), (8232, 8233), (8239, 8239), (8287, 8287),
    (12288, 12288)]

/- Whether a character is white space. -/
def isBlank (c : Char) : Bool :=
  inRanges blankRanges c.toNat

/- A line without the white space at its end. -/
def trimEnd (line : List Char) : List Char :=
  (line.reverse.dropWhile isBlank).reverse

------------------------------------------------------------
-- Words
------------------------------------------------------------

/- The pieces of text between white space. -/
def words (text : RawText) : List RawText :=
  runs (fun p => !p.isChar isBlank) text

end Text

end TypedClient
