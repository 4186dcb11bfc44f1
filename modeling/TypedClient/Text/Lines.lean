/-
  This file splits text into lines.  A line ends at any line
  boundary of Unicode or at one of the three upper information
  separators, and a carriage return with a line feed is one
  boundary.

  Key definitions include:
    * `Text.isLineBoundary`
    * `Text.lines`
    * `Text.joinLines`
    * `Text.plainBreaks`
-/

namespace TypedClient

namespace Text

/- Whether a character ends a line. -/
def isLineBoundary (c : Char) : Bool :=
  c ∈ ['\n', '\r', '\x0b', '\x0c', '\x1c', '\x1d', '\x1e',
    '\u0085', '\u2028', '\u2029']

/-
  The lines of text, where `line` is the open line read
  backwards.  Text that ends with a boundary has no empty line
  behind it.
-/
def linesFrom (line : List Char) : List Char → List (List Char)
  | [] => if line.isEmpty then [] else [line.reverse]
  | '\r' :: '\n' :: cs => line.reverse :: linesFrom [] cs
  | c :: cs =>
      if isLineBoundary c then line.reverse :: linesFrom [] cs
      else linesFrom (c :: line) cs

/- The lines of text, without their boundaries. -/
def lines (text : List Char) : List (List Char) :=
  linesFrom [] text

/- Lines with a line feed between each two. -/
def joinLines (ls : List (List Char)) : List Char :=
  List.intercalate ['\n'] ls

/- Text whose line breaks are all line feeds. -/
def plainBreaks : List Char → List Char
  | [] => []
  | '\r' :: '\n' :: cs => '\n' :: plainBreaks cs
  | '\r' :: cs => '\n' :: plainBreaks cs
  | c :: cs => c :: plainBreaks cs

end Text

end TypedClient
