import TypedClient.Text.Casing

/-
  This file derives the snake-case spelling of a name: its words
  in lower case with an underscore between each two.

  Key definitions include:
    * `Name.isBoundary`
    * `Name.snake`
-/

namespace TypedClient

namespace Name

------------------------------------------------------------
-- Word boundaries
------------------------------------------------------------

/-
  Whether a word ends between `a` and `b`: a capital starts a
  word behind a small letter or a digit, and the last capital of
  a run starts one if a small letter follows it.
-/
def isBoundary (a b : Char) (rest : List Char) : Bool :=
  b.isUpper &&
    (a.isLower || a.isDigit ||
      (a.isUpper && (rest.head?.map Char.isLower).getD false))

/- Text with an underscore at each word boundary. -/
def markBoundaries : List Char → List Char
  | a :: b :: cs =>
      if isBoundary a b cs then
        a :: '_' :: markBoundaries (b :: cs)
      else a :: markBoundaries (b :: cs)
  | cs => cs

------------------------------------------------------------
-- Snake case
------------------------------------------------------------

/- The words of a name in lower case, joined by underscores. -/
def snakeChars (name : List Char) : List Char :=
  Text.lower (markBoundaries name)

/- The snake-case spelling of a name. -/
def snake (name : String) : String :=
  String.ofList (snakeChars name.toList)

end Name

end TypedClient
