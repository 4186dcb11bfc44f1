import TypedClient.Source.Check
import TypedClient.Text.Blank
import TypedClient.Text.Lines

/-
  This file formats emitted source: no white space at the end of
  a line, at most two empty lines in a row, none at the start,
  and one line feed at the end.  Source that is not accepted is
  not formatted, and source with surrogates is not even read.

  Key definitions include:
    * `Source.tidy`
    * `Source.Unformatted`
    * `Source.format`
-/

namespace TypedClient

namespace Source

------------------------------------------------------------
-- Layout
------------------------------------------------------------

/- The most line feeds in a row. -/
def maxBreaks : Nat :=
  3

/-
  Text without line feeds that exceed the limit, where `seen` line
  feeds stand directly in front of it.
-/
def limitBreaks (seen : Nat) : List Char → List Char
  | [] => []
  | c :: cs =>
      if c = '\n' then
        if seen < maxBreaks then c :: limitBreaks (seen + 1) cs
        else limitBreaks seen cs
      else c :: limitBreaks 0 cs

/- Text without line feeds at its ends. -/
def stripBreaks (cs : List Char) : List Char :=
  ((cs.dropWhile (· = '\n')).reverse.dropWhile
    (· = '\n')).reverse

/- The lines of a text, without white space at their ends. -/
def tidyLines (text : List Char) : List (List Char) :=
  (Text.lines text).map Text.trimEnd

/- A text with its layout made regular. -/
def tidy (text : List Char) : List Char :=
  stripBreaks (limitBreaks 0 (Text.joinLines (tidyLines text))) ++
    ['\n']

------------------------------------------------------------
-- Formatting
------------------------------------------------------------

/- Why source cannot be read at all. -/
inductive Unreadable where
  | surrogate
  | nullCharacter
deriving DecidableEq, Repr

/-
  Why source is not formatted: it has a mistake, which the message
  tells with the name of the file, or it cannot be read at all.
-/
inductive Unformatted where
  | mistake (message : String)
  | unreadable (e : Unreadable)
deriving DecidableEq, Repr

/- The message of a mistake in a file. -/
def inFile (file message : String) : String :=
  file ++ ": " ++ message

/- The name of source that has no file. -/
def defaultFile : String :=
  "<generated>"

/- The formatted source of a file. -/
def format
    (file : String)
    (text : RawText) : Except Unformatted String :=
  match text.toChars? with
  | none => .error (.unreadable .surrogate)
  | some cs =>
      match check cs with
      | .ok _ => .ok (String.ofList (tidy cs))
      | .error .nullCharacter =>
          .error (.unreadable .nullCharacter)
      | .error (.mistake m) =>
          .error (.mistake (inFile file m.text))

end Source

end TypedClient
