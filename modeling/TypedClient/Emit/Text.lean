import TypedClient.Text.Literal

/-
  This file holds what both emitted units are made of: their
  first line, quoted literals, and lines of text.  Most lines are
  strings; only a line that shows text of a schema as it is may
  hold surrogates.

  Key definitions include:
    * `Emit.header`
    * `Emit.literal`
    * `Emit.separated`
    * `Emit.plain`
    * `Emit.unitText`
-/

namespace TypedClient

namespace Emit

/- The first line of every unit. -/
def header : String :=
  "# Code generated by api-client-gen. DO NOT EDIT."

/- A quoted literal of a text. -/
def rawLiteral (t : RawText) : String :=
  String.ofList (Text.literal t)

/- A quoted literal of a string. -/
def literal (s : String) : String :=
  rawLiteral (RawText.ofString s)

/- Texts with a separator between each two. -/
def separated (separator : String) (texts : List String) : String :=
  String.ofList
    (List.intercalate separator.toList (texts.map String.toList))

/- A list of arguments. -/
def commaList (args : List String) : String :=
  separated ", " args

/- Strings as lines. -/
def plain (lines : List String) : List RawText :=
  lines.map RawText.ofString

/- What ends a line. -/
def lineFeed : RawText :=
  ['\n']

/- The text of the lines of a unit. -/
def unitText (lines : List RawText) : RawText :=
  List.intercalate lineFeed lines ++ lineFeed

end Emit

end TypedClient
