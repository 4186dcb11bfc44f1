import TypedClient.Text.CodePoint
import TypedClient.Text.Pattern

/-
  This file defines the types of YAML nodes and how an untagged
  plain scalar gets its type from its text.

  Key definitions include:
    * `Yaml.Tag`
    * `Yaml.Tag.ofUri`
    * `Yaml.Tag.ofPlain`
-/

namespace TypedClient

namespace Yaml

------------------------------------------------------------
-- Tags
------------------------------------------------------------

/- The type of a node; `unknown` is any that has no meaning. -/
inductive Tag where
  | null
  | bool
  | int
  | float
  | binary
  | timestamp
  | omap
  | pairs
  | set
  | str
  | seq
  | map
  | merge
  | value
  | unknown
deriving DecidableEq, Repr, Inhabited

namespace Tag

/- The start of the tags that have a meaning. -/
def coreStart : List Char :=
  "tag:yaml.org,2002:".toList

/- The names of the tags that have a meaning. -/
def coreNames : List (String × Tag) :=
  [("null", null), ("bool", bool), ("int", int),
    ("float", float), ("binary", binary),
    ("timestamp", timestamp), ("omap", omap), ("pairs", pairs),
    ("set", set), ("str", str), ("seq", seq), ("map", map),
    ("merge", merge), ("value", value)]

/- The tag that is written in full. -/
def ofUri (uri : List Char) : Tag :=
  match coreNames.find? fun p =>
      coreStart ++ p.1.toList = uri with
  | some p => p.2
  | none => unknown

------------------------------------------------------------
-- Patterns
------------------------------------------------------------

open Text (Pattern)

/- One of several words. -/
def wordsPattern (ws : List String) : Pattern :=
  .any (ws.map .word)

/- The words for truth values. -/
def boolPattern : Pattern :=
  wordsPattern ["yes", "Yes", "YES", "no", "No", "NO", "true",
    "True", "TRUE", "false", "False", "FALSE", "on", "On", "ON",
    "off", "Off", "OFF"]

/- The words for null. -/
def nullPattern : Pattern :=
  wordsPattern ["~", "null", "Null", "NULL", ""]

/- A sign that may be absent. -/
def signPattern : Pattern :=
  .optional (.oneOf "-+")

/- Digits and underscores. -/
def digitsPattern : Pattern :=
  .star (.oneOf "0123456789_")

/- A digit, then digits and underscores. -/
def wholePattern : Pattern :=
  .seq .digit digitsPattern

/- An exponent, which has to have a sign. -/
def exponentPattern : Pattern :=
  .optional (.all [.oneOf "eE", .oneOf "-+", .many .digit])

/- The parts to the base sixty behind the first one. -/
def sixtiesPattern : Pattern :=
  .many (.all [.char ':', .optional (.oneOf "012345"), .digit])

/- Numbers with a point. -/
def floatPattern : Pattern :=
  .any [
    .all [signPattern, wholePattern, .char '.', digitsPattern,
      exponentPattern],
    .all [.char '.', wholePattern, exponentPattern],
    .all [signPattern, wholePattern, sixtiesPattern, .char '.',
      digitsPattern],
    .all [signPattern, .char '.',
      wordsPattern ["inf", "Inf", "INF"]],
    .all [.char '.', wordsPattern ["nan", "NaN", "NAN"]]]

/- Whole numbers to the bases 2, 8, 10, 16 and 60. -/
def intPattern : Pattern :=
  .seq signPattern (.any [
    .all [.word "0b", .many (.oneOf "01_")],
    .all [.char '0', .many (.oneOf "01234567_")],
    .char '0',
    .seq (.oneOf "123456789") digitsPattern,
    .all [.word "0x",
      .many (.oneOf "0123456789abcdefABCDEF_")],
    .all [.oneOf "123456789", digitsPattern, sixtiesPattern]])

/- A number of digits. -/
def digitCount (n : Nat) : Pattern :=
  .all (List.replicate n .digit)

/- One or two digits. -/
def oneOrTwoDigits : Pattern :=
  .seq .digit (.optional .digit)

/- A distance from universal time. -/
def zonePattern : Pattern :=
  .optional (.seq (.star (.oneOf " \t")) (.alt (.char 'Z')
    (.all [.oneOf "-+", oneOrTwoDigits,
      .optional (.seq (.char ':') (digitCount 2))])))

/- A time of a day. -/
def clockPattern : Pattern :=
  .all [oneOrTwoDigits, .char ':', digitCount 2, .char ':',
    digitCount 2,
    .optional (.seq (.char '.') (.star .digit)), zonePattern]

/- Between a day and a time. -/
def clockMarkPattern : Pattern :=
  .alt (.oneOf "Tt") (.many (.oneOf " \t"))

/- Days with two digits for each part, and points in time. -/
def timestampPattern : Pattern :=
  .alt
    (.all [digitCount 4, .char '-', digitCount 2, .char '-',
      digitCount 2])
    (.all [digitCount 4, .char '-', oneOrTwoDigits, .char '-',
      oneOrTwoDigits, clockMarkPattern, clockPattern])

------------------------------------------------------------
-- Types of plain scalars
------------------------------------------------------------

/- The types of plain scalars and their patterns. -/
def plainTypes : List (Pattern × Tag) :=
  [(boolPattern, bool), (floatPattern, float),
    (intPattern, int), (.word "<<", merge), (nullPattern, null),
    (timestampPattern, timestamp), (.word "=", value)]

/- Text without a line feed at its end. -/
def dropLineFeed (cs : List Char) : List Char :=
  if cs.getLast? = some '\n' then cs.dropLast else cs

/- The type of an untagged plain scalar. -/
def ofPlain (text : RawText) : Tag :=
  match RawText.toChars? text with
  | none => str
  | some cs =>
      match plainTypes.find? fun p =>
          p.1.accepts (dropLineFeed cs) with
      | some p => p.2
      | none => str

end Tag

end Yaml

end TypedClient
