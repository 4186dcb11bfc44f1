/-
  This file defines positions in a YAML stream and the character
  classes that its layout is made of.

  Key definitions include:
    * `Yaml.isAllowed`
    * `Yaml.isBreak`
    * `Yaml.Cursor`
    * `Yaml.Cursor.advance`
    * `Yaml.Cursor.lineBreak`
    * `Yaml.Cursor.atSeparator`
-/

namespace TypedClient

namespace Yaml

------------------------------------------------------------
-- Character classes
------------------------------------------------------------

/- Whether a stream may hold a character. -/
def isAllowed (c : Char) : Bool :=
  c = '\t' || c = '\n' || c = '\r' || c = '\u0085' ||
    (' ' ≤ c && c ≤ '~') ||
    (0xA0 ≤ c.toNat && c.toNat ≤ 0xFFFD) || 0x10000 ≤ c.toNat

/- The mark that stands for the end of a stream. -/
def endMark : Char :=
  '\x00'

/- Whether a character breaks a line. -/
def isBreak (c : Char) : Bool :=
  c = '\n' || c = '\r' || c = '\u0085' ||
    c = '\u2028' || c = '\u2029'

/- Whether a line ends at a character. -/
def isBreakOrEnd (c : Char) : Bool :=
  isBreak c || c = endMark

/- Whether a character is a blank or a tab. -/
def isSpace (c : Char) : Bool :=
  c = ' ' || c = '\t'

/- Whether an indicator in front of a character stands alone. -/
def isGap (c : Char) : Bool :=
  isSpace c || isBreakOrEnd c

/- Whether a character may stand in the name of an anchor. -/
def isNameChar (c : Char) : Bool :=
  c.isAlphanum || c = '-' || c = '_'

/- Whether a character may stand in a tag. -/
def isTagChar (c : Char) : Bool :=
  c.isAlphanum || c ∈ "-;/?:@&=+$,_.!~*\x27()[]%".toList

------------------------------------------------------------
-- Cursors
------------------------------------------------------------

/-
  The text that is left and the place where it starts: its
  index in a stream of some length, its line and its column.
-/
structure Cursor where
  rest : List Char
  length : Nat
  index : Nat
  line : Nat
  column : Nat
deriving Repr

namespace Cursor

/- The start of a stream. -/
def start (text : List Char) : Cursor :=
  ⟨text, text.length, 0, 0, 0⟩

/- The number of characters that are left. -/
def left (c : Cursor) : Nat :=
  c.length - c.index

/- The character `k` places ahead. -/
def peek (c : Cursor) (k : Nat) : Char :=
  (c.rest[k]?).getD endMark

/- The next character. -/
def head (c : Cursor) : Char :=
  c.rest.headD endMark

/- Whether the stream is at its end. -/
def atEnd (c : Cursor) : Bool :=
  c.rest.isEmpty

/- The place behind the next character. -/
def next (c : Cursor) : Cursor :=
  match c.rest with
  | [] => c
  | ch :: r =>
      if isBreak ch && !(ch = '\r' && r.headD endMark = '\n') then
        ⟨r, c.length, c.index + 1, c.line + 1, 0⟩
      else if ch = '\uFEFF' then
        ⟨r, c.length, c.index + 1, c.line, c.column⟩
      else ⟨r, c.length, c.index + 1, c.line, c.column + 1⟩

/- The place `n` characters ahead. -/
def advance (c : Cursor) : (n : Nat) → Cursor
  | 0 => c
  | n + 1 => c.next.advance n

/- The characters that satisfy `p`, up to the first other one. -/
def span (c : Cursor) (p : Char → Bool) : List Char × Cursor :=
  let cs := c.rest.takeWhile p
  (cs, c.advance cs.length)

/- The place behind the characters that satisfy `p`. -/
def skip (c : Cursor) (p : Char → Bool) : Cursor :=
  (c.span p).2

/-
  The line break at a place, as the text it stands for: a line
  feed, or itself if it is one of the two Unicode separators.
-/
def lineBreak (c : Cursor) : List Char × Cursor :=
  if c.head = '\r' && c.peek 1 = '\n' then
    (['\n'], c.advance 2)
  else if c.head = '\u2028' || c.head = '\u2029' then
    ([c.head], c.next)
  else if isBreak c.head then (['\n'], c.next)
  else ([], c)

/- Whether a document separator starts at a place. -/
def atSeparator (c : Cursor) : Bool :=
  (c.rest.take 3 = ['-', '-', '-'] ||
    c.rest.take 3 = ['.', '.', '.']) && isGap (c.peek 3)

/- The place behind a comment, if one starts here. -/
def skipComment (c : Cursor) : Cursor :=
  if c.head = '#' then c.skip fun ch => !isBreakOrEnd ch else c

end Cursor

end Yaml

end TypedClient
