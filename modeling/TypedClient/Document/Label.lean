import TypedClient.Document.Basic
import TypedClient.Document.Fault
import TypedClient.Number.Shortest
import TypedClient.Text.Literal
import TypedClient.Text.Visible

/-
  This file writes a document as one line of text, for places
  that expect a text and are given something else.  A text is
  its own label; inside a collection it is quoted.

  Key definitions include:
    * `Document.quoted`
    * `Document.shown`
    * `Document.label`
-/

namespace TypedClient

namespace Document

------------------------------------------------------------
-- Quoted text
------------------------------------------------------------

/- The single quote. -/
def singleQuote : Char :=
  '\x27'

/-
  The quote around text: single, unless the text holds single
  quotes and no double ones.
-/
def quoteFor (holds : Char → Bool) : Char :=
  if holds singleQuote && !holds '"' then '"' else singleQuote

/- A code point by its number, in the shortest escape. -/
def numericEscape (n : Nat) : List Char :=
  if n < 0x100 then '\\' :: 'x' :: Text.hexDigits 2 n
  else if n < 0x10000 then '\\' :: 'u' :: Text.hexDigits 4 n
  else '\\' :: 'U' :: Text.hexDigits 8 n

/- A code point as it stands between quotes. -/
def quotedPoint (quote : Char) : CodePoint → List Char
  | .surrogate k => numericEscape (CodePoint.surrogate k).toNat
  | .scalar c =>
      if c = quote ∨ c = '\\' then ['\\', c]
      else if c = '\n' then ['\\', 'n']
      else if c = '\r' then ['\\', 'r']
      else if c = '\t' then ['\\', 't']
      else if Text.isVisible c then [c]
      else numericEscape c.toNat

/- Text between quotes. -/
def quoted (t : RawText) : List Char :=
  let q := quoteFor fun c => .scalar c ∈ t
  q :: t.flatMap (quotedPoint q) ++ [q]

/- A byte as it stands between quotes. -/
def quotedByte (quote : Char) (b : UInt8) : List Char :=
  let c := Char.ofNat b.toNat
  if b.toNat < 127 then quotedPoint quote (.scalar c)
  else numericEscape b.toNat

/- Bytes between quotes, with a mark in front. -/
def quotedBytes (bs : Text.Bytes) : List Char :=
  let q := quoteFor fun c => bs.any (·.toNat = c.toNat)
  'b' :: q :: bs.flatMap (quotedByte q) ++ [q]

------------------------------------------------------------
-- Numbers
------------------------------------------------------------

/- The longest integer that is written, in digits. -/
def maxDigits : Nat :=
  4300

/- The decimal text of an integer that is not too long. -/
def decimal (n : Int) : Except Fault (List Char) :=
  let digits := Number.decimalDigits n.natAbs
  if maxDigits < digits.length then .error .badValue
  else .ok (Double.signText (n < 0) ++ digits)

/- A number with at least `width` digits. -/
def padded (width n : Nat) : List Char :=
  Number.padZeros width (Number.decimalDigits n)

------------------------------------------------------------
-- Points in time
------------------------------------------------------------

/- A day with hyphens. -/
def dayText (d : Day) : List Char :=
  padded 4 d.year ++ '-' :: padded 2 d.month ++
    '-' :: padded 2 d.day

/- A distance from universal time. -/
def offsetText (offset : Int) : List Char :=
  (if offset < 0 then '-' else '+') ::
    padded 2 (offset.natAbs / 60) ++
    ':' :: padded 2 (offset.natAbs % 60)

/- A time of a day behind its day. -/
def momentText (m : Moment) : List Char :=
  dayText m.day ++ ' ' :: padded 2 m.hour ++
    ':' :: padded 2 m.minute ++ ':' :: padded 2 m.second ++
    (if m.micros = 0 then [] else '.' :: padded 6 m.micros) ++
    ((m.offset.map offsetText).getD [])

/- Texts with a comma and a blank between each two. -/
def commaJoin (texts : List (List Char)) : List Char :=
  List.intercalate [',', ' '] texts

/- A name applied to arguments. -/
def call (name : String) (args : List (List Char)) : List Char :=
  name.toList ++ '(' :: commaJoin args ++ [')']

/- Numbers as arguments. -/
def natArgs (ns : List Nat) : List (List Char) :=
  ns.map Number.decimalDigits

/- A distance from universal time inside a collection. -/
def offsetShown (offset : Int) : List Char :=
  if offset = 0 then "datetime.timezone.utc".toList
  else
    let days := if offset < 0 then ["days=-1".toList] else []
    let seconds := (offset % 1440).toNat * 60
    call "datetime.timezone"
      [call "datetime.timedelta"
        (days ++ ["seconds=".toList ++
          Number.decimalDigits seconds])]

/- A day inside a collection. -/
def dayShown (d : Day) : List Char :=
  call "datetime.date" (natArgs [d.year, d.month, d.day])

/- A time of a day inside a collection. -/
def momentShown (m : Moment) : List Char :=
  let d := m.day
  let small :=
    if m.micros ≠ 0 then [m.second, m.micros]
    else if m.second ≠ 0 then [m.second]
    else []
  let zone :=
    (m.offset.map fun o => "tzinfo=".toList ++ offsetShown o)
  call "datetime.datetime"
    (natArgs
      ([d.year, d.month, d.day, m.hour, m.minute] ++ small) ++
      zone.toList)

------------------------------------------------------------
-- Documents
------------------------------------------------------------

/- What stands for a collection inside that collection itself. -/
def dots : Document → List Char
  | mapping _ => ['{', '.', '.', '.', '}']
  | _ => ['[', '.', '.', '.', ']']

mutual

/-
  A document as it stands inside collections, of which the knots
  have the marks `inside`, where `level` levels are left.  A pair
  and the items of a set take one level more.
-/
def shown
    (inside : List Nat)
    (level : Nat) : Document → Except Fault (List Char)
  | null => .ok "None".toList
  | bool b => .ok (if b then "True".toList else "False".toList)
  | int n => decimal n
  | double x => .ok x.shortestChars
  | text t => .ok (quoted t)
  | bytes bs => .ok (quotedBytes bs)
  | day d => .ok (dayShown d)
  | moment m => .ok (momentShown m)
  | list items => do
      let texts ← shownItems inside (← descend level) items
      return '[' :: commaJoin texts ++ [']']
  | pairs es => do
      let texts ← shownPairs inside (← descend level) es
      return '[' :: commaJoin texts ++ [']']
  | set [] => .ok "set()".toList
  | set items => do
      let level ← descend level
      let texts ← shownItems inside (← descend level) items
      return '{' :: commaJoin texts ++ ['}']
  | mapping es => do
      let texts ← shownEntries inside (← descend level) es
      return '{' :: commaJoin texts ++ ['}']
  | knot mark d =>
      if mark ∈ inside then .ok d.dots
      else shown (mark :: inside) level d

/- The items of a collection. -/
def shownItems
    (inside : List Nat)
    (level : Nat) :
    List Document → Except Fault (List (List Char))
  | [] => .ok []
  | d :: ds => do
      let first ← shown inside level d
      return first :: (← shownItems inside level ds)

/- The entries of a list of pairs. -/
def shownPairs
    (inside : List Nat)
    (level : Nat) :
    List (Document × Document) →
      Except Fault (List (List Char))
  | [] => .ok []
  | (k, v) :: es => do
      let parts ← descend level
      let key ← shown inside parts k
      let value ← shown inside parts v
      let first := '(' :: commaJoin [key, value] ++ [')']
      return first :: (← shownPairs inside level es)

/- The entries of a mapping. -/
def shownEntries
    (inside : List Nat)
    (level : Nat) :
    List (Document × Document) →
      Except Fault (List (List Char))
  | [] => .ok []
  | (k, v) :: es => do
      let key ← shown inside level k
      let value ← shown inside level v
      let first := key ++ ':' :: ' ' :: value
      return first :: (← shownEntries inside level es)

end

/- A document as a text. -/
def label : Document → Except Fault RawText
  | text t => .ok t
  | day d => .ok (RawText.ofChars (dayText d))
  | moment m => .ok (RawText.ofChars (momentText m))
  | d => do return RawText.ofChars (← shown [] maxDepth d)

end Document

end TypedClient
