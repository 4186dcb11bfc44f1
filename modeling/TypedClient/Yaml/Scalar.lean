import TypedClient.Document.Fault
import TypedClient.Text.CodePoint
import TypedClient.Yaml.Cursor

/-
  This file reads the text of YAML scalars in their five styles:
  plain, single-quoted, double-quoted, literal and folded.

  Key definitions include:
    * `Yaml.Scalar.plain`
    * `Yaml.Scalar.quoted`
    * `Yaml.Scalar.block`
-/

namespace TypedClient

namespace Yaml

namespace Scalar

/- The text of a scalar and the place behind it. -/
abbrev Reading :=
  Except Document.Fault (RawText × Cursor)

------------------------------------------------------------
-- Plain style
------------------------------------------------------------

/-
  Whether a plain scalar stops in front of the text that starts
  with `c` and goes on with `d`.
-/
def plainStops (inFlow : Bool) (c d : Char) : Bool :=
  isGap c ||
    (c = ':' &&
      (isGap d ||
        (inFlow && d ∈ ",[]\x7b\x7d".toList))) ||
    (inFlow && c ∈ ",?[]\x7b\x7d".toList)

/- The first piece of a plain scalar. -/
def plainPiece (inFlow : Bool) : List Char → List Char
  | [] => []
  | c :: cs =>
      if plainStops inFlow c (cs.headD endMark) then []
      else c :: plainPiece inFlow cs

/-
  The blanks and line breaks from a place on.  The text of the
  breaks comes first, read on from `breaks`, which is backwards;
  the flag says that a document separator was met.
-/
def plainBreaks
    (fuel : Nat)
    (breaks : List Char)
    (c : Cursor) : List Char × Bool × Cursor :=
  match fuel with
  | 0 => (breaks.reverse, false, c)
  | fuel + 1 =>
      if c.head = ' ' then plainBreaks fuel breaks c.next
      else if isBreak c.head then
        let b := c.lineBreak
        let breaks := b.1.reverse ++ breaks
        if b.2.atSeparator then (breaks.reverse, true, b.2)
        else plainBreaks fuel breaks b.2
      else (breaks.reverse, false, c)

/- A line break folded into a blank, or kept with more breaks. -/
def fold (first others : List Char) : List Char :=
  if first ≠ ['\n'] then first ++ others
  else if others.isEmpty then [' ']
  else others

/-
  The space behind a piece of a plain scalar: the text that it
  stands for, whether a line was broken, and the place behind
  it.  No text means that the scalar ends.
-/
def plainSpace (c : Cursor) : List Char × Bool × Cursor :=
  let blanks := c.span (· = ' ')
  let c := blanks.2
  if isBreak c.head then
    let b := c.lineBreak
    if b.2.atSeparator then ([], true, b.2)
    else
      let more := plainBreaks b.2.left [] b.2
      if more.2.1 then ([], true, more.2.2)
      else (fold b.1 more.1, true, more.2.2)
  else (blanks.1, false, c)

/-
  The rest of a plain scalar behind `read`, which is backwards,
  with `space` between them.  The flag says whether the last
  thing read was a line break, so that a key may follow.
-/
def plainFrom
    (inFlow : Bool)
    (indent : Int)
    (fuel : Nat)
    (read space : List Char)
    (broken : Bool)
    (c : Cursor) : List Char × Bool × Cursor :=
  match fuel with
  | 0 => (read.reverse, broken, c)
  | fuel + 1 =>
      let piece :=
        if c.head = '#' then [] else plainPiece inFlow c.rest
      if piece.isEmpty then (read.reverse, broken, c)
      else
        let text := (space ++ piece).reverse ++ read
        let gap := plainSpace (c.advance piece.length)
        let c := gap.2.2
        if gap.1.isEmpty || c.head = '#' ||
            (!inFlow && c.column < indent) then
          (text.reverse, gap.2.1, c)
        else
          plainFrom inFlow indent fuel text gap.1 gap.2.1 c

/-
  A plain scalar: its text, whether a line break follows it, and
  the place behind it.
-/
def plain
    (inFlow : Bool)
    (indent : Int)
    (c : Cursor) : List Char × Bool × Cursor :=
  plainFrom inFlow (indent + 1) (c.left + 1) [] [] false c

------------------------------------------------------------
-- Quoted styles
------------------------------------------------------------

/- The character of an escape of one letter. -/
def escape? (c : Char) : Option Char :=
  [('0', '\x00'), ('a', '\x07'), ('b', '\x08'), ('t', '\t'),
    ('\t', '\t'), ('n', '\n'), ('v', '\x0b'), ('f', '\x0c'),
    ('r', '\r'), ('e', '\x1b'), (' ', ' '), ('"', '"'),
    ('\\', '\\'), ('/', '/'), ('N', '\u0085'), ('_', '\u00A0'),
    ('L', '\u2028'), ('P', '\u2029')].lookup c

/- The number of digits of a numeric escape. -/
def escapeWidth? (c : Char) : Option Nat :=
  [('x', 2), ('u', 4), ('U', 8)].lookup c

/- The value of a hexadecimal digit. -/
def hexValue? (c : Char) : Option Nat :=
  if c.isDigit then some (c.toNat - 48)
  else if 'a' ≤ c ∧ c ≤ 'f' then some (c.toNat - 87)
  else if 'A' ≤ c ∧ c ≤ 'F' then some (c.toNat - 55)
  else none

/- The number that hexadecimal digits write. -/
def hexNumber? (digits : List Char) : Option Nat :=
  (digits.mapM hexValue?).map fun ds =>
    ds.foldl (fun n d => n * 16 + d) 0

/- The code point of a numeric escape. -/
def codePoint
    (digits : List Char)
    (width : Nat) : Except Document.Fault CodePoint :=
  if digits.length < width then .error .malformed
  else
    match hexNumber? digits with
    | none => .error .malformed
    | some n =>
        match CodePoint.ofNat? n with
        | some p => .ok p
        | none =>
            .error (if n < Nat.pow 2 31 then .badValue else .tooLarge)

/-
  The empty lines behind a line break of a quoted scalar, with
  the space around them, read on from `breaks`, which is
  backwards.
-/
def quotedBreaks
    (fuel : Nat)
    (breaks : List Char)
    (c : Cursor) : Except Document.Fault (List Char × Cursor) :=
  match fuel with
  | 0 => .ok (breaks.reverse, c)
  | fuel + 1 =>
      if c.atSeparator then .error .malformed
      else
        let c := c.skip isSpace
        if isBreak c.head then
          let b := c.lineBreak
          quotedBreaks fuel (b.1.reverse ++ breaks) b.2
        else .ok (breaks.reverse, c)

/-
  Space inside a quoted scalar: blanks stay, a line break is
  folded.
-/
def quotedSpace
    (c : Cursor) : Except Document.Fault (List Char × Cursor) := do
  let blanks := c.span isSpace
  let c := blanks.2
  if c.atEnd then throw .malformed
  else if isBreak c.head then
    let b := c.lineBreak
    let more ← quotedBreaks (b.2.left + 1) [] b.2
    return (fold b.1 more.1, more.2)
  else return (blanks.1, c)

/-
  The rest of a quoted scalar behind its opening quote, where
  `read` is the text so far, backwards.
-/
def quotedFrom
    (double : Bool)
    (fuel : Nat)
    (read : RawText)
    (c : Cursor) : Reading :=
  match fuel with
  | 0 => .error .malformed
  | fuel + 1 =>
      let quote := if double then '"' else '\x27'
      if c.atEnd then .error .malformed
      else if c.head = quote then
        if !double && c.peek 1 = quote then
          quotedFrom double fuel (.scalar quote :: read)
            (c.advance 2)
        else .ok (read.reverse, c.next)
      else if isGap c.head then
        match quotedSpace c with
        | .error e => .error e
        | .ok (cs, c) =>
            quotedFrom double fuel
              ((RawText.ofChars cs).reverse ++ read) c
      else if double && c.head = '\\' then
        let c := c.next
        match escape? c.head, escapeWidth? c.head with
        | some e, _ =>
            quotedFrom double fuel (.scalar e :: read) c.next
        | none, some width =>
            let digits := c.next.rest.take width
            match codePoint digits width with
            | .error e => .error e
            | .ok p =>
                quotedFrom double fuel (p :: read)
                  (c.next.advance width)
        | none, none =>
            if isBreak c.head then
              let b := c.lineBreak
              match quotedBreaks (b.2.left + 1) [] b.2 with
              | .error e => .error e
              | .ok (cs, c) =>
                  quotedFrom double fuel
                    ((RawText.ofChars cs).reverse ++ read) c
            else .error .malformed
      else
        quotedFrom double fuel (.scalar c.head :: read) c.next

/- A quoted scalar at its opening quote. -/
def quoted (double : Bool) (c : Cursor) : Reading :=
  quotedFrom double (c.left + 1) [] c.next

------------------------------------------------------------
-- Block styles
------------------------------------------------------------

/- What becomes of the line breaks at the end of a block. -/
inductive Chomping where
  | strip
  | clip
  | keep
deriving DecidableEq, Repr

/- The chomping that an indicator asks for. -/
def chomping? (c : Char) : Option Chomping :=
  if c = '+' then some .keep
  else if c = '-' then some .strip
  else none

/- The indentation that an indicator asks for; zero is refused. -/
def increment? (c : Char) : Except Document.Fault (Option Nat) :=
  if c = '0' then .error .malformed
  else if c.isDigit then .ok (some (c.toNat - 48))
  else .ok none

/- The indicators of a block scalar, in either order. -/
def indicators
    (c : Cursor) :
    Except Document.Fault (Chomping × Option Nat × Cursor) := do
  match chomping? c.head with
  | some chomp =>
      let c := c.next
      match ← increment? c.head with
      | some k => return (chomp, some k, c.next)
      | none => return (chomp, none, c)
  | none =>
      match ← increment? c.head with
      | some k =>
          let c := c.next
          match chomping? c.head with
          | some chomp => return (chomp, some k, c.next)
          | none => return (.clip, some k, c)
      | none => return (.clip, none, c)

/- The place behind a line that may only hold a comment. -/
def ignoredLine (c : Cursor) : Except Document.Fault Cursor :=
  let c := (c.skip (· = ' ')).skipComment
  if isBreakOrEnd c.head then .ok c.lineBreak.2
  else .error .malformed

/-
  The empty lines in front of a block whose indentation is yet
  unknown, read on from `breaks`, which is backwards, and the
  deepest column that was met.
-/
def leadingBreaks
    (fuel : Nat)
    (breaks : List Char)
    (deepest : Nat)
    (c : Cursor) : List Char × Nat × Cursor :=
  match fuel with
  | 0 => (breaks.reverse, deepest, c)
  | fuel + 1 =>
      if c.head = ' ' then
        leadingBreaks fuel breaks
          (max deepest c.next.column) c.next
      else if isBreak c.head then
        let b := c.lineBreak
        leadingBreaks fuel (b.1.reverse ++ breaks) deepest b.2
      else (breaks.reverse, deepest, c)

/- The place behind blanks up to a column. -/
def indentTo (indent : Nat) : (fuel : Nat) → Cursor → Cursor
  | 0, c => c
  | fuel + 1, c =>
      if c.column < indent && c.head = ' ' then
        indentTo indent fuel c.next
      else c

/-
  The empty lines of a block of known indentation, read on from
  `breaks`, which is backwards.
-/
def blockBreaks
    (indent fuel : Nat)
    (breaks : List Char)
    (c : Cursor) : List Char × Cursor :=
  match fuel with
  | 0 => (breaks.reverse, c)
  | fuel + 1 =>
      let c := indentTo indent c.left c
      if isBreak c.head then
        let b := c.lineBreak
        blockBreaks indent fuel (b.1.reverse ++ breaks) b.2
      else (breaks.reverse, c)

/-
  The text of a block so far, backwards, its last break and the
  breaks behind.
-/
structure Block where
  text : List Char
  last : List Char
  breaks : List Char
  cursor : Cursor

/- The lines of a block from a place on. -/
def blockLines
    (folded : Bool)
    (indent fuel : Nat)
    (b : Block) : Block :=
  match fuel with
  | 0 => b
  | fuel + 1 =>
      let c := b.cursor
      if c.column ≠ indent || c.atEnd then b
      else
        let line := c.span fun ch => !isBreakOrEnd ch
        let lineEnd := line.2.lineBreak
        let more := blockBreaks indent
          (lineEnd.2.left + 1) [] lineEnd.2
        let text := (b.breaks ++ line.1).reverse ++ b.text
        let goesOn :=
          more.2.column = indent && !more.2.atEnd
        let joined :=
          folded && lineEnd.1 = ['\n'] && !isSpace c.head &&
            !isSpace more.2.head
        let text :=
          if !goesOn then text
          else if !joined then lineEnd.1.reverse ++ text
          else if more.1.isEmpty then ' ' :: text
          else text
        blockLines folded indent fuel
          ⟨text, lineEnd.1, more.1, more.2⟩

/- A block scalar at its indicator. -/
def block
    (folded : Bool)
    (parent : Int)
    (c : Cursor) : Reading := do
  let (chomp, increment, c) ← indicators c.next
  if !(c.head = ' ' || isBreakOrEnd c.head) then
    throw .malformed
  let c ← ignoredLine c
  let least := (max (parent + 1) 1).toNat
  let (indent, breaks, c) :=
    match increment with
    | none =>
        let found := leadingBreaks (c.left + 1) [] 0 c
        (max least found.2.1, found.1, found.2.2)
    | some k =>
        let indent := least + k - 1
        let found := blockBreaks indent (c.left + 1) [] c
        (indent, found.1, found.2)
  let b := blockLines folded indent (c.left + 1)
    ⟨[], [], breaks, c⟩
  let text :=
    b.text.reverse ++ (if chomp = .strip then [] else b.last) ++
      (if chomp = .keep then b.breaks else [])
  return (RawText.ofChars text, b.cursor)

end Scalar

end Yaml

end TypedClient
