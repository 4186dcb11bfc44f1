import TypedClient.Yaml.Token.Property

/-
  This file splits a YAML stream into tokens.  A scalar or a
  collection turns out to be a key only when a colon follows, so
  the scanner remembers where a key may have started and puts
  the key token there afterwards.

  Key definitions include:
    * `Yaml.Scanner`
    * `Yaml.Scanner.step`
    * `Yaml.Token.scan`
-/

namespace TypedClient

namespace Yaml

------------------------------------------------------------
-- State
------------------------------------------------------------

/-
  A place where a key may have started: how many tokens come
  before it, and whether it has to be a key.
-/
structure PossibleKey where
  number : Nat
  required : Bool
  index : Nat
  line : Nat
  column : Nat
deriving Repr

/-
  A scanner: its place, the number of open flow collections, the
  indentation of the open blocks, whether a key may start here,
  the possible keys by flow level, and the tokens so far,
  backwards.
-/
structure Scanner where
  cursor : Cursor
  flowLevel : Nat
  indent : Int
  outer : List Int
  allowKey : Bool
  keys : List (Nat × PossibleKey)
  tokens : List Token
  count : Nat

namespace Scanner

/- A scanner at the start of a stream. -/
def start (text : List Char) : Scanner :=
  ⟨Cursor.start text, 0, -1, [], true, [], [], 0⟩

/- The scanner after a step, or a fault. -/
abbrev Step :=
  Except Document.Fault Scanner

/- Add a token. -/
def push (s : Scanner) (t : Token) : Scanner :=
  { s with tokens := t :: s.tokens, count := s.count + 1 }

/- Add a token in front of those from `number` on. -/
def insert (s : Scanner) (number : Nat) (t : Token) : Scanner :=
  let later := s.count - number
  { s with
    tokens := s.tokens.take later ++ t :: s.tokens.drop later
    count := s.count + 1 }

/- Move to a place. -/
def moved (s : Scanner) (c : Cursor) : Scanner :=
  { s with cursor := c }

/- Say whether a key may start here. -/
def allowing (s : Scanner) (allow : Bool) : Scanner :=
  { s with allowKey := allow }

/- Whether the scanner is outside of all flow collections. -/
def inBlock (s : Scanner) : Bool :=
  s.flowLevel = 0

------------------------------------------------------------
-- Possible keys
------------------------------------------------------------

/- Whether a possible key is too far behind to be one. -/
def isStale (s : Scanner) (k : PossibleKey) : Bool :=
  k.line ≠ s.cursor.line || 1024 < s.cursor.index - k.index

/- Forget the possible keys that are too far behind. -/
def dropStale (s : Scanner) : Step :=
  if s.keys.any fun k => s.isStale k.2 && k.2.required then
    .error .malformed
  else
    .ok { s with keys := s.keys.filter fun k => !s.isStale k.2 }

/- Forget the possible key of the current flow level. -/
def dropKey (s : Scanner) : Step :=
  if s.keys.any fun k => k.1 = s.flowLevel && k.2.required then
    .error .malformed
  else
    .ok { s with
      keys := s.keys.filter fun k => k.1 ≠ s.flowLevel }

/- Remember that a key may start here. -/
def saveKey (s : Scanner) : Step :=
  if s.allowKey then do
    let s ← s.dropKey
    let c := s.cursor
    let k : PossibleKey :=
      ⟨s.count, s.inBlock && s.indent = c.column,
        c.index, c.line, c.column⟩
    return { s with keys := (s.flowLevel, k) :: s.keys }
  else .ok s

------------------------------------------------------------
-- Indentation
------------------------------------------------------------

/- Close the blocks that are indented more than a column. -/
def unwindFrom
    (column : Int)
    (s : Scanner) : (fuel : Nat) → Scanner
  | 0 => s
  | fuel + 1 =>
      if column < s.indent then
        let closed :=
          { s with
            indent := s.outer.headD (-1)
            outer := s.outer.tail }
        unwindFrom column (closed.push .blockEnd) fuel
      else s

/- Close the blocks that are indented more than a column. -/
def unwind (s : Scanner) (column : Int) : Scanner :=
  if s.inBlock then unwindFrom column s (s.outer.length + 1)
  else s

/- Whether a block opens at a column, and the scanner then. -/
def opened? (s : Scanner) (column : Nat) : Option Scanner :=
  if s.indent < column then
    some { s with indent := column, outer := s.indent :: s.outer }
  else none

/- Open a block here if the column is deeper. -/
def openBlock (s : Scanner) (t : Token) : Scanner :=
  match s.opened? s.cursor.column with
  | some s => s.push t
  | none => s

------------------------------------------------------------
-- Structure
------------------------------------------------------------

/- The place of the next token, behind blanks and comments. -/
def toNextToken (s : Scanner) : (fuel : Nat) → Scanner
  | 0 => s
  | fuel + 1 =>
      let c := (s.cursor.skip (· = ' ')).skipComment
      if isBreak c.head then
        let s := s.moved c.lineBreak.2
        (if s.inBlock then s.allowing true else s).toNextToken
          fuel
      else s.moved c

/- Skip a byte order mark at the start of the stream. -/
def skipMark (s : Scanner) : Scanner :=
  if s.cursor.index = 0 && s.cursor.head = '\uFEFF' then
    s.moved s.cursor.next
  else s

/- Add a token for the next `n` characters. -/
def emit (s : Scanner) (n : Nat) (t : Token) : Scanner :=
  (s.push t).moved (s.cursor.advance n)

/- The end of the stream. -/
def finish (s : Scanner) : Step := do
  let s ← (s.unwind (-1)).dropKey
  return s.push .streamEnd

/- The start or the end of a document. -/
def separator (s : Scanner) (t : Token) : Step := do
  let s ← (s.unwind (-1)).dropKey
  return (s.allowing false).emit 3 t

/- A directive. -/
def directive (s : Scanner) : Step := do
  let s ← (s.unwind (-1)).dropKey
  let (t, c) ← Token.directive s.cursor
  return ((s.allowing false).push t).moved c

/- The start of a flow collection. -/
def openFlow (s : Scanner) (t : Token) : Step := do
  let s ← s.saveKey
  return ({ s with flowLevel := s.flowLevel + 1 }.allowing
    true).emit 1 t

/- The end of a flow collection. -/
def closeFlow (s : Scanner) (t : Token) : Step := do
  if s.inBlock then throw .malformed
  let s ← s.dropKey
  return ({ s with flowLevel := s.flowLevel - 1 }.allowing
    false).emit 1 t

/- The comma of a flow collection. -/
def flowEntry (s : Scanner) : Step := do
  let s ← (s.allowing true).dropKey
  return s.emit 1 .flowEntry

/- The hyphen of a block sequence. -/
def blockEntry (s : Scanner) : Step := do
  if s.inBlock && !s.allowKey then throw .malformed
  let s := if s.inBlock then s.openBlock .blockSequenceStart else s
  let s ← (s.allowing true).dropKey
  return s.emit 1 .blockEntry

/- The question mark of a key. -/
def explicitKey (s : Scanner) : Step := do
  if s.inBlock && !s.allowKey then throw .malformed
  let s := if s.inBlock then s.openBlock .blockMappingStart else s
  let s ← (s.allowing s.inBlock).dropKey
  return s.emit 1 .key

/- The colon of a value whose key started at a known place. -/
def valueOf (s : Scanner) (k : PossibleKey) : Scanner :=
  let s :=
    { s with keys := s.keys.filter fun k => k.1 ≠ s.flowLevel }
  let s := s.insert k.number .key
  let s :=
    if s.inBlock then
      match s.opened? k.column with
      | some s => s.insert k.number .blockMappingStart
      | none => s
    else s
  (s.allowing false).emit 1 .value

/- The colon of a value. -/
def value (s : Scanner) : Step :=
  match s.keys.lookup s.flowLevel with
  | some k => .ok (s.valueOf k)
  | none => do
      if s.inBlock && !s.allowKey then throw .malformed
      let s :=
        if s.inBlock then s.openBlock .blockMappingStart else s
      let s ← (s.allowing s.inBlock).dropKey
      return s.emit 1 .value

------------------------------------------------------------
-- Content
------------------------------------------------------------

/- Something that may be a key, read by `read`. -/
def content
    (s : Scanner)
    (read : Cursor → Except Document.Fault (Token × Cursor)) :
    Step := do
  let s ← s.saveKey
  let (t, c) ← read s.cursor
  return ((s.allowing false).push t).moved c

/- A block scalar. -/
def blockScalar (s : Scanner) (folded : Bool) : Step := do
  let s ← (s.allowing true).dropKey
  let (text, c) ← Scalar.block folded s.indent s.cursor
  return (s.push (.scalar false text)).moved c

/- A quoted scalar. -/
def quotedScalar (s : Scanner) (double : Bool) : Step :=
  s.content fun c => do
    let (text, c) ← Scalar.quoted double c
    return (.scalar false text, c)

/- A plain scalar. -/
def plainScalar (s : Scanner) : Step := do
  let s ← s.saveKey
  let (text, broken, c) :=
    Scalar.plain (!s.inBlock) s.indent s.cursor
  return ((s.allowing broken).push
    (.scalar true (RawText.ofChars text))).moved c

/- Whether a plain scalar may start with the next character. -/
def startsPlain (s : Scanner) : Bool :=
  let ch := s.cursor.head
  (!isGap ch && ch ∉ "-?:,[]\x7b\x7d#&*!|>\x27\"%@\x60".toList) ||
    (!isGap (s.cursor.peek 1) &&
      (ch = '-' || (s.inBlock && (ch = '?' || ch = ':'))))

/- The next token, at the place where it starts. -/
def token (s : Scanner) : Step :=
  let c := s.cursor
  let alone := isGap (c.peek 1)
  if c.atEnd then s.finish
  else if c.head = '%' && c.column = 0 then s.directive
  else if c.column = 0 && c.atSeparator then
    s.separator
      (if c.head = '-' then .documentStart else .documentEnd)
  else if c.head = '[' then s.openFlow .flowSequenceStart
  else if c.head = '\x7b' then s.openFlow .flowMappingStart
  else if c.head = ']' then s.closeFlow .flowSequenceEnd
  else if c.head = '\x7d' then s.closeFlow .flowMappingEnd
  else if c.head = ',' then s.flowEntry
  else if c.head = '-' && alone then s.blockEntry
  else if c.head = '?' && (!s.inBlock || alone) then
    s.explicitKey
  else if c.head = ':' && (!s.inBlock || alone) then s.value
  else if c.head = '*' then
    s.content fun c => do
      let (name, c) ← Token.anchorName c
      return (.alias name, c)
  else if c.head = '&' then
    s.content fun c => do
      let (name, c) ← Token.anchorName c
      return (.anchor name, c)
  else if c.head = '!' then s.content Token.tagProperty
  else if c.head = '|' && s.inBlock then s.blockScalar false
  else if c.head = '>' && s.inBlock then s.blockScalar true
  else if c.head = '\x27' then s.quotedScalar false
  else if c.head = '"' then s.quotedScalar true
  else if s.startsPlain then s.plainScalar
  else .error .malformed

/- The next token and the blocks that end in front of it. -/
def step (s : Scanner) : Step := do
  let s := s.skipMark.toNextToken (s.cursor.left + 1)
  let s ← s.dropStale
  (s.unwind s.cursor.column).token

end Scanner

------------------------------------------------------------
-- Streams
------------------------------------------------------------

/-
  The tokens of a stream, backwards, and the fault at which they
  end early.
-/
def Token.scanFrom
    (s : Scanner) :
    (fuel : Nat) → List Token × Option Document.Fault
  | 0 => (s.tokens, some .malformed)
  | fuel + 1 =>
      match s.step with
      | .error e => (s.tokens, some e)
      | .ok t =>
          if t.tokens.head? = some .streamEnd then
            (t.tokens, none)
          else Token.scanFrom t fuel

/-
  The tokens of a stream, and the fault at which they end early.
-/
def Token.scan
    (text : List Char) : List Token × Option Document.Fault :=
  if text.all isAllowed then
    let found := Token.scanFrom (Scanner.start text)
      (text.length + 2)
    (found.1.reverse, found.2)
  else ([], some .malformed)

end Yaml

end TypedClient
