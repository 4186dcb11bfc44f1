import TypedClient.Name.Reserved
import TypedClient.Source.Token.Basic
import TypedClient.Source.Token.Number
import TypedClient.Text.Identifier
import TypedClient.Text.Literal
import TypedClient.Text.Visible

/-
  This file splits source into tokens.  Lines without code and
  line breaks inside brackets give no tokens; a change of the
  indentation in front of code gives one token a level.

  Key definitions include:
    * `Source.Margin`
    * `Source.Scan`
    * `Source.Scan.step`
    * `Source.scan`
-/

namespace TypedClient

namespace Source

------------------------------------------------------------
-- State
------------------------------------------------------------

/-
  The width of an indentation, where a tab reaches the next
  multiple of eight, and the width where a tab counts once.  Both
  have to tell the same story.
-/
structure Margin where
  wide : Nat
  narrow : Nat
deriving DecidableEq, Repr

namespace Margin

/- No indentation. -/
def zero : Margin :=
  ⟨0, 0⟩

/- The indentation behind one more blank. -/
def blank (m : Margin) : Margin :=
  ⟨m.wide + 1, m.narrow + 1⟩

/- The indentation behind one more tab. -/
def tab (m : Margin) : Margin :=
  ⟨(m.wide / 8 + 1) * 8, m.narrow + 1⟩

end Margin

/-
  A scan: the text that is left and its line, whether a line
  starts there, the margins and the brackets that are open, the
  innermost first, and the tokens so far, backwards.
-/
structure Scan where
  rest : List Char
  line : Nat
  isFresh : Bool
  margins : List Margin
  brackets : List Bracket
  tokens : List Token

/- One step of a scan. -/
inductive Step where
  | more (s : Scan)
  | done (e : Ending) (tokens : List Token)

namespace Scan

/- The scan of a text that starts at a line. -/
def ofText (line : Nat) (text : List Char) : Scan :=
  ⟨text, line, true, [], [], []⟩

/- The line behind a line break. -/
def lineBehind (line : Nat) (rest : List Char) : Nat :=
  if rest.isEmpty then line else line + 1

/- The margin of the block that is open. -/
def margin (s : Scan) : Margin :=
  s.margins.head?.getD .zero

/- A scan with one more token, in front of a given rest. -/
def push
    (s : Scan)
    (item : Token.Item)
    (rest : List Char) : Scan :=
  { s with
    rest := rest
    tokens := ⟨item, s.line, s.brackets.length⟩ :: s.tokens }

/- A piece of text that is no token. -/
def refuse (s : Scan) (message : String) : Step :=
  .done (.refused ⟨message, s.line⟩) s.tokens

/- A text that cannot go on as it does. -/
def halt (s : Scan) (message : String) (line : Nat) : Step :=
  .done (.halted ⟨message, line⟩ s.brackets.head?) s.tokens

/- A text that ends too early. -/
def stopAtEnd (s : Scan) (line : Nat) : Step :=
  match s.brackets with
  | b :: _ => .done (.halted b.unclosed (some b)) s.tokens
  | [] => s.halt "unexpected EOF while parsing" line

/- The rest behind a comment. -/
def skipComment (cs : List Char) : List Char :=
  cs.dropWhile (· ≠ '\n')

------------------------------------------------------------
-- Continued lines
------------------------------------------------------------

/- What stands behind the backslash of a continued line. -/
inductive Continued where
  | text (rest : List Char)
  | ended
  | broken

/- What stands behind a backslash. -/
def continued (cs : List Char) : Continued :=
  match cs with
  | '\n' :: [] => .ended
  | '\n' :: cs => .text cs
  | _ => .broken

/- The message of a backslash that does not end its line. -/
def brokenMessage : String :=
  "unexpected character after line continuation character"

------------------------------------------------------------
-- Indentation
------------------------------------------------------------

/- The indentation of a line and what stands behind it. -/
inductive Indentation where
  | text (margin : Margin) (rest : List Char) (line : Nat)
  | ended (line : Nat)
  | broken (line : Nat)

/-
  Read an indentation.  `first` is that of the first of several
  continued lines, if it is not zero.
-/
def indentation
    (first : Option Margin)
    (m : Margin)
    (line : Nat) : List Char → Indentation
  | ' ' :: cs => indentation first m.blank line cs
  | '\t' :: cs => indentation first m.tab line cs
  | '\x0c' :: cs => indentation first .zero line cs
  | '\\' :: '\n' :: [] => .ended line
  | '\\' :: '\n' :: cs =>
      let here := if m.wide = 0 then none else some m
      indentation (first.or here) m (line + 1) cs
  | '\\' :: _ => .broken line
  | cs =>
      let m :=
        match first with
        | some f => ⟨f.wide, f.wide⟩
        | none => m
      .text m cs line

/- The most levels of indentation. -/
def maxMargins : Nat :=
  99

/- The message of an indentation that depends on the tabs. -/
def tabMessage : String :=
  "inconsistent use of tabs and spaces in indentation"

/- The message of an indentation that belongs to no block. -/
def unindentMessage : String :=
  "unindent does not match any outer indentation level"

/- A scan with the ends of blocks. -/
def closeBlocks (s : Scan) : Nat → Scan
  | 0 => s
  | n + 1 => closeBlocks (s.push .dedent s.rest) n

/- Close blocks down to an indentation. -/
def closeTo (s : Scan) (m : Margin) : Step :=
  let left := s.margins.dropWhile fun o => m.wide < o.wide
  let outer := left.head?.getD .zero
  if m.wide ≠ outer.wide then s.halt unindentMessage s.line
  else if m.narrow ≠ outer.narrow then s.halt tabMessage s.line
  else
    .more ({ s with margins := left }.closeBlocks
      (s.margins.length - left.length))

/- Open or close blocks for code at an indentation. -/
def indent (s : Scan) (m : Margin) : Step :=
  if m.wide = s.margin.wide then
    if m.narrow = s.margin.narrow then .more s
    else s.halt tabMessage s.line
  else if s.margin.wide < m.wide then
    if maxMargins ≤ s.margins.length then
      s.halt "too many levels of indentation" s.line
    else if m.narrow ≤ s.margin.narrow then
      s.halt tabMessage s.line
    else
      .more ({ s with margins := m :: s.margins }.push .indent
        s.rest)
  else s.closeTo m

/-
  The start of a line.  A line without code is passed over, and
  inside brackets the indentation is of no account.
-/
def startLine (s : Scan) : Step :=
  match indentation none .zero s.line s.rest with
  | .ended line => { s with line := line }.stopAtEnd line
  | .broken line => s.halt brokenMessage line
  | .text m rest line =>
      let s := { s with rest := rest, line := line, isFresh := false }
      match rest with
      | '#' :: _ => skip s
      | '\n' :: _ => skip s
      | _ => if s.brackets.isEmpty then s.indent m else .more s
where
  skip (s : Scan) : Step :=
    let rest := (skipComment s.rest).drop 1
    .more { s with
      rest := rest
      line := lineBehind s.line rest
      isFresh := true }

------------------------------------------------------------
-- Words
------------------------------------------------------------

/- A code point by its number. -/
def codeText (c : Char) : String :=
  String.ofList ((Text.hexDigits
    (if c.toNat < 0x10000 then 4
      else if c.toNat < 0x100000 then 5 else 6) c.toNat).map
        Char.toUpper)

/- The message of a character that stands in no token. -/
def strangeMessage (c : Char) : String :=
  if Text.isVisible c then
    "invalid character '" ++ c.toString ++
      "' (U+" ++ codeText c ++ ")"
  else "invalid non-printable character U+" ++ codeText c

/- The first character of a word that may not stand there. -/
def strange? (word : List Char) : Option Char :=
  match word with
  | [] => none
  | c :: cs =>
      if Text.isIdentifierStart c then
        cs.find? fun c => !Text.isIdentifierPart c
      else some c

/- A name, or a keyword. -/
def wordItem (word : List Char) : Token.Item :=
  let s := String.ofList word
  if s ∈ Name.keywords then .keyword s else .name s

------------------------------------------------------------
-- Strings
------------------------------------------------------------

/- The letters that may stand in front of a string. -/
def leads : List (List Char) :=
  [[], ['b'], ['r'], ['u'], ['f'], ['b', 'r'], ['r', 'b'],
    ['f', 'r'], ['r', 'f']]

/- The rest of a string, or the line where it breaks off. -/
inductive Body where
  | closed (body : List Char) (rest : List Char) (line : Nat)
  | broken (line : Nat)

/- What stands in a string between three quotes at each end. -/
def longBody
    (quote : Char)
    (read : List Char)
    (line : Nat) : List Char → Body
  | [] => .broken line
  | '\\' :: c :: cs =>
      longBody quote (c :: '\\' :: read)
        (if c = '\n' then lineBehind line cs else line) cs
  | c :: cs =>
      if c = quote ∧ [quote, quote].isPrefixOf cs then
        .closed read.reverse (cs.drop 2) line
      else
        longBody quote (c :: read)
          (if c = '\n' then lineBehind line cs else line) cs

/- What stands in a string between one quote at each end. -/
def shortBody
    (quote : Char)
    (read : List Char)
    (line : Nat) : List Char → Body
  | [] => .broken line
  | '\n' :: _ => .broken line
  | '\\' :: c :: cs =>
      shortBody quote (c :: '\\' :: read)
        (if c = '\n' then lineBehind line cs else line) cs
  | c :: cs =>
      if c = quote then .closed read.reverse cs line
      else shortBody quote (c :: read) line cs

/- A string behind its first quote. -/
def string
    (s : Scan)
    (lead : List Char)
    (quote : Char)
    (cs : List Char) : Step :=
  let isLong := [quote, quote].isPrefixOf cs
  let body :=
    if isLong then longBody quote [] s.line (cs.drop 2)
    else shortBody quote [] s.line cs
  match body with
  | .closed body rest line =>
      .more { s.push (.string ⟨lead, body⟩) rest with line := line }
  | .broken line =>
      s.refuse ("unterminated " ++
        (if isLong then "triple-quoted " else "") ++
        "string literal (detected at line " ++ toString line ++
        ")")

/- A word, or a string with letters in front of it. -/
def word (s : Scan) : Step :=
  let w := s.rest.takeWhile isWordPart
  let rest := s.rest.dropWhile isWordPart
  let plain : Step :=
    match strange? w with
    | some c => s.refuse (strangeMessage c)
    | none => .more (s.push (wordItem w) rest)
  match rest with
  | c :: cs =>
      let lead := w.map Char.toLower
      if (c = '"' ∨ c = '\x27') ∧ lead ∈ leads then
        s.string lead c cs
      else plain
  | [] => plain

------------------------------------------------------------
-- Brackets
------------------------------------------------------------

/- The most brackets inside each other. -/
def maxBrackets : Nat :=
  200

/- An opening bracket. -/
def openBracket (s : Scan) (c : Char) (rest : List Char) : Step :=
  if maxBrackets ≤ s.brackets.length then
    s.refuse "too many nested parentheses"
  else
    .more ({ s with brackets := ⟨c, s.line⟩ :: s.brackets }.push
      (.symbol c.toString) rest)

/- The message of a bracket that closes one of another kind. -/
def mismatchMessage (s : Scan) (b : Bracket) (c : Char) : String :=
  "closing parenthesis '" ++ c.toString ++
    "' does not match opening parenthesis '" ++
    b.mark.toString ++ "'" ++
    (if b.line = s.line then ""
      else " on line " ++ toString b.line)

/- A closing bracket. -/
def closeBracket (s : Scan) (c : Char) (rest : List Char) : Step :=
  match s.brackets with
  | [] => s.refuse ("unmatched '" ++ c.toString ++ "'")
  | b :: bs =>
      if b.closing = c then
        .more ({ s with brackets := bs }.push (.symbol c.toString)
          rest)
      else s.refuse (s.mismatchMessage b c)

------------------------------------------------------------
-- Symbols
------------------------------------------------------------

/- The symbols of more than one character, longer ones first. -/
def longSymbols : List String :=
  ["...", "**=", "//=", ">>=", "<<=", "!=", "%=", "&=", "**",
    "*=", "+=", "-=", "->", "//", "/=", ":=", "<<", "<=", "<>",
    "==", ">=", ">>", "@=", "^=", "|="]

/- A symbol. -/
def symbol (s : Scan) (c : Char) (cs : List Char) : Step :=
  match longSymbols.find? fun t => t.toList.isPrefixOf s.rest with
  | some t => .more (s.push (.symbol t) (s.rest.drop t.length))
  | none =>
      if c ∈ ['(', '[', '\x7b'] then s.openBracket c cs
      else if c ∈ [')', ']', '\x7d'] then s.closeBracket c cs
      else if Text.isVisible c then
        .more (s.push (.symbol c.toString) cs)
      else s.refuse (strangeMessage c)

------------------------------------------------------------
-- Tokens
------------------------------------------------------------

/- A number. -/
def number (s : Scan) (reading : Number.Reading) : Step :=
  match reading with
  | .error message => s.refuse message
  | .ok rest =>
      let text := s.rest.take (s.rest.length - rest.length)
      .more (s.push (.number (String.ofList text)) rest)

/- The end of a line. -/
def breakLine (s : Scan) (rest : List Char) : Step :=
  let s := if s.brackets.isEmpty then s.push .newline rest else s
  .more { s with
    rest := rest
    line := lineBehind s.line rest
    isFresh := true }

/- A token that starts with a given character. -/
def token (s : Scan) (c : Char) (cs : List Char) : Step :=
  if isWordStart c then s.word
  else if c = '\n' then s.breakLine cs
  else if c.isDigit then s.number (Number.read c cs)
  else if c = '.' ∧ (cs.head?.any Char.isDigit) then
    s.number (Number.fraction cs)
  else if c = '"' ∨ c = '\x27' then s.string [] c cs
  else if c = '\\' then
    match continued cs with
    | .text rest =>
        .more { s with rest := rest, line := s.line + 1 }
    | .ended => s.stopAtEnd s.line
    | .broken => s.halt brokenMessage s.line
  else s.symbol c cs

/- Whether a character parts tokens. -/
def partsTokens (c : Char) : Bool :=
  c = ' ' || c = '\t' || c = '\x0c'

/- The rest of a line from its next token or its end on. -/
def skipBlanks (cs : List Char) : List Char :=
  match cs.dropWhile partsTokens with
  | '#' :: cs => skipComment cs
  | cs => cs

/- Read what comes next. -/
def step (s : Scan) : Step :=
  if s.isFresh then s.startLine
  else
    match skipBlanks s.rest with
    | [] =>
        if s.brackets.isEmpty then
          .done .complete (s.push .finish []).tokens
        else s.stopAtEnd s.line
    | c :: cs => { s with rest := c :: cs }.token c cs

/- Read all tokens, in at most `fuel` steps. -/
def run : Nat → Scan → List Token × Ending
  | 0, s => (s.tokens.reverse, .complete)
  | fuel + 1, s =>
      match s.step with
      | .more s => run fuel s
      | .done e tokens => (tokens.reverse, e)

end Scan

------------------------------------------------------------
-- Texts
------------------------------------------------------------

/- The tokens of a text that starts at a line, and their end. -/
def scan
    (line : Nat)
    (text : List Char) : List Token × Ending :=
  Scan.run (2 * text.length + 3) (Scan.ofText line text)

end Source

end TypedClient
