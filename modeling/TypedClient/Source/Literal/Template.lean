import TypedClient.Source.Literal.Escape

/-
  This file reads templates: literals that hold expressions in
  braces.  A brace that is text is written twice.  The expression
  itself is left to a given check.

  Key definitions include:
    * `Source.Flaw`
    * `Source.Template.Text`
    * `Source.Template.check`
-/

namespace TypedClient

namespace Source

/-
  What is wrong with a literal: a message about the place where it
  stands, or a mistake at a line of its own.
-/
inductive Flaw where
  | here (message : String)
  | there (m : Mistake)
deriving DecidableEq, Repr

namespace Template

------------------------------------------------------------
-- Texts
------------------------------------------------------------

/- What is left of a template and its line. -/
structure Text where
  rest : List Char
  line : Nat

/- A template, or what is wrong with it. -/
abbrev Reading (α : Type) :=
  Except Flaw α

/- A mistake of a template. -/
def fail {α : Type} (message : String) : Reading α :=
  .error (.here ("f-string: " ++ message))

/- The opening brace. -/
def openBrace : Char :=
  '\x7b'

/- The closing brace. -/
def closeBrace : Char :=
  '\x7d'

/- The mistake of an expression that is not closed. -/
def unclosed {α : Type} : Reading α :=
  fail ("expecting '" ++ closeBrace.toString ++ "'")

/- The line behind a character. -/
def lineAfter (line : Nat) (c : Char) : Nat :=
  if c = '\n' then line + 1 else line

/- The text behind some of its characters. -/
def Text.behind (line : Nat) (read rest : List Char) : Text :=
  ⟨rest, read.foldl lineAfter line⟩

------------------------------------------------------------
-- Literal pieces
------------------------------------------------------------

/-
  A literal piece, what follows it, and whether the piece ends
  with a brace that is written twice.
-/
structure Piece where
  text : List Char
  next : Text
  isDoubled : Bool

/-
  The rest of a literal piece, with `read` backwards in front of
  it.  `inName` says that the name of an escape is being read, and
  `isNested` that the piece stands inside an expression.
-/
def pieceFrom
    (isRaw isNested inName : Bool)
    (line : Nat)
    (read : List Char) : List Char → Reading Piece
  | [] => .ok ⟨read.reverse, ⟨[], line⟩, false⟩
  | c :: cs =>
      if inName then
        pieceFrom isRaw isNested (c ≠ closeBrace) (lineAfter line c)
          (c :: read) cs
      else if c = '\\' ∧ !isRaw then
        match cs with
        | 'N' :: d :: ds =>
            pieceFrom isRaw isNested (d = openBrace)
              (lineAfter line d) (d :: 'N' :: '\\' :: read) ds
        | d :: ds =>
            if d = openBrace ∨ d = closeBrace then
              brace d line ('\\' :: read) ds
            else
              pieceFrom isRaw isNested false (lineAfter line d)
                (d :: '\\' :: read) ds
        | [] =>
            .ok ⟨(c :: read).reverse, ⟨[], line⟩, false⟩
      else if c = openBrace ∨ c = closeBrace then
        brace c line read cs
      else
        pieceFrom isRaw isNested false (lineAfter line c)
          (c :: read) cs
where
  brace
      (c : Char)
      (line : Nat)
      (read cs : List Char) : Reading Piece :=
    if !isNested ∧ cs.head? = some c then
      .ok ⟨(c :: read).reverse, ⟨cs.drop 1, line⟩, true⟩
    else if !isNested ∧ c = closeBrace then
      fail ("single '" ++ closeBrace.toString ++
        "' is not allowed")
    else .ok ⟨read.reverse, ⟨c :: cs, line⟩, false⟩

------------------------------------------------------------
-- Expressions
------------------------------------------------------------

/-
  What is open at a place of an expression: a string with its
  quote and whether it has three of them, or brackets.
-/
structure Inside where
  quote : Option (Char × Bool)
  brackets : List Char

/- The bracket that closes an open one. -/
def closing (c : Char) : Char :=
  (Bracket.mk c 0).closing

/- The end of an expression. -/
def atEnd (i : Inside) : Reading Unit :=
  if i.quote.isSome then fail "unterminated string"
  else
    match i.brackets with
    | b :: _ => fail ("unmatched '" ++ b.toString ++ "'")
    | [] => .ok ()

/- The most brackets inside each other. -/
def maxBrackets : Nat :=
  200

/- What is open behind a bracket. -/
def behindBracket (i : Inside) (c : Char) : Reading Inside :=
  if c ∈ ['(', '[', openBrace] then
    if maxBrackets ≤ i.brackets.length then
      fail "too many nested parenthesis"
    else .ok { i with brackets := c :: i.brackets }
  else
    match i.brackets with
    | [] => fail ("unmatched '" ++ c.toString ++ "'")
    | b :: bs =>
        if closing b = c then .ok { i with brackets := bs }
        else
          fail ("closing parenthesis '" ++ c.toString ++
            "' does not match opening parenthesis '" ++
            b.toString ++ "'")

/- Whether a character is a bracket. -/
def isBracket (c : Char) : Bool :=
  c ∈ ['(', ')', '[', ']', openBrace, closeBrace]

/- Whether a character may end an expression. -/
def endsExpression (c : Char) : Bool :=
  c ∈ ['!', ':', closeBrace, '=']

/-
  The rest of an expression, with `read` backwards in front of it,
  and what follows it.
-/
def expressionFrom
    (i : Inside)
    (read : List Char) :
    List Char → Reading (List Char × List Char)
  | [] => do
      atEnd i
      return (read.reverse, [])
  | '\\' :: _ =>
      .error (.here
        "f-string expression part cannot include a backslash")
  | a :: b :: c :: cs =>
      match i.quote with
      | some (q, true) =>
          if a = q ∧ b = q ∧ c = q then
            expressionFrom { i with quote := none }
              (c :: b :: a :: read) cs
          else expressionFrom i (a :: read) (b :: c :: cs)
      | some (q, false) =>
          let open_ := if a = q then none else some (q, false)
          expressionFrom { i with quote := open_ } (a :: read)
            (b :: c :: cs)
      | none =>
          if a = '"' ∨ a = '\x27' then
            if a = b ∧ a = c then
              expressionFrom { i with quote := some (a, true) }
                (c :: b :: a :: read) cs
            else
              expressionFrom { i with quote := some (a, false) }
                (a :: read) (b :: c :: cs)
          else if i.brackets.isEmpty ∧ b = '=' ∧
              a ∈ ['!', '=', '<', '>'] then
            expressionFrom i (b :: a :: read) (c :: cs)
          else if i.brackets.isEmpty ∧ endsExpression a then
            .ok (read.reverse, a :: b :: c :: cs)
          else if a = '#' then comment
          else if isBracket a then do
            let i ← behindBracket i a
            expressionFrom i (a :: read) (b :: c :: cs)
          else expressionFrom i (a :: read) (b :: c :: cs)
  | a :: cs =>
      match i.quote with
      | some (q, isLong) =>
          let open_ :=
            if a = q ∧ !isLong then none else some (q, isLong)
          expressionFrom { i with quote := open_ } (a :: read) cs
      | none =>
          if a = '"' ∨ a = '\x27' then
            expressionFrom { i with quote := some (a, false) }
              (a :: read) cs
          else if i.brackets.isEmpty ∧ cs.head? = some '=' ∧
              a ∈ ['!', '=', '<', '>'] then
            .ok (('=' :: a :: read).reverse, [])
          else if i.brackets.isEmpty ∧ endsExpression a then
            .ok (read.reverse, a :: cs)
          else if a = '#' then comment
          else if isBracket a then do
            let i ← behindBracket i a
            expressionFrom i (a :: read) cs
          else expressionFrom i (a :: read) cs
where
  comment : Reading (List Char × List Char) :=
    .error (.here
      "f-string expression part cannot include '#'")

/- Whether an expression has no characters to be read. -/
def isVoid (expression : List Char) : Bool :=
  expression.all fun c => c ∈ [' ', '\t', '\n', '\x0c']

/- The mistake of an expression without characters. -/
def void {α : Type} (behind : Char) : Reading α :=
  if behind = closeBrace then fail "empty expression not allowed"
  else
    fail ("expression required before '" ++ behind.toString ++ "'")

/- What follows the sign that also shows the expression. -/
def skipShown (t : Text) : Text :=
  match t.rest with
  | '=' :: cs =>
      let isSpace (c : Char) : Bool :=
        c = ' ' || (9 ≤ c.toNat && c.toNat ≤ 13)
      .behind t.line (cs.takeWhile isSpace) (cs.dropWhile isSpace)
  | _ => t

/- What follows a conversion. -/
def skipConversion (t : Text) : Reading Text :=
  match t.rest with
  | '!' :: c :: cs =>
      if c ∈ ['s', 'r', 'a'] then .ok ⟨cs, t.line⟩
      else
        fail ("invalid conversion character: " ++
          "expected 's', 'r', or 'a'")
  | '!' :: [] => unclosed
  | _ => .ok t

------------------------------------------------------------
-- Templates
------------------------------------------------------------

/- A check of an expression that starts at a line. -/
abbrev Check :=
  Nat → List Char → Option Mistake

/- The deepest nesting of expressions. -/
def maxDepth : Nat :=
  2

/-
  The rest behind a template, or behind a part of one inside an
  expression, in at most `fuel` steps.
-/
def readFrom
    (check : Check)
    (isRaw : Bool)
    (depth : Nat)
    (t : Text) : Nat → Reading Text
  | 0 => .ok t
  | fuel + 1 => do
      let piece ←
        pieceFrom isRaw (depth ≠ 0) false t.line [] t.rest
      match Escape.textMistake? (if isRaw then [] else piece.text)
          with
      | some message => .error (.here message)
      | none =>
          if piece.isDoubled then
            readFrom check isRaw depth piece.next fuel
          else
            match piece.next.rest with
            | [] => if depth = 0 then return piece.next else unclosed
            | c :: cs =>
                if c = closeBrace then return piece.next
                else do
                  let next ← expression depth
                    (fun t => readFrom check isRaw (depth + 1) t
                      fuel) ⟨cs, piece.next.line⟩
                  readFrom check isRaw depth next fuel
where
  expression
      (depth : Nat)
      (nested : Text → Reading Text)
      (t : Text) : Reading Text := do
    if maxDepth ≤ depth then
      fail "expressions nested too deeply"
    else
      let (found, rest) ← expressionFrom ⟨none, []⟩ [] t.rest
      match rest with
      | [] => unclosed
      | c :: _ =>
          if isVoid found then void c
          else
            match check t.line ('(' :: found ++ [')']) with
            | some m => .error (.there m)
            | none => behind nested (.behind t.line found rest)
  behind
      (nested : Text → Reading Text)
      (t : Text) : Reading Text := do
    let t ← skipConversion (skipShown t)
    match t.rest with
    | [] => unclosed
    | c :: cs =>
        if c = ':' then
          if cs.isEmpty then unclosed
          else nested ⟨cs, t.line⟩ >>= close
        else close t
  close (t : Text) : Reading Text :=
    match t.rest with
    | [] => unclosed
    | c :: cs =>
        if c = closeBrace then .ok ⟨cs, t.line⟩ else unclosed

/- What is wrong with a template that starts at a line. -/
def check
    (inner : Check)
    (isRaw : Bool)
    (line : Nat)
    (body : List Char) : Option Flaw :=
  match readFrom inner isRaw 0 ⟨body, line⟩ (body.length + 2) with
  | .ok _ => none
  | .error f => some f

end Template

end Source

end TypedClient
