import TypedClient.Source.Literal.Basic
import TypedClient.Source.Parse.Basic
import TypedClient.Source.Token.Scan

/-
  This file parses source.  If a text is not accepted, a second
  parse searches for its mistake; if that finds none, the text is
  wrong where the first one got stuck.

  Key definitions include:
    * `Source.Parse.conclude`
    * `Source.Parse.run`
    * `Source.Parse.mistake?`
-/

namespace TypedClient

namespace Source

namespace Parse

------------------------------------------------------------
-- Conclusions
------------------------------------------------------------

/-
  The mistake that is told when another one was found.  A piece of
  text further on that is no token comes first, and so does an
  open bracket above the last token that was read.
-/
def overruled (input : Input) (seen : Nat) (m : Mistake) : Mistake :=
  match input.ending with
  | .refused m => m
  | .halted _ (some b) =>
      if b.line < input.lineAt (seen - 1) then input.told b.unclosed
      else m
  | _ => m

/-
  The mistake of a text of which nothing else is known.  `first`
  and `second` are how many tokens were read by the two parses.
-/
def unknownMistake (input : Input) (first second : Nat) : Mistake :=
  let last := input.lineAt (second - 1)
  match input.tokens[first - 1]?.map Token.item with
  | some .indent => input.told ⟨"unexpected indent", last⟩
  | some .dedent => input.told ⟨"unexpected unindent", last⟩
  | _ =>
      overruled input second
        (input.told ⟨"invalid syntax", input.lineAt (first - 1)⟩)

/- A way of taking steps through some input. -/
abbrev Runner :=
  Input → Peg → Step

/- The mistake of an input, if a step does not accept it. -/
def conclude
    (runner : Runner)
    (input : Input)
    (p : Peg) : Option Mistake :=
  let size := input.tokens.size
  match runner input p 0 (.start 0 size) with
  | (.found _ _, _) => none
  | (.broken m true, _) => some m
  | (.broken m false, s) => some (overruled input s.seen m)
  | (_, one) =>
      let again := { input with isRetry := true }
      match runner again p 0 (.start one.seen size) with
      | (.broken m true, _) => some m
      | (.broken m false, s) => some (overruled input s.seen m)
      | (_, two) => some (unknownMistake input one.seen two.seen)

/- The mistake of a text that starts at a line. -/
def mistakeFrom
    (runner : Runner)
    (isPart : Bool)
    (p : Peg)
    (line : Nat)
    (text : List Char) : Option Mistake :=
  let (tokens, ending) := scan line text
  conclude runner ⟨tokens.toArray, ending, isPart, false⟩ p

------------------------------------------------------------
-- Literals
------------------------------------------------------------

/- The literals in a row from a token on, and what follows. -/
def literalsFrom
    (input : Input)
    (i : Nat)
    (s : Progress) : Nat → List (Nat × Quoted) × Nat × Progress
  | 0 => ([], i, s)
  | fuel + 1 =>
      match input.tokens[i]? with
      | none => ([], i, s)
      | some t =>
          match t.item with
          | .string q =>
              let (qs, j, s) :=
                literalsFrom input (i + 1) (s.see i) fuel
              ((t.line, q) :: qs, j, s)
          | _ => ([], i, s.see i)

/- A check of an expression in a template. -/
def inner (runner : Runner) : Template.Check :=
  fun line text =>
    mistakeFrom runner true (Peg.expression .starSeveral) line
      (text ++ ['\n'])

/- Take literals in a row. -/
def strings (runner : Runner) (input : Input) : Step :=
  fun i s =>
    let (qs, j, s) :=
      literalsFrom input i s (input.tokens.size + 1)
    if input.tokens.size ≤ j then
      (.broken input.endMistake true, s)
    else if qs.isEmpty then (.absent, s)
    else
      let form : Tree.Form :=
        if qs.any fun q => q.2.isTemplate then .template
        else .literal
      match Quoted.rowFlaw? (inner runner) none qs with
      | none => (.found j [.node form (input.lineAt i) []], s)
      | some (.there m) => (.broken (input.told m) false, s)
      | some (.here message) =>
          (.broken (input.told
            ⟨message, input.lineAt (s.seen - 1)⟩) false, s)

/- The most digits of an integer. -/
def maxDigits : Nat :=
  4300

/- What is wrong with an integer that is too long. -/
def longMessage (digits : Nat) : String :=
  "Exceeds the limit (4300 digits) for integer string " ++
    "conversion: value has " ++ toString digits ++ " digits; " ++
    "use sys.set_int_max_str_digits() to increase the limit - " ++
    "Consider hexadecimal for huge integer literals to avoid " ++
    "decimal conversion limits."

/- The digits of a decimal integer, or none. -/
def integerDigits (text : String) : Nat :=
  let cs := text.toList.filter (· ≠ '_')
  if cs.all Char.isDigit then cs.length else 0

/- Whether the text of a number ends with an imaginary unit. -/
def isImaginary (text : String) : Bool :=
  match text.toList.reverse with
  | c :: _ => c = 'j' || c = 'J'
  | [] => false

/- Take a number. -/
def number (input : Input) : Step :=
  fun i s =>
    let leaf : List Tree := [.node .literal (input.lineAt i) []]
    let read (t : Token) : Option (List Tree) :=
      if t.isNumber then some leaf else none
    match Step.token input read i s, input.tokens[i]?.map Token.item
        with
    | (.found j ts, s), some (.number text) =>
        let digits := integerDigits text
        (if maxDigits < digits then
          .broken (input.told
            ⟨longMessage digits, input.lineAt i⟩) false
        else .found j ts, s)
    | r, _ => r

/- Take a name. -/
def name (input : Input) : Step :=
  Step.token input fun t =>
    match t.item with
    | .name s => some [.node (.name s) t.line []]
    | _ => none

------------------------------------------------------------
-- Runs
------------------------------------------------------------

/- Whether a token is a number with an imaginary unit. -/
def readsImaginary (t : Token) : Bool :=
  match t.item with
  | .number text => isImaginary text
  | _ => false

/- Take what is accepted, in at most `fuel` nested steps. -/
def run : Nat → Runner
  | 0, _, _ => Step.absent
  | fuel + 1, input, p =>
      let step := run fuel input
      match p with
      | .name => name input
      | .number => number input
      | .imaginary => Step.test input readsImaginary
      | .strings => strings (run fuel) input
      | .newline => Step.test input (·.item = .newline)
      | .indent => Step.test input (·.item = .indent)
      | .dedent => Step.test input (·.item = .dedent)
      | .finish => Step.test input (·.item = .finish)
      | .word s => Step.test input (·.reads s)
      | .soft s => Step.test input (·.isNamed s)
      | .rule r => Step.rule (step r.body) r
      | .all ps => Step.all step false [] ps
      | .first ps => Step.first step ps
      | .many p => Step.many (step p) [] (input.tokens.size + 1)
      | .ahead p => Step.ahead (step p)
      | .notAhead p => Step.notAhead (step p)
      | .force s => Step.force input s
      | .commit => Step.all step true [] []
      | .chain p links => Step.chain input step p links
      | .node f p => Step.node input f (step p)
      | .quiet p => Step.mapTrees (fun _ _ => []) (step p)
      | .retry p =>
          if input.isRetry then step p else Step.absent
      | .calm p => run fuel { input with isRetry := false } p
      | .complain c p => Step.complain input c (step p)

/- The nesting of steps between two tokens. -/
def stepsPerToken : Nat :=
  1000

/- What is wrong with a text. -/
def mistake? (text : List Char) : Option Mistake :=
  mistakeFrom (run (stepsPerToken * (text.length + 2))) false
    (Peg.statement .file) 1 text

end Parse

end Source

end TypedClient
