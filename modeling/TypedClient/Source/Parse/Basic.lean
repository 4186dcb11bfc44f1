import TypedClient.Source.Grammar.Complaint
import TypedClient.Source.Grammar.Rules

/-
  This file defines the steps of a parse.  A step starts at a
  token and takes some tokens, or it is not accepted there, or it
  finds a mistake.

  Key definitions include:
    * `Source.Parse.Input`
    * `Source.Parse.Progress`
    * `Source.Parse.Outcome`
    * `Source.Parse.Step`
-/

namespace TypedClient

namespace Source

namespace Parse

------------------------------------------------------------
-- Input
------------------------------------------------------------

/-
  What is parsed: tokens and how they end.  A part of a template
  says so in its messages, and a second parse searches for
  mistakes.
-/
structure Input where
  tokens : Array Token
  ending : Ending
  isPart : Bool
  isRetry : Bool

namespace Input

/- The line of a token. -/
def lineAt (input : Input) (place : Nat) : Nat :=
  (input.tokens[place]?.map Token.line).getD 0

/- A mistake as it is told about the input. -/
def told (input : Input) (m : Mistake) : Mistake :=
  if input.isPart then { m with message := "f-string: " ++ m.message }
  else m

/- The mistake behind the last token. -/
def endMistake (input : Input) : Mistake :=
  match input.ending with
  | .refused m => m
  | .halted m _ => input.told m
  | .complete => input.told ⟨"unexpected EOF while parsing", 0⟩

end Input

------------------------------------------------------------
-- Progress
------------------------------------------------------------

/- What a kept rule took, if it was accepted. -/
abbrev Kept :=
  Option (Nat × List Tree)

/-
  How far a parse got: how many tokens were read, and what rules
  took at each of them.
-/
structure Progress where
  seen : Nat
  kept : Array (List (Rule × Kept))

namespace Progress

/- The progress before a parse, with some tokens read. -/
def start (seen tokens : Nat) : Progress :=
  ⟨seen, Array.replicate (tokens + 1) []⟩

/- The progress with a token read. -/
def see (s : Progress) (place : Nat) : Progress :=
  { s with seen := max s.seen (place + 1) }

/- What a rule took at a token, if it was tried there. -/
def find? (s : Progress) (place : Nat) (r : Rule) : Option Kept :=
  s.kept[place]?.bind fun ks => ks.lookup r

/- The progress with what a rule took at a token. -/
def keep
    (s : Progress)
    (place : Nat)
    (r : Rule)
    (k : Kept) : Progress :=
  { s with kept := s.kept.modify place ((r, k) :: ·) }

end Progress

------------------------------------------------------------
-- Steps
------------------------------------------------------------

/-
  What comes of a step.

    * `found`: the step took the tokens up to the next one
    * `absent`: the step is not accepted
    * `stopped`: nor is any other choice
    * `broken`: there is a mistake; it is final if no token can be
      read
-/
inductive Outcome where
  | found (next : Nat) (trees : List Tree)
  | absent
  | stopped
  | broken (m : Mistake) (isFinal : Bool)

/- A step of a parse from a token on. -/
abbrev Step :=
  Nat → Progress → Outcome × Progress

namespace Step

/- The step that is never accepted. -/
def absent : Step :=
  fun _ s => (.absent, s)

/- Read one token. -/
def token
    (input : Input)
    (accept : Token → Option (List Tree)) : Step :=
  fun i s =>
    match input.tokens[i]? with
    | none => (.broken input.endMistake true, s)
    | some t =>
        match accept t with
        | some ts => (.found (i + 1) ts, s.see i)
        | none => (.absent, s.see i)

/- Read one token that passes a test. -/
def test (input : Input) (accept : Token → Bool) : Step :=
  token input fun t => if accept t then some [] else none

/- Read a word that has to come. -/
def force (input : Input) (word : String) : Step :=
  fun i s =>
    match test input (·.reads word) i s with
    | (.absent, s) =>
        (.broken (input.told
          ⟨"expected '" ++ word ++ "'", input.lineAt i⟩) false, s)
    | r => r

/- Take parts one after another, behind `trees`. -/
def all
    (step : Peg → Step)
    (isBound : Bool)
    (trees : List Tree) : List Peg → Step
  | [] => fun i s => (.found i trees, s)
  | .commit :: ps => all step true trees ps
  | p :: ps => fun i s =>
      match step p i s with
      | (.found j ts, s) => all step isBound (trees ++ ts) ps j s
      | (.broken m f, s) => (.broken m f, s)
      | (_, s) => (if isBound then .stopped else .absent, s)

/- Take the first part that is accepted. -/
def first (step : Peg → Step) : List Peg → Step
  | [] => absent
  | p :: ps => fun i s =>
      match step p i s with
      | (.absent, s) => first step ps i s
      | (.stopped, s) => (.absent, s)
      | r => r

/- Take a part as often as it is accepted. -/
def many (step : Step) (trees : List Tree) : Nat → Step
  | 0 => fun i s => (.found i trees.reverse, s)
  | fuel + 1 => fun i s =>
      match step i s with
      | (.found j ts, s) =>
          if i < j then many step (ts.reverse ++ trees) fuel j s
          else (.found i trees.reverse, s)
      | (.broken m f, s) => (.broken m f, s)
      | (_, s) => (.found i trees.reverse, s)

/- Only look. -/
def ahead (step : Step) : Step :=
  fun i s =>
    match step i s with
    | (.found _ _, s) => (.found i [], s)
    | (.broken m f, s) => (.broken m f, s)
    | (_, s) => (.absent, s)

/- Only look for what must not be there. -/
def notAhead (step : Step) : Step :=
  fun i s =>
    match step i s with
    | (.found _ _, s) => (.absent, s)
    | (.broken m f, s) => (.broken m f, s)
    | (_, s) => (.found i [], s)

/- Change the trees that a step takes. -/
def mapTrees (f : Nat → List Tree → List Tree) (step : Step) : Step :=
  fun i s =>
    match step i s with
    | (.found j ts, s) => (.found j (f i ts), s)
    | r => r

/- Give a form to what a step takes. -/
def node (input : Input) (form : Tree.Form) (step : Step) : Step :=
  step.mapTrees fun i ts => [.node form (input.lineAt i) ts]

/- Take the first link that is accepted behind a tree. -/
def link
    (step : Peg → Step)
    (line : Nat)
    (tree : Tree) : List (Tree.Form × Peg) → Step
  | [] => absent
  | (form, p) :: ls => fun i s =>
      match step p i s with
      | (.found j ts, s) =>
          (.found j [.node form line (tree :: ts)], s)
      | (.broken m f, s) => (.broken m f, s)
      | (_, s) => link step line tree ls i s

/- Take links behind a tree as long as they are accepted. -/
def chainFrom
    (step : Peg → Step)
    (links : List (Tree.Form × Peg))
    (line : Nat)
    (tree : Tree) : Nat → Step
  | 0 => fun i s => (.found i [tree], s)
  | fuel + 1 => fun i s =>
      match link step line tree links i s with
      | (.found j [t], s) => chainFrom step links line t fuel j s
      | (.broken m f, s) => (.broken m f, s)
      | (_, s) => (.found i [tree], s)

/- Take a part and links behind it. -/
def chain
    (input : Input)
    (step : Peg → Step)
    (p : Peg)
    (links : List (Tree.Form × Peg)) : Step :=
  fun i s =>
    match step p i s with
    | (.found j [t], s) =>
        chainFrom step links (input.lineAt i) t
          (input.tokens.size + 1) j s
    | r => r

/- Take what a rule accepts, or what it took before. -/
def rule (step : Step) (r : Rule) : Step :=
  fun i s =>
    match if r.isKept then s.find? i r else none with
    | some (some (j, ts)) => (.found j ts, s)
    | some none => (.absent, s)
    | none =>
        match step i s with
        | (.found j ts, s) =>
            (.found j ts,
              if r.isKept then s.keep i r (some (j, ts)) else s)
        | (.broken m f, s) => (.broken m f, s)
        | (_, s) =>
            (.absent, if r.isKept then s.keep i r none else s)

/- Find a mistake in what a step takes. -/
def complain
    (input : Input)
    (c : Complaint)
    (step : Step) : Step :=
  fun i s =>
    match step i s with
    | (.found j ts, s) =>
        let scene : Complaint.Scene :=
          ⟨ts, input.lineAt (s.seen - 1),
            (input.tokens[j - 1]?.map Token.depth).getD 0⟩
        (match c.mistake? scene with
          | some m => .broken (input.told m) false
          | none => .stopped, s)
    | r => r

end Step

end Parse

end Source

end TypedClient
