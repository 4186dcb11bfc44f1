import TypedClient.Source.Grammar.Basic

/-
  This file says which mistake a complaint is, if it is one.

  Key definitions include:
    * `Source.Complaint.Scene`
    * `Source.Complaint.mistake?`
-/

namespace TypedClient

namespace Source

namespace Complaint

/-
  Where a complaint is made: what the rule took, the line of the
  last token that was read, and how many brackets are open behind
  what the rule took.
-/
structure Scene where
  trees : List Tree
  lastLine : Nat
  depth : Nat

/- The names that were once statements. -/
def formerStatements : List String :=
  ["print", "exec"]

/- The name of a former statement that a tree is. -/
def formerStatement? (t : Tree) : Option String :=
  match t.form with
  | .name s => if s ∈ formerStatements then some s else none
  | _ => none

/- The message of a former statement. -/
def statementMessage (s : String) : String :=
  "Missing parentheses in call to '" ++ s ++
    "'. Did you mean " ++ s ++ "(...)?"

/- The mistake of two expressions in a row. -/
def commaMistake? (s : Scene) (t : Tree) : Option Mistake :=
  if (formerStatement? t).isSome ∨ s.depth = 0 then none
  else
    some ⟨"invalid syntax. Perhaps you forgot a comma?", t.line⟩

/- The mistake of a generator among several arguments. -/
def generatorMistake? (t : Tree) : Option Mistake :=
  match (t.parts.filter Tree.isPlaced).reverse with
  | last :: _ :: _ =>
      some ⟨"Generator expression must be parenthesized",
        last.line⟩
  | _ => none

/- The message of an argument behind those with names. -/
def placedMessage (t : Tree) : String :=
  "positional argument follows keyword argument" ++
    (if t.parts.any fun p => p.form = .unpacking then
      " unpacking"
    else "")

/- The mistake that a complaint about a part is. -/
def mistakeAbout? (s : Scene) (t : Tree) : Complaint → Option Mistake
  | atMark message => some ⟨message, t.line⟩
  | atLast message => some ⟨message, s.lastLine⟩
  | noBlock owner =>
      some ⟨"expected an indented block after " ++ owner ++
        " on line " ++ toString t.line, s.lastLine⟩
  | formed before behind =>
      some ⟨before ++ t.form.noun ++ behind, t.line⟩
  | target use =>
      (t.misplaced? use).map fun part =>
        ⟨use.message ++ part.form.noun, part.line⟩
  | comma => commaMistake? s t
  | statement =>
      (formerStatement? t).map fun name =>
        ⟨statementMessage name, t.line⟩
  | bareGenerator => generatorMistake? t
  | placed => some ⟨placedMessage t, s.lastLine⟩

/- The mistake that a complaint is. -/
def mistake? (c : Complaint) (s : Scene) : Option Mistake :=
  let about := (Tree.marked? s.trees).map Tree.unmarked
  mistakeAbout? s (about.getD (.node .mark s.lastLine [])) c

end Complaint

end Source

end TypedClient
