import TypedClient.Source.Token.Basic

/-
  This file defines what is kept of a parsed expression: its form
  and its first line.  That is enough to say what stands where
  only a name, or only something that takes a value, may stand.

  Key definitions include:
    * `Source.Tree.Form`
    * `Source.Tree`
    * `Source.Tree.form`
    * `Source.Tree.Use`
    * `Source.Tree.misplaced?`
-/

namespace TypedClient

namespace Source

------------------------------------------------------------
-- Trees
------------------------------------------------------------

/-
  The form of an expression, or of a part of one: `membership` is
  the second half of a membership test, `arguments` are those of
  a call, and a `mark` is set around the part that a mistake is
  about.
-/
inductive Tree.Form where
  | name (s : String)
  | member
  | subscript
  | starred
  | list
  | tuple
  | lambda
  | call
  | operation
  | generator
  | yielded
  | awaited
  | listFilled
  | setFilled
  | dictFilled
  | dict
  | set
  | template
  | noneValue
  | trueValue
  | falseValue
  | ellipsis
  | literal
  | comparison
  | membership
  | conditional
  | assignment
  | arguments
  | keyword
  | unpacking
  | mark
deriving DecidableEq, Repr

/- A form with the line where it starts and its parts. -/
inductive Tree where
  | node (form : Tree.Form) (line : Nat) (parts : List Tree)
deriving Repr

namespace Tree

/- The form of a tree. -/
def form : Tree → Form
  | node f _ _ => f

/- The first line of a tree. -/
def line : Tree → Nat
  | node _ l _ => l

/- The parts of a tree. -/
def parts : Tree → List Tree
  | node _ _ ps => ps

/- The marked part among trees. -/
def marked? (ts : List Tree) : Option Tree :=
  ts.find? fun t => t.form = .mark

/- What stands inside a mark, or the mark around a token. -/
def unmarked (t : Tree) : Tree :=
  t.parts.head?.getD t

/- What a form is called in a message. -/
def Form.noun : Form → String
  | name _ => "name"
  | member => "attribute"
  | subscript => "subscript"
  | starred => "starred"
  | list => "list"
  | tuple => "tuple"
  | lambda => "lambda"
  | call => "function call"
  | operation => "expression"
  | generator => "generator expression"
  | yielded => "yield expression"
  | awaited => "await expression"
  | listFilled => "list comprehension"
  | setFilled => "set comprehension"
  | dictFilled => "dict comprehension"
  | dict => "dict literal"
  | set => "set display"
  | template => "f-string expression"
  | noneValue => "None"
  | trueValue => "True"
  | falseValue => "False"
  | ellipsis => "ellipsis"
  | literal => "literal"
  | comparison => "comparison"
  | membership => "comparison"
  | conditional => "conditional expression"
  | assignment => "named expression"
  | arguments => "function call"
  | keyword => "function call"
  | unpacking => "function call"
  | mark => "expression"

------------------------------------------------------------
-- Targets
------------------------------------------------------------

/- What a target is used for. -/
inductive Use where
  | assign
  | loop
  | delete
deriving DecidableEq, Repr

/- The start of the message about a misplaced target. -/
def Use.message : Use → String
  | assign => "cannot assign to "
  | loop => "cannot assign to "
  | delete => "cannot delete "

/-
  The first part of a target that cannot be one.  The target of a
  loop is read together with what it runs over, as a membership
  test.
-/
def misplaced? (use : Use) : Tree → Option Tree
  | node form line parts =>
      match form with
      | .list => anyMisplaced use parts
      | .tuple => anyMisplaced use parts
      | .name _ => none
      | .subscript => none
      | .member => none
      | .starred =>
          if use = .delete then some (node form line parts)
          else firstMisplaced use parts
      | .comparison =>
          if use = .loop then
            if isMembership parts then firstMisplaced use parts
            else none
          else some (node form line parts)
      | _ => some (node form line parts)
where
  anyMisplaced (use : Use) : List Tree → Option Tree
    | [] => none
    | t :: ts => (misplaced? use t).or (anyMisplaced use ts)
  firstMisplaced (use : Use) : List Tree → Option Tree
    | [] => none
    | t :: _ => misplaced? use t
  isMembership : List Tree → Bool
    | _ :: t :: _ => t.form = .membership
    | _ => false

------------------------------------------------------------
-- Arguments
------------------------------------------------------------

/- Whether an argument is passed by its place. -/
def isPlaced (t : Tree) : Bool :=
  t.form ≠ .keyword && t.form ≠ .unpacking

end Tree

end Source

end TypedClient
