import TypedClient.Text.CodePoint
import TypedClient.Text.Split
import TypedClient.Text.Word

/-
  This file defines the variable parts of paths: names in braces
  and groups in parentheses.

  Key definitions include:
    * `Path.groupLength?`
    * `Path.placeholderLength?`
    * `Path.dropGroups`
    * `Path.isVariable`
    * `Path.Piece`
    * `Path.pieces`
    * `Path.sectionOf`
-/

namespace TypedClient

namespace Path

------------------------------------------------------------
-- Slots
------------------------------------------------------------

/-
  The number of code points behind an opening parenthesis up to
  the next closing one, if it stands on the same line.
-/
def groupLength? : RawText → Option Nat
  | [] => none
  | p :: ps =>
      if p = ')' then some 1
      else if p = '\n' then none
      else (groupLength? ps).map (· + 1)

/- Whether a code point may stand in the name of a placeholder. -/
def isNamePoint (p : CodePoint) : Bool :=
  p.isChar Text.isWord

/-
  The number of code points behind an opening brace up to a
  closing one, if only word characters stand between them.
-/
def placeholderLength? (ps : RawText) : Option Nat :=
  let name := ps.takeWhile isNamePoint
  if name.isEmpty then none
  else if (ps.drop name.length).head? = some (.scalar '\x7d') then
    some (name.length + 1)
  else none

/-
  The number of code points behind `p` that belong to the same
  slot.
-/
def slotLength? (p : CodePoint) (ps : RawText) : Option Nat :=
  if p = '\x7b' then placeholderLength? ps
  else if p = '(' then groupLength? ps
  else none

------------------------------------------------------------
-- Groups
------------------------------------------------------------

/- Text without its groups, where `skip` code points are dropped. -/
def dropGroupsFrom (skip : Nat) : RawText → RawText
  | [] => []
  | p :: ps =>
      match skip with
      | k + 1 => dropGroupsFrom k ps
      | 0 =>
          match if p = '(' then groupLength? ps else none with
          | some n => dropGroupsFrom n ps
          | none => p :: dropGroupsFrom 0 ps

/- A path without its groups. -/
def dropGroups (path : RawText) : RawText :=
  dropGroupsFrom 0 path

/- Whether a path has a group. -/
def hasGroup : RawText → Bool
  | [] => false
  | p :: ps => (p = '(' && (groupLength? ps).isSome) || hasGroup ps

/- Whether a path has to be filled in before it is requested. -/
def isVariable (path : RawText) : Bool :=
  '\x7b' ∈ path || hasGroup path

------------------------------------------------------------
-- Pieces
------------------------------------------------------------

/- A piece of a path: literal text, or a slot to be filled in. -/
inductive Piece where
  | text (ps : RawText)
  | slot (ps : RawText)
deriving DecidableEq, Repr

/-
  The pieces of a path from a place on.  `read` is the open
  piece, backwards, and `left` the number of code points that its
  slot still has.
-/
def piecesFrom
    (read : RawText)
    (left : Option Nat) : RawText → List Piece
  | [] =>
      match left with
      | none => [.text read.reverse]
      | some _ => [.slot read.reverse, .text []]
  | p :: ps =>
      match left with
      | some (k + 1) => piecesFrom (p :: read) (some k) ps
      | some 0 =>
          match slotLength? p ps with
          | some n =>
              .slot read.reverse :: .text [] ::
                piecesFrom [p] (some n) ps
          | none => .slot read.reverse :: piecesFrom [p] none ps
      | none =>
          match slotLength? p ps with
          | some n =>
              .text read.reverse :: piecesFrom [p] (some n) ps
          | none => piecesFrom (p :: read) none ps

/-
  The pieces of a path: literal texts and slots in turn, starting
  and ending with a text that may be empty.
-/
def pieces (path : RawText) : List Piece :=
  piecesFrom [] none path

------------------------------------------------------------
-- Sections
------------------------------------------------------------

/- The section of paths that have one part only. -/
def rootSection : RawText :=
  "root"

/- The first part of paths whose second part names the section. -/
def restPart : RawText :=
  "rest"

/- A path without the slash at its start. -/
def dropSlash : RawText → RawText
  | .scalar '/' :: ps => ps
  | ps => ps

/- The section of the API that a path belongs to. -/
def sectionOf (path : RawText) : RawText :=
  match Text.splitOn (.scalar '/') (dropSlash path) with
  | first :: second :: _ =>
      if first = restPart then second else first
  | _ => rootSection

end Path

end TypedClient
