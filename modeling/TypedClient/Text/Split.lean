/-
  This file takes text apart, into the runs of characters of one
  kind or into the pieces between separators.

  Key definitions include:
    * `Text.runs`
    * `Text.splitOn`
-/

namespace TypedClient

namespace Text

------------------------------------------------------------
-- Runs
------------------------------------------------------------

/-
  The longest non-empty runs of elements that satisfy `p`, in
  order, where `run` is the open run read backwards.
-/
def runsFrom
    {α : Type}
    (p : α → Bool)
    (run : List α) : List α → List (List α)
  | [] => if run.isEmpty then [] else [run.reverse]
  | a :: as =>
      if p a then runsFrom p (a :: run) as
      else if run.isEmpty then runsFrom p [] as
      else run.reverse :: runsFrom p [] as

/-
  The longest non-empty runs of elements that satisfy `p`, in
  order.
-/
def runs
    {α : Type}
    (p : α → Bool)
    (as : List α) : List (List α) :=
  runsFrom p [] as

------------------------------------------------------------
-- Pieces
------------------------------------------------------------

/- The pieces of a list between separators, empty ones too. -/
def splitOn
    {α : Type}
    [DecidableEq α]
    (sep : α) : List α → List (List α)
  | [] => [[]]
  | a :: as =>
      match splitOn sep as with
      | [] => [[a]]
      | p :: ps => if a = sep then [] :: p :: ps else (a :: p) :: ps

end Text

end TypedClient
