import TypedClient.Emit.Text
import TypedClient.Endpoint.Path

/-
  This file emits the expression that builds a path: a literal if
  nothing is filled in, else a template with one slot for each
  argument that is used.

  Key definitions include:
    * `Emit.doubleBraces`
    * `Emit.Template`
    * `Emit.Template.ofPath`
    * `Emit.pathExpression`
-/

namespace TypedClient

namespace Emit

/- A code point in a template, where braces are written twice. -/
def templatePoint (p : CodePoint) : RawText :=
  if p = '\x7b' ∨ p = '\x7d' then [p, p] else [p]

/- Literal text in a template. -/
def doubleBraces (t : RawText) : RawText :=
  t.flatMap templatePoint

/- A slot of a template. -/
def emptySlot : RawText :=
  ['\x7b', '\x7d']

/- A template and the number of its slots. -/
structure Template where
  text : RawText
  slots : Nat
deriving Repr

/-
  The template of pieces with at most `limit` slots; the slots of
  the path behind them stay as they are.
-/
def Template.ofPieces
    (limit : Nat) : List Path.Piece → Template
  | [] => ⟨[], 0⟩
  | .text t :: ps =>
      let others := ofPieces limit ps
      ⟨doubleBraces t ++ others.text, others.slots⟩
  | .slot t :: ps =>
      match limit with
      | 0 =>
          let others := ofPieces 0 ps
          ⟨doubleBraces t ++ others.text, others.slots⟩
      | k + 1 =>
          let others := ofPieces k ps
          ⟨emptySlot ++ others.text, others.slots + 1⟩

/- The template of a path for a number of arguments. -/
def Template.ofPath (path : RawText) (limit : Nat) : Template :=
  ofPieces limit (Path.pieces path)

/- The expression that builds a path from arguments. -/
def pathExpression (path : RawText) (args : List String) : String :=
  let template := Template.ofPath path args.length
  if template.slots = 0 then rawLiteral path
  else
    rawLiteral template.text ++ ".format(" ++
      commaList (args.take template.slots) ++ ")"

end Emit

end TypedClient
