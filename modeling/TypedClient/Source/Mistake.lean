/-
  This file defines why source is refused: it has a mistake,
  which was noticed at some line, or a character that no source
  may hold.

  Key definitions include:
    * `Source.Mistake`
    * `Source.Mistake.text`
    * `Source.Refusal`
-/

namespace TypedClient

namespace Source

/- A mistake and the line at which it was noticed. -/
structure Mistake where
  message : String
  line : Nat
deriving DecidableEq, Repr

/- The text of a mistake. -/
def Mistake.text (m : Mistake) : String :=
  "SyntaxError: " ++ m.message ++
    " (line " ++ toString m.line ++ ")"

/- Why source is refused. -/
inductive Refusal where
  | mistake (m : Mistake)
  | nullCharacter
deriving DecidableEq, Repr

end Source

end TypedClient
