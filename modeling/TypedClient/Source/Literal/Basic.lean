import TypedClient.Source.Literal.Template

/-
  This file checks string literals that stand in a row, as they
  are joined.

  Key definitions include:
    * `Source.Quoted.isBytes`
    * `Source.Quoted.flaw?`
    * `Source.Quoted.rowFlaw?`
-/

namespace TypedClient

namespace Source

namespace Quoted

/- Whether a literal is one of bytes. -/
def isBytes (q : Quoted) : Bool :=
  'b' ∈ q.lead

/- Whether a literal has no escapes. -/
def isRaw (q : Quoted) : Bool :=
  'r' ∈ q.lead

/- Whether a literal holds expressions. -/
def isTemplate (q : Quoted) : Bool :=
  'f' ∈ q.lead

/- What is wrong with a literal that starts at a line. -/
def flaw?
    (check : Template.Check)
    (line : Nat)
    (q : Quoted) : Option Flaw :=
  if q.isTemplate then
    Template.check check q.isRaw line q.body
  else if q.isBytes then
    if q.body.any fun c => 127 < c.toNat then
      some (.there
        ⟨"bytes can only contain ASCII literal characters", line⟩)
    else if q.isRaw then none
    else (Escape.bytesMistake? q.body).map .here
  else if q.isRaw then none
  else (Escape.textMistake? q.body).map .here

/-
  What is wrong with literals in a row.  A template is looked into
  only when its kind is known to fit.
-/
def rowFlaw?
    (check : Template.Check)
    (first : Option Bool) : List (Nat × Quoted) → Option Flaw
  | [] => none
  | (line, q) :: qs =>
      let isMixed := (first.getD q.isBytes) ≠ q.isBytes
      let mixed : Option Flaw :=
        if isMixed then
          some (.here "cannot mix bytes and nonbytes literals")
        else none
      let own := q.flaw? check line
      let found := if q.isTemplate then mixed.or own
        else own.or mixed
      found.or
        (rowFlaw? check (some (first.getD q.isBytes)) qs)

end Quoted

end Source

end TypedClient
