import Mathlib.Data.List.Chain
import TypedClient.Proofs.Text.Raw
import TypedClient.Text.Encoding

/-
  This file tells the texts in which no two halves of a surrogate
  pair meet.  Such halves are one character to a reader that joins
  them, so only these texts survive such a reader.

  Key definitions include:
    * `CodePoint.IsPair`
    * `RawText.IsWhole`

  Key theorems include:
    * `RawText.isWhole_split`
    * `RawText.isWhole_ofChars`
-/

namespace TypedClient

/- Whether two code points are the halves of a pair. -/
def CodePoint.IsPair (p q : CodePoint) : Prop :=
  Text.isHighHalf p.toNat = true ∧ Text.isLowHalf q.toNat = true

namespace CodePoint

/- A character is no half of a pair. -/
theorem isHalf_scalar (c : Char) :
    Text.isHighHalf (scalar c).toNat = false ∧
      Text.isLowHalf (scalar c).toNat = false := by
  have hValid : c.toNat < 0xD800 ∨
      0xDFFF < c.toNat ∧ c.toNat < 0x110000 :=
    c.valid
  change Text.isHighHalf c.toNat = false ∧
    Text.isLowHalf c.toNat = false
  simp only [Text.isHighHalf, Text.isLowHalf,
    Bool.and_eq_false_iff, decide_eq_false_iff_not]
  omega

theorem not_isPair_scalar_left
    (c : Char)
    (q : CodePoint) : ¬ IsPair (scalar c) q := by
  rintro ⟨hHigh, _⟩
  rw [(isHalf_scalar c).1] at hHigh
  cases hHigh

theorem not_isPair_scalar_right
    (p : CodePoint)
    (c : Char) : ¬ IsPair p (scalar c) := by
  rintro ⟨_, hLow⟩
  rw [(isHalf_scalar c).2] at hLow
  cases hLow

end CodePoint

namespace RawText

/- Text in which no two code points in a row are such halves. -/
def IsWhole (t : RawText) : Prop :=
  t.IsChain fun p q => ¬ CodePoint.IsPair p q

theorem isWhole_nil : IsWhole [] :=
  List.isChain_nil

/- A character keeps what is in front of it from what follows. -/
theorem isWhole_split
    {s t : RawText}
    {c : Char} :
    IsWhole (s ++ .scalar c :: t) ↔ IsWhole s ∧ IsWhole t := by
  unfold IsWhole
  rw [List.isChain_split]
  constructor
  · rintro ⟨hFront, hBehind⟩
    exact ⟨hFront.left_of_append, hBehind.tail⟩
  · rintro ⟨hFront, hBehind⟩
    constructor
    · refine hFront.append (List.isChain_singleton _) ?_
      intro p _ q hq
      cases hq
      exact CodePoint.not_isPair_scalar_right p c
    · cases t with
      | nil => exact List.isChain_singleton _
      | cons q qs =>
          exact List.isChain_cons_cons.2
            ⟨CodePoint.not_isPair_scalar_left c q, hBehind⟩

/- Characters are whole. -/
theorem isWhole_ofChars (cs : List Char) : IsWhole (ofChars cs) := by
  induction cs with
  | nil => exact isWhole_nil
  | cons c cs ih =>
      exact (isWhole_split (s := [])).2 ⟨isWhole_nil, ih⟩

end RawText

end TypedClient
