import Mathlib.Data.List.Lex
import TypedClient.Text.CodePoint

/-
  This file ties the order of texts to the order of the lists of
  their code points, which is a linear one.

  Key definitions include:
    * `RawText.codes`
    * `RawText.Precedes`

  Key theorems include:
    * `CodePoint.toNat_injective`
    * `RawText.ble_iff`
    * `RawText.precedes_of_ble`
-/

namespace TypedClient

------------------------------------------------------------
-- Code points
------------------------------------------------------------

theorem CodePoint.scalar_ne_surrogate
    (c : Char)
    (k : Fin 0x800) :
    (scalar c).toNat ≠ (surrogate k).toNat := by
  have hValid : c.toNat < 0xD800 ∨
      0xDFFF < c.toNat ∧ c.toNat < 0x110000 := c.valid
  have hBound := k.isLt
  simp only [toNat]
  omega

/- Two code points of one number are the same. -/
theorem CodePoint.toNat_injective
    {p q : CodePoint}
    (h : p.toNat = q.toNat) : p = q := by
  cases p with
  | scalar c =>
      cases q with
      | scalar d => exact congrArg scalar (Char.toNat_inj.1 h)
      | surrogate k => exact (scalar_ne_surrogate c k h).elim
  | surrogate j =>
      cases q with
      | scalar d => exact (scalar_ne_surrogate d j h.symm).elim
      | surrogate k =>
          simp only [toNat] at h
          have hVal : j.val = k.val := by omega
          exact congrArg surrogate (Fin.ext hVal)

namespace RawText

------------------------------------------------------------
-- Texts
------------------------------------------------------------

/- The numbers of the code points of a text. -/
def codes (t : RawText) : List Nat :=
  t.map CodePoint.toNat

/- The strict lexicographic order by code point. -/
def Precedes (s t : RawText) : Prop :=
  List.Lex (· < ·) s.codes t.codes

theorem codes_injective
    {s t : RawText}
    (h : s.codes = t.codes) : s = t :=
  List.map_injective_iff.2
    (fun _ _ => CodePoint.toNat_injective) h

/- Texts are ordered as the lists of their code points are. -/
theorem ble_iff
    {s t : RawText} : ble s t = true ↔ s.codes ≤ t.codes := by
  induction s generalizing t with
  | nil =>
      have hLe : codes [] ≤ codes t := not_lt.1 List.not_lex_nil
      exact iff_of_true rfl hLe
  | cons p ps ih =>
      cases t with
      | nil =>
          have hNot : ¬ codes (p :: ps) ≤ codes [] :=
            not_le.2 List.Lex.nil
          exact iff_of_false Bool.false_ne_true hNot
      | cons q qs =>
          have hPoints : ble (p :: ps) (q :: qs) = true ↔
              p.toNat < q.toNat ∨
                p.toNat = q.toNat ∧ codes ps ≤ codes qs := by
            rw [ble, Bool.or_eq_true, Bool.and_eq_true,
              decide_eq_true_iff, beq_iff_eq, ih]
          have hLess : codes (p :: ps) < codes (q :: qs) ↔
              p.toNat < q.toNat ∨
                p.toNat = q.toNat ∧ codes ps < codes qs :=
            List.cons_lex_cons_iff
          have hSame : codes (p :: ps) = codes (q :: qs) ↔
              p.toNat = q.toNat ∧ codes ps = codes qs :=
            List.cons_eq_cons
          rw [hPoints, le_iff_lt_or_eq, and_or_left, ← or_assoc,
            ← hLess, ← hSame, ← le_iff_lt_or_eq]

theorem ble_trans
    (s t u : RawText)
    (hst : ble s t = true)
    (htu : ble t u = true) : ble s u = true := by
  rw [ble_iff] at hst htu ⊢
  exact hst.trans htu

theorem ble_total (s t : RawText) :
    (ble s t || ble t s) = true := by
  rw [Bool.or_eq_true, ble_iff, ble_iff]
  exact le_total _ _

/- Of two distinct texts in order, the first one precedes. -/
theorem precedes_of_ble
    {s t : RawText}
    (h : ble s t = true)
    (hNe : s ≠ t) : Precedes s t :=
  lt_of_le_of_ne (ble_iff.1 h) fun hEq =>
    hNe (codes_injective hEq)

end RawText

end TypedClient
