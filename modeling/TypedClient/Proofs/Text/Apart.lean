import Mathlib.Data.List.Basic
import TypedClient.Text.Literal

/-
  This file takes text apart into UTF-16 units, as literals write
  it: a character above U+FFFF becomes two surrogates.  Text that
  has no such character stays as it is.

  Key definitions include:
    * `CodePoint.units`
    * `RawText.apart`
    * `RawText.IsBasic`

  Key theorems include:
    * `CodePoint.ofNat?_toNat`
    * `RawText.apart_eq_self_iff`
-/

namespace TypedClient

------------------------------------------------------------
-- Code points
------------------------------------------------------------

namespace CodePoint

/- A code point is found by its number. -/
theorem ofNat?_toNat (p : CodePoint) : ofNat? p.toNat = some p := by
  cases p with
  | scalar c =>
      have hValid : c.toNat.isValidChar := c.valid
      rw [toNat, ofNat?, dif_pos hValid]
      rfl
  | surrogate k =>
      have hInvalid : ¬ (0xD800 + k.val).isValidChar := by
        unfold Nat.isValidChar
        omega
      have hOffset : 0xD800 + k.val - 0xD800 = k.val :=
        Nat.add_sub_cancel_left _ _
      simp [toNat, ofNat?, hInvalid, hOffset, k.isLt]

/- The UTF-16 units of a code point. -/
def units : CodePoint → List Nat
  | scalar c => Text.units c
  | surrogate k => [(surrogate k).toNat]

/- The code points of the UTF-16 units of a code point. -/
def apart (p : CodePoint) : RawText :=
  p.units.filterMap ofNat?

/- Whether a code point is below U+10000. -/
def IsBasic (p : CodePoint) : Prop :=
  p.toNat < 0x10000

instance (p : CodePoint) : Decidable p.IsBasic :=
  inferInstanceAs (Decidable (p.toNat < 0x10000))

theorem isBasic_surrogate
    (k : Fin 0x800) : (surrogate k).IsBasic := by
  have hBound := k.isLt
  simp only [IsBasic, toNat]
  omega

theorem units_of_isBasic
    {p : CodePoint}
    (h : p.IsBasic) : p.units = [p.toNat] := by
  cases p with
  | scalar c => exact if_pos h
  | surrogate k => rfl

/- A character above U+FFFF has two surrogates as its units. -/
theorem exists_units_of_not_isBasic
    {p : CodePoint}
    (h : ¬ p.IsBasic) :
    ∃ j k : Fin 0x800,
      p.units = [(surrogate j).toNat, (surrogate k).toNat] := by
  cases p with
  | surrogate k => exact (h (isBasic_surrogate k)).elim
  | scalar c =>
      have hValid : c.toNat < 0xD800 ∨
          0xDFFF < c.toNat ∧ c.toNat < 0x110000 :=
        c.valid
      have hUnits : units (scalar c) =
          [0xD800 + (c.toNat - 0x10000) / 0x400,
            0xDC00 + (c.toNat - 0x10000) % 0x400] :=
        if_neg h
      refine ⟨⟨(c.toNat - 0x10000) / 0x400, ?_⟩,
        ⟨0x400 + (c.toNat - 0x10000) % 0x400, ?_⟩, ?_⟩
      · omega
      · omega
      · rw [hUnits, toNat, toNat, ← Nat.add_assoc]

/- The units of a code point are code points below U+10000. -/
theorem exists_of_mem_units
    {p : CodePoint}
    {u : Nat}
    (h : u ∈ p.units) :
    ∃ q : CodePoint, q.IsBasic ∧ q.toNat = u := by
  by_cases hBasic : p.IsBasic
  · rw [units_of_isBasic hBasic, List.mem_singleton] at h
    exact ⟨p, hBasic, h.symm⟩
  · rcases exists_units_of_not_isBasic hBasic with ⟨j, k, hUnits⟩
    rw [hUnits] at h
    rcases List.mem_pair.1 h with rfl | rfl
    · exact ⟨_, isBasic_surrogate j, rfl⟩
    · exact ⟨_, isBasic_surrogate k, rfl⟩

theorem apart_of_isBasic
    {p : CodePoint}
    (h : p.IsBasic) : p.apart = [p] := by
  rw [apart, units_of_isBasic h, List.filterMap_cons_some
    (ofNat?_toNat p), List.filterMap_nil]

theorem apart_of_not_isBasic
    {p : CodePoint}
    (h : ¬ p.IsBasic) :
    ∃ j k : Fin 0x800, p.apart = [surrogate j, surrogate k] := by
  rcases exists_units_of_not_isBasic h with ⟨j, k, hUnits⟩
  refine ⟨j, k, ?_⟩
  rw [apart, hUnits, List.filterMap_cons_some (ofNat?_toNat _),
    List.filterMap_cons_some (ofNat?_toNat _), List.filterMap_nil]

end CodePoint

------------------------------------------------------------
-- Text
------------------------------------------------------------

namespace RawText

/- Text with every character above U+FFFF taken apart. -/
def apart (t : RawText) : RawText :=
  t.flatMap CodePoint.apart

/- Text without characters above U+FFFF. -/
def IsBasic (t : RawText) : Prop :=
  ∀ p ∈ t, CodePoint.IsBasic p

instance (t : RawText) : Decidable t.IsBasic :=
  inferInstanceAs (Decidable (∀ p ∈ t, p.IsBasic))

/- Text stays as it is if nothing in it is above U+FFFF. -/
theorem apart_eq_self_iff (t : RawText) :
    apart t = t ↔ IsBasic t := by
  induction t with
  | nil => simp [apart, IsBasic]
  | cons p ps ih =>
      have hBasicCons : IsBasic (p :: ps) ↔
          p.IsBasic ∧ IsBasic ps :=
        List.forall_mem_cons
      have hApartCons : apart (p :: ps) = p.apart ++ apart ps :=
        List.flatMap_cons
      rw [hBasicCons, hApartCons]
      by_cases hBasic : p.IsBasic
      · rw [CodePoint.apart_of_isBasic hBasic]
        simp [hBasic, ih]
      · rcases CodePoint.apart_of_not_isBasic hBasic with
          ⟨j, k, hApart⟩
        rw [hApart]
        constructor
        · intro hEq
          -- a text that starts with a surrogate is not the given
          refine (hBasic ?_).elim
          rw [← (List.cons.inj hEq).1]
          exact CodePoint.isBasic_surrogate j
        · rintro ⟨hFirst, _⟩
          exact (hBasic hFirst).elim

end RawText

end TypedClient
