import Mathlib.Tactic.SplitIfs
import TypedClient.Text.Literal

/-
  This file says which text can stand between double quotes and
  shows that what stands in a literal is such text, and visible
  ASCII throughout, whatever the literal is of.

  Key definitions include:
    * `Text.IsQuotable`
    * `Text.IsEnclosed`

  Key theorems include:
    * `Text.IsQuotable.append`
    * `Text.isEnclosed_literal`
-/

namespace TypedClient

namespace Text

------------------------------------------------------------
-- Quotes
------------------------------------------------------------

/-
  Text that can stand between double quotes.  A backslash belongs
  to the code point behind it; no quote stands without one, and no
  backslash stands at the end.
-/
inductive IsQuotable : RawText → Prop where
  | nil : IsQuotable []
  | escape (p : CodePoint) {t : RawText} :
      IsQuotable t → IsQuotable (.scalar '\\' :: p :: t)
  | plain {p : CodePoint} {t : RawText} :
      p ≠ .scalar '\\' → p ≠ .scalar '"' → IsQuotable t →
        IsQuotable (p :: t)

/- Two texts between quotes can stand there together. -/
theorem IsQuotable.append
    {s t : RawText}
    (h : IsQuotable s)
    (hBehind : IsQuotable t) : IsQuotable (s ++ t) := by
  induction h with
  | nil => exact hBehind
  | escape p _ ih => exact .escape p ih
  | plain hSlash hQuote _ ih => exact .plain hSlash hQuote ih

------------------------------------------------------------
-- Literals
------------------------------------------------------------

/- A visible character of ASCII, or a blank. -/
def IsPrintable (c : Char) : Prop :=
  32 ≤ c.toNat ∧ c.toNat < 127

instance (c : Char) : Decidable (IsPrintable c) :=
  inferInstanceAs (Decidable (32 ≤ c.toNat ∧ c.toNat < 127))

/- Text that can stand in a literal as it is. -/
structure IsEnclosed (cs : List Char) : Prop where
  printable : ∀ c ∈ cs, IsPrintable c
  quotable : IsQuotable (.ofChars cs)

namespace IsEnclosed

theorem nil : IsEnclosed [] where
  printable c hc := by cases hc
  quotable := .nil

theorem plain
    {c : Char}
    (h : IsPrintable c)
    (hSlash : c ≠ '\\')
    (hQuote : c ≠ '"') : IsEnclosed [c] where
  printable _ hd := List.mem_singleton.1 hd ▸ h
  quotable := .plain
    (fun hEq => hSlash (CodePoint.scalar.inj hEq))
    (fun hEq => hQuote (CodePoint.scalar.inj hEq)) .nil

/- A printable character can stand behind a backslash. -/
theorem escape
    {c : Char}
    (h : IsPrintable c) : IsEnclosed ['\\', c] where
  printable d hd := by
    rcases List.mem_cons.1 hd with hSlash | hLast
    · rw [hSlash]
      decide
    · rw [List.mem_singleton.1 hLast]
      exact h
  quotable := .escape c .nil

/- Two pieces of a literal make one. -/
theorem append
    {cs ds : List Char}
    (h : IsEnclosed cs)
    (hBehind : IsEnclosed ds) : IsEnclosed (cs ++ ds) where
  printable c hc := by
    rcases List.mem_append.1 hc with hc | hc
    · exact h.printable c hc
    · exact hBehind.printable c hc
  quotable := by
    rw [RawText.ofChars, List.map_append]
    exact h.quotable.append hBehind.quotable

/- Pieces of a literal make one piece. -/
theorem flatMap
    {α : Type}
    {f : α → List Char}
    (h : ∀ x, IsEnclosed (f x))
    (xs : List α) : IsEnclosed (xs.flatMap f) := by
  induction xs with
  | nil => exact nil
  | cons x xs ih =>
      rw [List.flatMap_cons]
      exact (h x).append ih

end IsEnclosed

theorem isEnclosed_hexDigit
    {n : Nat}
    (h : n < 16) : IsEnclosed [hexDigit n] := by
  have hDigits : ∀ n < 16, IsPrintable (hexDigit n) ∧
      hexDigit n ≠ '\\' ∧ hexDigit n ≠ '"' := by
    decide
  rcases hDigits n h with ⟨hPrintable, hSlash, hQuote⟩
  exact .plain hPrintable hSlash hQuote

theorem isEnclosed_hexDigits (width n : Nat) :
    IsEnclosed (hexDigits width n) := by
  induction width generalizing n with
  | zero => exact .nil
  | succ w ih =>
      have hLast : n % 16 < 16 :=
        Nat.mod_lt n (by decide)
      exact (ih (n / 16)).append (isEnclosed_hexDigit hLast)

theorem isEnclosed_escapeUnit (u : Nat) :
    IsEnclosed (escapeUnit u) := by
  have hMark : IsEnclosed ['\\', 'u'] :=
    .escape (by decide)
  exact hMark.append (isEnclosed_hexDigits 4 u)

/- A character can stand in a literal as it is written there. -/
theorem isEnclosed_escapeChar (c : Char) :
    IsEnclosed (escapeChar c) := by
  unfold escapeChar
  split_ifs with hQuote hSlash _ _ _ _ _ hVisible
  · exact .escape (by decide)
  · exact .escape (by decide)
  · exact .escape (by decide)
  · exact .escape (by decide)
  · exact .escape (by decide)
  · exact .escape (by decide)
  · exact .escape (by decide)
  · exact .plain hVisible hSlash hQuote
  · exact .flatMap isEnclosed_escapeUnit (units c)

theorem isEnclosed_escapePoint (p : CodePoint) :
    IsEnclosed (escapePoint p) := by
  cases p with
  | scalar c => exact isEnclosed_escapeChar c
  | surrogate k => exact isEnclosed_escapeUnit _

/- What a literal is written with stays between its quotes. -/
theorem isEnclosed_literal (t : RawText) :
    IsEnclosed (t.flatMap escapePoint) :=
  .flatMap isEnclosed_escapePoint t

end Text

end TypedClient
