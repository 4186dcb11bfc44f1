import TypedClient.Yaml.Scalar

/-
  This file defines readers that only move forward in a text, and
  that break off for another reason than the format only where
  the text is odd: it holds a numeric escape beyond Unicode, or a
  very long run of digits.

  Key definitions include:
    * `Yaml.IsOdd`
    * `Yaml.Cursor.Ahead`
    * `Yaml.Moves`

  Key theorems include:
    * `Yaml.Moves.bind`
-/

namespace TypedClient

namespace Yaml

------------------------------------------------------------
-- Odd texts
------------------------------------------------------------

/-
  Whether a text holds what the format allows and no document can
  have: an escape for a number beyond Unicode, or more digits in a
  row than a number may have.
-/
inductive IsOdd (text : List Char) : Prop
  | escape (front back digits : List Char) (letter : Char) (n : Nat)
      (h : text = front ++ '\\' :: letter :: (digits ++ back))
      (hWidth :
        Scalar.escapeWidth? letter = some digits.length)
      (hNumber : Scalar.hexNumber? digits = some n)
      (hBeyond : 0x10FFFF < n)
  | number (front back digits : List Char)
      (h : text = front ++ (digits ++ back))
      (hDigits : ∀ d ∈ digits, d.isDigit)
      (hLong : 4300 < digits.length)

/- A text with an odd end is odd. -/
theorem IsOdd.of_isSuffix
    {s t : List Char}
    (hEnd : s <:+ t)
    (h : IsOdd s) : IsOdd t := by
  rcases hEnd with ⟨more, rfl⟩
  cases h with
  | escape front back digits letter n h hWidth hNumber hBeyond =>
      refine .escape (more ++ front) back digits letter n ?_
        hWidth hNumber hBeyond
      rw [h, List.append_assoc]
  | number front back digits h hDigits hLong =>
      refine .number (more ++ front) back digits ?_ hDigits hLong
      rw [h, List.append_assoc]

------------------------------------------------------------
-- Cursors
------------------------------------------------------------

namespace Cursor

/- Whether a cursor is at a later place of the same text. -/
def Ahead (c d : Cursor) : Prop :=
  d.rest <:+ c.rest

variable {c d e : Cursor}

theorem Ahead.refl (c : Cursor) : c.Ahead c :=
  List.suffix_refl c.rest

theorem Ahead.trans
    (hFirst : c.Ahead d)
    (hNext : d.Ahead e) : c.Ahead e :=
  List.IsSuffix.trans hNext hFirst

/- Behind the next character is the rest of the text. -/
theorem rest_next (c : Cursor) : c.next.rest = c.rest.tail := by
  unfold next
  split
  next h => rw [h]; rfl
  next ch r h =>
    rw [h]
    split
    · rfl
    · split
      · rfl
      · rfl

theorem rest_advance (c : Cursor) (n : Nat) :
    (c.advance n).rest = c.rest.drop n := by
  induction n generalizing c with
  | zero => rfl
  | succ n ih =>
      rw [advance, ih, rest_next, List.drop_tail]

/- The text at a cursor starts with its next character. -/
theorem rest_eq_cons
    {c : Cursor}
    (h : c.atEnd = false) : c.rest = c.head :: c.next.rest := by
  rw [rest_next]
  unfold atEnd at h
  unfold head
  cases hRest : c.rest with
  | nil =>
      rw [hRest] at h
      cases h
  | cons ch r => rfl

theorem ahead_next (c : Cursor) : c.Ahead c.next := by
  rw [Ahead, rest_next]
  exact List.tail_suffix c.rest

theorem ahead_advance (c : Cursor) (n : Nat) :
    c.Ahead (c.advance n) := by
  rw [Ahead, rest_advance]
  exact List.drop_suffix n c.rest

theorem ahead_span (c : Cursor) (p : Char → Bool) :
    c.Ahead (c.span p).2 :=
  ahead_advance c _

theorem ahead_skip (c : Cursor) (p : Char → Bool) :
    c.Ahead (c.skip p) :=
  ahead_span c p

/- A line break is passed. -/
theorem ahead_lineBreak (c : Cursor) :
    c.Ahead c.lineBreak.2 := by
  unfold lineBreak
  split
  · exact ahead_advance c 2
  · split
    · exact ahead_next c
    · split
      · exact ahead_next c
      · exact Ahead.refl c

theorem ahead_skipComment (c : Cursor) :
    c.Ahead c.skipComment := by
  unfold skipComment
  split
  · exact ahead_skip c _
  · exact Ahead.refl c

end Cursor

------------------------------------------------------------
-- Moves
------------------------------------------------------------

/-
  What a reader at a cursor does: it moves forward, or the text
  breaks the format, or the text is odd from here on.
-/
inductive Moves
    {α : Type}
    (place : α → Cursor)
    (c : Cursor)
    (x : Except Document.Fault α) : Prop
  | done (a : α)
      (h : x = .ok a)
      (hAhead : c.Ahead (place a))
  | malformed (h : x = .error .malformed)
  | odd (e : Document.Fault)
      (h : x = .error e)
      (hOdd : IsOdd c.rest)

section

variable {α β : Type}
variable {place : α → Cursor}
variable {other : β → Cursor}
variable {c d : Cursor}
variable {x : Except Document.Fault α}

theorem Moves.of_ahead
    (hAhead : c.Ahead d)
    (h : Moves place d x) : Moves place c x := by
  cases h with
  | done a h hNext => exact .done a h (hAhead.trans hNext)
  | malformed h => exact .malformed h
  | odd e h hOdd => exact .odd e h (hOdd.of_isSuffix hAhead)

/- Readers in a row move forward if each of them does. -/
theorem Moves.bind
    {f : α → Except Document.Fault β}
    (hFirst : Moves place c x)
    (hNext : ∀ a, Moves other (place a) (f a)) :
    Moves other c (x >>= f) := by
  cases hFirst with
  | done a h hAhead =>
      subst h
      exact (hNext a).of_ahead hAhead
  | malformed h =>
      subst h
      exact .malformed rfl
  | odd e h hOdd =>
      subst h
      exact .odd e rfl hOdd

theorem Moves.map
    {f : α → β}
    (h : Moves place c x)
    (hPlace : ∀ a, (place a).Ahead (other (f a))) :
    Moves other c (x >>= fun a => .ok (f a)) :=
  h.bind fun a => .done (f a) rfl (hPlace a)

end

end Yaml

end TypedClient
