import Mathlib.Data.List.Basic
import TypedClient.Text.Encoding

/-
  This file follows the reader of UTF-8 byte by byte: which bytes
  may come first in a character, which may come behind them, and
  what they add to its number.

  Key definitions include:
    * `Text.readFrom?`

  Key theorems include:
    * `Text.readFrom?_inside_last`
    * `Text.readFrom?_lead_three`
    * `Text.readFrom?_lead_four`
-/

namespace TypedClient

namespace Text

------------------------------------------------------------
-- Characters
------------------------------------------------------------

/- The character of an item that is read. -/
def itemChar? (item : Utf8Item) : Option Char :=
  item.bind CodePoint.toChar?

theorem toNat_ofNatAux
    {n : Nat}
    (h : n.isValidChar) : (Char.ofNatAux n h).toNat = n :=
  rfl

/- The character of a number. -/
theorem itemChar?_ofNat?_iff
    {n : Nat}
    {c : Char} :
    itemChar? (CodePoint.ofNat? n) = some c ↔ c.toNat = n := by
  unfold itemChar? CodePoint.ofNat?
  constructor
  · intro h
    by_cases hValid : n.isValidChar
    · rw [dif_pos hValid] at h
      rw [← Option.some.inj h]
      exact toNat_ofNatAux hValid
    · rw [dif_neg hValid] at h
      split at h
      · split at h
        · cases h
        · cases h
      · cases h
  · rintro rfl
    have hValid : c.toNat.isValidChar := c.valid
    rw [dif_pos hValid]
    have hSame : Char.ofNatAux c.toNat hValid = c :=
      Char.toNat_inj.1 (toNat_ofNatAux hValid)
    rw [hSame]
    rfl

------------------------------------------------------------
-- Reading from a state on
------------------------------------------------------------

/- The text of well-formed bytes from a state on. -/
def readFrom?
    (state : Utf8State)
    (bytes : Bytes) : Option (List Char) :=
  (utf8From false [] state bytes).mapM itemChar?

/- What was read before stands in front. -/
theorem utf8From_eq_append
    (halves : Bool)
    (items : List Utf8Item)
    (state : Utf8State)
    (bytes : Bytes) :
    utf8From halves items state bytes =
      items.reverse ++ utf8From halves [] state bytes := by
  induction bytes generalizing items state with
  | nil =>
      cases state with
      | between => simp [utf8From]
      | inside owed low high bits => simp [utf8From]
  | cons b bs ih =>
      rw [utf8From, utf8From, ih, ih (_ ++ [])]
      simp

/- Reading goes on behind the next byte. -/
theorem readFrom?_cons
    (state : Utf8State)
    (b : UInt8)
    (bs : Bytes) :
    readFrom? state (b :: bs) =
      ((utf8Step false state b.toNat).1.mapM itemChar?).bind
        fun cs =>
          (readFrom? (utf8Step false state b.toNat).2 bs).map
            (cs ++ ·) := by
  unfold readFrom?
  rw [utf8From, utf8From_eq_append, List.append_nil,
    List.reverse_reverse, List.mapM_append]
  cases List.mapM itemChar? (utf8Step false state b.toNat).1 with
  | none => rfl
  | some cs =>
      cases List.mapM itemChar?
        (utf8From false [] (utf8Step false state b.toNat).2 bs)
      with
      | none => rfl
      | some ds => rfl

variable {owed low high bits : Nat}
variable {b : UInt8}
variable {bs : Bytes}
variable {cs : List Char}

theorem readFrom?_inside_of_not
    (h : ¬ (low ≤ b.toNat ∧ b.toNat ≤ high)) :
    readFrom? (.inside owed low high bits) (b :: bs) = none := by
  rw [readFrom?_cons, utf8Step, if_neg h]
  rfl

/- The last byte of a character completes it. -/
theorem readFrom?_inside_last
    (h : low ≤ b.toNat ∧ b.toNat ≤ high) :
    readFrom? (.inside 1 low high bits) (b :: bs) =
      (itemChar?
        (CodePoint.ofNat? (bits * 64 + (b.toNat - 0x80)))).bind
          fun c => (readFrom? .between bs).map (c :: ·) := by
  rw [readFrom?_cons, utf8Step, if_pos h]
  simp only [if_true, List.mapM_cons, List.mapM_nil]
  cases itemChar?
    (CodePoint.ofNat? (bits * 64 + (b.toNat - 0x80))) with
  | none => rfl
  | some c => rfl

theorem readFrom?_of_step
    {state next : Utf8State}
    (h : utf8Step false state b.toNat = ([], next)) :
    readFrom? state (b :: bs) = readFrom? next bs := by
  rw [readFrom?_cons, h]
  cases readFrom? next bs with
  | none => rfl
  | some cs => rfl

/- Another byte adds its bits. -/
theorem readFrom?_inside_more
    (h : low ≤ b.toNat ∧ b.toNat ≤ high) :
    readFrom? (.inside (owed + 2) low high bits) (b :: bs) =
      readFrom?
        (.inside (owed + 1) 0x80 0xBF
          (bits * 64 + (b.toNat - 0x80))) bs := by
  have hOwed : owed + 2 ≠ 1 := by omega
  apply readFrom?_of_step
  rw [utf8Step, if_pos h]
  simp only [if_neg hOwed]
  rfl

/- A character of one byte is that byte. -/
theorem readFrom?_ascii
    (h : b.toNat < 0x80) :
    readFrom? .between (b :: bs) =
      (itemChar? (CodePoint.ofNat? b.toNat)).bind
        fun c => (readFrom? .between bs).map (c :: ·) := by
  rw [readFrom?_cons, utf8Step, utf8First, if_pos h]
  simp only [List.mapM_cons, List.mapM_nil]
  cases itemChar? (CodePoint.ofNat? b.toNat) with
  | none => rfl
  | some c => rfl

theorem readFrom?_lead_two
    (hLow : 0xC2 ≤ b.toNat)
    (hHigh : b.toNat < 0xE0) :
    readFrom? .between (b :: bs) =
      readFrom? (.inside 1 0x80 0xBF (b.toNat - 0xC0)) bs := by
  apply readFrom?_of_step
  rw [utf8Step, utf8First, if_neg (by omega), if_neg (by omega),
    if_pos hHigh]

/-
  The first of three bytes.  Its next byte is limited so that the
  character is not written too long and is no surrogate.
-/
theorem readFrom?_lead_three
    (bs : Bytes)
    (hLow : 0xE0 ≤ b.toNat)
    (hHigh : b.toNat < 0xF0) :
    ∃ low high,
      (readFrom? .between (b :: bs) =
        readFrom? (.inside 2 low high (b.toNat - 0xE0)) bs) ∧
      ∀ n, low ≤ n ∧ n ≤ high ↔
        (0x80 ≤ n ∧ n ≤ 0xBF) ∧ (b.toNat = 0xE0 → 0xA0 ≤ n) ∧
          (b.toNat = 0xED → n ≤ 0x9F) := by
  by_cases hFirst : b.toNat = 0xE0
  · refine ⟨0xA0, 0xBF, ?_, by omega⟩
    apply readFrom?_of_step
    rw [utf8Step, utf8First, if_neg (by omega), if_neg (by omega),
      if_neg (by omega), if_pos hFirst, hFirst]
  · by_cases hHalves : b.toNat = 0xED
    · refine ⟨0x80, 0x9F, ?_, by omega⟩
      apply readFrom?_of_step
      rw [utf8Step, utf8First, if_neg (by omega),
        if_neg (by omega), if_neg (by omega), if_neg hFirst,
        if_pos hHalves, hHalves]
      rfl
    · refine ⟨0x80, 0xBF, ?_, by omega⟩
      apply readFrom?_of_step
      rw [utf8Step, utf8First, if_neg (by omega),
        if_neg (by omega), if_neg (by omega), if_neg hFirst,
        if_neg hHalves, if_pos hHigh]

/-
  The first of four bytes.  Its next byte is limited so that the
  character is not written too long and is one of Unicode.
-/
theorem readFrom?_lead_four
    (bs : Bytes)
    (hLow : 0xF0 ≤ b.toNat)
    (hHigh : b.toNat < 0xF5) :
    ∃ low high,
      (readFrom? .between (b :: bs) =
        readFrom? (.inside 3 low high (b.toNat - 0xF0)) bs) ∧
      ∀ n, low ≤ n ∧ n ≤ high ↔
        (0x80 ≤ n ∧ n ≤ 0xBF) ∧ (b.toNat = 0xF0 → 0x90 ≤ n) ∧
          (b.toNat = 0xF4 → n ≤ 0x8F) := by
  have hNot : ¬ b.toNat < 0xE0 ∧ b.toNat ≠ 0xE0 ∧
      b.toNat ≠ 0xED ∧ ¬ b.toNat < 0xF0 := by omega
  by_cases hFirst : b.toNat = 0xF0
  · refine ⟨0x90, 0xBF, ?_, by omega⟩
    apply readFrom?_of_step
    rw [utf8Step, utf8First, if_neg (by omega), if_neg (by omega),
      if_neg hNot.1, if_neg hNot.2.1, if_neg hNot.2.2.1,
      if_neg hNot.2.2.2, if_pos hFirst, hFirst]
  · by_cases hLast : b.toNat = 0xF4
    · refine ⟨0x80, 0x8F, ?_, by omega⟩
      apply readFrom?_of_step
      rw [utf8Step, utf8First, if_neg (by omega),
        if_neg (by omega), if_neg hNot.1, if_neg hNot.2.1,
        if_neg hNot.2.2.1, if_neg hNot.2.2.2, if_neg hFirst,
        if_neg (by omega), if_pos hLast, hLast]
    · refine ⟨0x80, 0xBF, ?_, by omega⟩
      apply readFrom?_of_step
      rw [utf8Step, utf8First, if_neg (by omega),
        if_neg (by omega), if_neg hNot.1, if_neg hNot.2.1,
        if_neg hNot.2.2.1, if_neg hNot.2.2.2, if_neg hFirst,
        if_pos (by omega)]

theorem readFrom?_no_lead
    (h : (0x80 ≤ b.toNat ∧ b.toNat < 0xC2) ∨ 0xF5 ≤ b.toNat) :
    readFrom? .between (b :: bs) = none := by
  have hFirst : utf8First false b.toNat = ([none], .between) := by
    unfold utf8First
    grind
  rw [readFrom?_cons, utf8Step, hFirst]
  rfl

end Text

end TypedClient
