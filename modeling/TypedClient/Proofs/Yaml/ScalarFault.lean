import TypedClient.Proofs.Yaml.Ahead

/-
  This file shows that the readers of scalars only move forward,
  and that only a quoted scalar breaks off for another reason
  than the format, at an escape for a number beyond Unicode.

  Key theorems include:
    * `Yaml.Scalar.moves_quoted`
    * `Yaml.Scalar.moves_block`
-/

namespace TypedClient

namespace Yaml

open Cursor (Ahead ahead_next ahead_advance ahead_span
  ahead_skip ahead_lineBreak ahead_skipComment rest_next
  rest_eq_cons)

namespace Scalar

------------------------------------------------------------
-- Plain scalars
------------------------------------------------------------

/- Blanks and line breaks of a plain scalar are passed. -/
theorem ahead_plainBreaks
    (fuel : Nat)
    (breaks : List Char)
    (c : Cursor) : c.Ahead (plainBreaks fuel breaks c).2.2 := by
  induction fuel generalizing breaks c with
  | zero => exact Ahead.refl c
  | succ fuel ih =>
      rw [plainBreaks]
      dsimp only
      split
      · exact (ahead_next c).trans (ih _ _)
      · split
        · split
          · exact ahead_lineBreak c
          · exact (ahead_lineBreak c).trans (ih _ _)
        · exact Ahead.refl c

/- So is the space behind a piece. -/
theorem ahead_plainSpace (c : Cursor) :
    c.Ahead (plainSpace c).2.2 := by
  have hSpan := ahead_span c (· = ' ')
  have hBreak := hSpan.trans (ahead_lineBreak _)
  unfold plainSpace
  dsimp only
  split
  · split
    · exact hBreak
    · split
      · exact hBreak.trans (ahead_plainBreaks _ _ _)
      · exact hBreak.trans (ahead_plainBreaks _ _ _)
  · exact hSpan

/- So is the rest of a plain scalar. -/
theorem ahead_plainFrom
    (inFlow : Bool)
    (indent : Int)
    (fuel : Nat)
    (read space : List Char)
    (broken : Bool)
    (c : Cursor) :
    c.Ahead
      (plainFrom inFlow indent fuel read space broken c).2.2 := by
  induction fuel generalizing read space broken c with
  | zero => exact Ahead.refl c
  | succ fuel ih =>
      have hGap (n : Nat) :
          c.Ahead (plainSpace (c.advance n)).2.2 :=
        (ahead_advance c n).trans (ahead_plainSpace _)
      rw [plainFrom]
      generalize hPiece :
        (if c.head = '#' then [] else plainPiece inFlow c.rest) =
          piece
      dsimp only
      split
      · exact Ahead.refl c
      · split
        · exact hGap piece.length
        · exact (hGap piece.length).trans (ih _ _ _ _)

theorem ahead_plain
    (inFlow : Bool)
    (indent : Int)
    (c : Cursor) : c.Ahead (plain inFlow indent c).2.2 :=
  ahead_plainFrom inFlow (indent + 1) (c.left + 1) [] [] false c

------------------------------------------------------------
-- Quoted scalars
------------------------------------------------------------

/- A number that is no code point is beyond Unicode. -/
theorem beyond_of_ofNat?
    {n : Nat}
    (h : CodePoint.ofNat? n = none) : 0x10FFFF < n := by
  unfold CodePoint.ofNat? at h
  by_cases hValid : n.isValidChar
  · rw [dif_pos hValid] at h
    cases h
  · rw [dif_neg hValid] at h
    have hNot : ¬ (n < 0xD800 ∨ (0xDFFF < n ∧ n < 0x110000)) :=
      hValid
    split at h
    · split at h
      · cases h
      · omega
    · omega

/-
  A numeric escape breaks the format, or names a code point, or
  its number is beyond Unicode.
-/
theorem codePoint_cases (digits : List Char) (width : Nat) :
    codePoint digits width = .error .malformed ∨
      (∃ p, codePoint digits width = .ok p) ∨
      ∃ e n, codePoint digits width = .error e ∧
        width ≤ digits.length ∧ hexNumber? digits = some n ∧
        0x10FFFF < n := by
  unfold codePoint
  split
  next => exact Or.inl rfl
  next hWidth =>
    split
    next => exact Or.inl rfl
    next n hNumber =>
      split
      next p hPoint => exact Or.inr (Or.inl ⟨p, rfl⟩)
      next hNone =>
        exact Or.inr (Or.inr ⟨_, n, rfl, Nat.le_of_not_lt hWidth,
          hNumber, beyond_of_ofNat? hNone⟩)

/- Empty lines of a quoted scalar are passed. -/
theorem moves_quotedBreaks
    (fuel : Nat)
    (breaks : List Char)
    (c : Cursor) :
    Moves Prod.snd c (quotedBreaks fuel breaks c) := by
  induction fuel generalizing breaks c with
  | zero => exact .done _ rfl (Ahead.refl c)
  | succ fuel ih =>
      rw [quotedBreaks]
      dsimp only
      split
      · exact .malformed rfl
      · have hSkip := ahead_skip c isSpace
        split
        · exact (ih _ _).of_ahead
            (hSkip.trans (ahead_lineBreak _))
        · exact .done _ rfl hSkip

/- So is space inside it. -/
theorem moves_quotedSpace (c : Cursor) :
    Moves Prod.snd c (quotedSpace c) := by
  have hSpan := ahead_span c isSpace
  unfold quotedSpace
  dsimp only
  split
  · exact .malformed rfl
  · split
    · refine Moves.of_ahead (hSpan.trans (ahead_lineBreak _)) ?_
      exact (moves_quotedBreaks _ _ _).map fun _ => Ahead.refl _
    · exact .done _ rfl hSpan

/- An escape beyond Unicode makes the text odd. -/
theorem isOdd_of_escape
    {c : Cursor}
    {width n : Nat}
    (hEnd : c.atEnd = false)
    (hHead : c.head = '\\')
    (hLetter : escapeWidth? c.next.head = some width)
    (hWidth : width ≤ (c.next.next.rest.take width).length)
    (hNumber :
      hexNumber? (c.next.next.rest.take width) = some n)
    (hBeyond : 0x10FFFF < n) : IsOdd c.rest := by
  have hMore : c.next.atEnd = false := by
    cases hNext : c.next.atEnd with
    | false => rfl
    | true =>
        have hNone : c.next.rest = [] := List.isEmpty_iff.1 hNext
        have hEmpty : c.next.next.rest = [] := by
          rw [rest_next, hNone]
          rfl
        rw [hEmpty, List.take_nil] at hNumber
        have hZero : n = 0 := (Option.some.inj hNumber).symm
        omega
  have hLength : (c.next.next.rest.take width).length = width :=
    Nat.le_antisymm (List.length_take_le width _) hWidth
  refine .escape [] (c.next.next.rest.drop width)
    (c.next.next.rest.take width) c.next.head n ?_ ?_ hNumber
    hBeyond
  · rw [List.take_append_drop, ← rest_eq_cons hMore, ← hHead,
      ← rest_eq_cons hEnd]
    rfl
  · rw [hLength, hLetter]

/- The rest of a quoted scalar is passed, or the text is odd. -/
theorem moves_quotedFrom
    (double : Bool)
    (fuel : Nat)
    (read : RawText)
    (c : Cursor) :
    Moves Prod.snd c (quotedFrom double fuel read c) := by
  induction fuel generalizing read c with
  | zero => exact .malformed rfl
  | succ fuel ih =>
      rw [quotedFrom]
      generalize (if double = true then '"' else '\x27') = quote
      dsimp only
      split
      · exact .malformed rfl
      next hEnd =>
      have hNext := ahead_next c
      split
      · split
        · exact (ih _ _).of_ahead (ahead_advance c 2)
        · exact .done _ rfl hNext
      split
      · have hMore := (moves_quotedSpace c).bind fun r =>
          ih ((RawText.ofChars r.1).reverse ++ read) r.2
        cases hSpace : quotedSpace c with
        | error e => rwa [hSpace] at hMore
        | ok r => rwa [hSpace] at hMore
      split
      next hSlash =>
        split
        next => exact (ih _ _).of_ahead (hNext.trans (ahead_next _))
        next width hNone hLetter =>
          rcases codePoint_cases (c.next.next.rest.take width) width
            with hCode | ⟨p, hCode⟩ | ⟨e, n, hCode, hLength, hNumber,
              hBeyond⟩
          · rw [hCode]
            exact .malformed rfl
          · rw [hCode]
            exact (ih _ _).of_ahead
              ((hNext.trans (ahead_next _)).trans
                (ahead_advance _ _))
          · rw [hCode]
            have hHead : c.head = '\\' := by simp_all
            have hStart : c.atEnd = false := by simp_all
            exact .odd e rfl
              (isOdd_of_escape hStart hHead hLetter hLength hNumber
                hBeyond)
        next =>
          split
          · have hMore := (moves_quotedBreaks
                (c.next.lineBreak.2.left + 1) []
                c.next.lineBreak.2).bind fun r =>
              ih ((RawText.ofChars r.1).reverse ++ read) r.2
            refine Moves.of_ahead
              (hNext.trans (ahead_lineBreak _)) ?_
            cases hBreaks : quotedBreaks
              (c.next.lineBreak.2.left + 1) []
              c.next.lineBreak.2 with
            | error e => rwa [hBreaks] at hMore
            | ok r => rwa [hBreaks] at hMore
          · exact .malformed rfl
      · exact (ih _ _).of_ahead hNext

/- So is a quoted scalar. -/
theorem moves_quoted (double : Bool) (c : Cursor) :
    Moves Prod.snd c (quoted double c) :=
  (moves_quotedFrom double _ _ c.next).of_ahead (ahead_next c)

------------------------------------------------------------
-- Block scalars
------------------------------------------------------------

/- The indicators of a block scalar are passed. -/
theorem moves_indicators (c : Cursor) :
    Moves (fun r => r.2.2) c (indicators c) := by
  have hNext := ahead_next c
  have hIncrement (ch : Char) :
      increment? ch = .error .malformed ∨
        ∃ k, increment? ch = .ok k := by
    unfold increment?
    split
    · exact Or.inl rfl
    · split
      · exact Or.inr ⟨_, rfl⟩
      · exact Or.inr ⟨_, rfl⟩
  unfold indicators
  split
  next chomp h =>
    dsimp only
    rcases hIncrement c.next.head with hStep | ⟨k, hStep⟩
    · rw [hStep]
      exact .malformed rfl
    · rw [hStep]
      cases k with
      | none => exact .done _ rfl hNext
      | some k => exact .done _ rfl (hNext.trans (ahead_next _))
  next =>
    rcases hIncrement c.head with hStep | ⟨k, hStep⟩
    · rw [hStep]
      exact .malformed rfl
    · rw [hStep]
      cases k with
      | none => exact .done _ rfl (Ahead.refl c)
      | some k =>
          cases hChomp : chomping? c.next.head with
          | none =>
              refine .done (.clip, some k, c.next) ?_ hNext
              simp only [bind, Except.bind, hChomp]
              rfl
          | some chomp =>
              refine .done (chomp, some k, c.next.next) ?_
                (hNext.trans (ahead_next _))
              simp only [bind, Except.bind, hChomp]
              rfl

theorem moves_ignoredLine (c : Cursor) :
    Moves id c (ignoredLine c) := by
  have hLine := (ahead_skip c (· = ' ')).trans
    (ahead_skipComment _)
  unfold ignoredLine
  dsimp only
  split
  · exact .done _ rfl (hLine.trans (ahead_lineBreak _))
  · exact .malformed rfl

/- Empty lines in front of a block are passed. -/
theorem ahead_leadingBreaks
    (fuel : Nat)
    (breaks : List Char)
    (deepest : Nat)
    (c : Cursor) :
    c.Ahead (leadingBreaks fuel breaks deepest c).2.2 := by
  induction fuel generalizing breaks deepest c with
  | zero => exact Ahead.refl c
  | succ fuel ih =>
      rw [leadingBreaks]
      dsimp only
      split
      · exact (ahead_next c).trans (ih _ _ _)
      · split
        · exact (ahead_lineBreak c).trans (ih _ _ _)
        · exact Ahead.refl c

/- Blanks up to a column are passed. -/
theorem ahead_indentTo
    (indent fuel : Nat)
    (c : Cursor) : c.Ahead (indentTo indent fuel c) := by
  induction fuel generalizing c with
  | zero => exact Ahead.refl c
  | succ fuel ih =>
      rw [indentTo]
      split
      · exact (ahead_next c).trans (ih _)
      · exact Ahead.refl c

/- Empty lines of a block are passed. -/
theorem ahead_blockBreaks
    (indent fuel : Nat)
    (breaks : List Char)
    (c : Cursor) :
    c.Ahead (blockBreaks indent fuel breaks c).2 := by
  induction fuel generalizing breaks c with
  | zero => exact Ahead.refl c
  | succ fuel ih =>
      have hIndent := ahead_indentTo indent c.left c
      rw [blockBreaks]
      dsimp only
      split
      · exact (hIndent.trans (ahead_lineBreak _)).trans (ih _ _)
      · exact hIndent

/- Lines of a block are passed. -/
theorem ahead_blockLines
    (folded : Bool)
    (indent fuel : Nat)
    (b : Block) :
    b.cursor.Ahead (blockLines folded indent fuel b).cursor := by
  induction fuel generalizing b with
  | zero => exact Ahead.refl b.cursor
  | succ fuel ih =>
      rw [blockLines]
      dsimp only
      split
      · exact Ahead.refl b.cursor
      · have hLine := (ahead_span b.cursor
          fun ch => !isBreakOrEnd ch).trans (ahead_lineBreak _)
        exact (hLine.trans (ahead_blockBreaks _ _ _ _)).trans
          (ih _)

/- A block scalar is passed. -/
theorem moves_block
    (folded : Bool)
    (parent : Int)
    (c : Cursor) : Moves Prod.snd c (block folded parent c) := by
  refine Moves.of_ahead (ahead_next c) ?_
  refine (moves_indicators c.next).bind fun r => ?_
  rcases r with ⟨chomp, increment, d⟩
  dsimp only
  split
  · exact .malformed rfl
  · refine (moves_ignoredLine d).bind fun line => ?_
    refine .done _ rfl ?_
    cases increment with
    | none =>
        exact (ahead_leadingBreaks _ _ _ _).trans
          (ahead_blockLines _ _ _ _)
    | some k =>
        exact (ahead_blockBreaks _ _ _ _).trans
          (ahead_blockLines _ _ _ _)

end Scalar

end Yaml

end TypedClient
