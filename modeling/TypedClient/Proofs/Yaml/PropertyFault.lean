import TypedClient.Proofs.Yaml.ScalarFault
import TypedClient.Yaml.Token.Property

/-
  This file shows that the readers of anchors, tags and directives
  only move forward, and that only the number of a directive
  breaks off for another reason than the format, if it is very
  long.

  Key theorems include:
    * `Yaml.Token.moves_tagProperty`
    * `Yaml.Token.moves_directive`
-/

namespace TypedClient

namespace Yaml

open Cursor (Ahead ahead_next ahead_advance ahead_span
  ahead_skip)

namespace Token

------------------------------------------------------------
-- Anchors and tags
------------------------------------------------------------

theorem moves_anchorName (c : Cursor) :
    Moves Prod.snd c (anchorName c) := by
  unfold anchorName
  dsimp only
  split
  · exact .malformed rfl
  · exact .done _ rfl ((ahead_next c).trans (ahead_span _ _))

/- Escaped bytes of a tag are passed. -/
theorem moves_uriBytes
    (fuel : Nat)
    (read : Text.Bytes)
    (c : Cursor) : Moves Prod.snd c (uriBytes fuel read c) := by
  induction fuel generalizing read c with
  | zero => exact .done _ rfl (Ahead.refl c)
  | succ fuel ih =>
      rw [uriBytes]
      split
      · split
        · split
          · exact (ih _ _).of_ahead (ahead_advance c 3)
          · exact .malformed rfl
        · exact .malformed rfl
      · exact .done _ rfl (Ahead.refl c)

/- The rest of a tag is passed. -/
theorem moves_uriFrom
    (fuel : Nat)
    (read : List Char)
    (c : Cursor) : Moves Prod.snd c (uriFrom fuel read c) := by
  induction fuel generalizing read c with
  | zero => exact .done _ rfl (Ahead.refl c)
  | succ fuel ih =>
      rw [uriFrom]
      split
      · have hBytes := moves_uriBytes (c.left + 1) [] c
        cases hBytes with
        | malformed h =>
            rw [h]
            exact .malformed rfl
        | odd e h hOdd =>
            rw [h]
            exact .odd e rfl hOdd
        | done r h hAhead =>
            rw [h]
            dsimp only
            split
            · exact (ih _ _).of_ahead hAhead
            · exact .malformed rfl
      · split
        · exact (ih _ _).of_ahead (ahead_next c)
        · exact .done _ rfl (Ahead.refl c)

theorem moves_uri (c : Cursor) : Moves Prod.snd c (uri c) := by
  refine (moves_uriFrom _ _ c).bind fun found => ?_
  split
  · exact .malformed rfl
  · exact .done found rfl (Ahead.refl _)

/- A handle is passed. -/
theorem moves_tagHandle (c : Cursor) :
    Moves Prod.snd c (tagHandle c) := by
  have hNext := ahead_next c
  unfold tagHandle
  dsimp only
  split
  · exact .malformed rfl
  · split
    · exact .done _ rfl hNext
    · split
      · exact .done _ rfl
          ((hNext.trans (ahead_span _ _)).trans (ahead_next _))
      · exact .malformed rfl

/- A tag is passed. -/
theorem moves_tagProperty (c : Cursor) :
    Moves Prod.snd c (tagProperty c) := by
  have hEnd (found : Token × Cursor) :
      Moves Prod.snd found.2
        (if found.2.head = ' ' || isBreakOrEnd found.2.head then
          pure found
        else throw Document.Fault.malformed) := by
    split
    · exact .done found rfl (Ahead.refl _)
    · exact .malformed rfl
  have hUri (handle : List Char × Cursor) :=
    (moves_uri handle.2).bind fun suffix =>
      hEnd (tag (some handle.1) suffix.1, suffix.2)
  unfold tagProperty
  dsimp only
  split
  · refine Moves.of_ahead (ahead_advance c 2) ?_
    refine (moves_uri _).bind fun suffix => ?_
    split
    · exact .malformed rfl
    · exact (hEnd (tag none suffix.1, suffix.2.next)).of_ahead
        (ahead_next _)
  · split
    · exact (hEnd (tag none ['!'], c.next)).of_ahead (ahead_next c)
    · split
      · exact (moves_tagHandle c).bind hUri
      · exact (hUri (['!'], c.next)).of_ahead (ahead_next c)

------------------------------------------------------------
-- Directives
------------------------------------------------------------

/- The number of a directive is passed, or it is very long. -/
theorem moves_directiveNumber (c : Cursor) :
    Moves Prod.snd c (directiveNumber c) := by
  unfold directiveNumber
  dsimp only
  split
  · exact .malformed rfl
  · split
    next hLong =>
      refine .odd _ rfl ?_
      refine .number [] (c.rest.dropWhile Char.isDigit)
        (c.rest.takeWhile Char.isDigit) ?_ ?_ hLong
      · exact List.takeWhile_append_dropWhile.symm
      · intro d hd
        exact List.all_eq_true.1 List.all_takeWhile d hd
    next => exact .done _ rfl (ahead_span c _)

/- A version is passed. -/
theorem moves_version (c : Cursor) :
    Moves Prod.snd c (version c) := by
  refine Moves.of_ahead (ahead_skip c (· = ' ')) ?_
  refine (moves_directiveNumber _).bind fun major => ?_
  split
  · exact .malformed rfl
  · refine Moves.of_ahead (ahead_next _) ?_
    refine (moves_directiveNumber _).bind fun minor => ?_
    split
    · exact .done _ rfl (Ahead.refl _)
    · exact .malformed rfl

/- The meaning of a handle is passed. -/
theorem moves_tagMeaning (c : Cursor) :
    Moves Prod.snd c (tagMeaning c) := by
  refine Moves.of_ahead (ahead_skip c (· = ' ')) ?_
  refine (moves_tagHandle _).bind fun handle => ?_
  split
  · exact .malformed rfl
  · refine Moves.of_ahead (ahead_skip _ (· = ' ')) ?_
    refine (moves_uri _).bind fun start => ?_
    split
    · exact .done _ rfl (Ahead.refl _)
    · exact .malformed rfl

/- A directive is passed. -/
theorem moves_directive (c : Cursor) :
    Moves Prod.snd c (directive c) := by
  have hEnd (found : Token × Cursor) :
      Moves Prod.snd found.2 (do
        let d ← Scalar.ignoredLine found.2
        return (found.1, d)) :=
    (Scalar.moves_ignoredLine found.2).map fun d => Ahead.refl d
  refine Moves.of_ahead (ahead_next c) ?_
  refine Moves.of_ahead (ahead_span c.next isNameChar) ?_
  unfold directive
  dsimp only
  split
  · exact .malformed rfl
  · split
    · exact (moves_version _).bind hEnd
    · split
      · exact (moves_tagMeaning _).bind hEnd
      · refine Moves.of_ahead
          (ahead_skip _ fun ch => !isBreakOrEnd ch) ?_
        rw [pure_bind]
        exact hEnd (otherDirective, _)

end Token

end Yaml

end TypedClient
