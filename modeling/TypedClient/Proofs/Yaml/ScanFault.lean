import TypedClient.Proofs.Yaml.PropertyFault
import TypedClient.Yaml.Token.Scan

/-
  This file shows that the scanner stops at a fault that is no
  breach of the format only if the text is odd.

  Key theorems include:
    * `Yaml.Scanner.steps_step`
    * `Yaml.isOdd_of_scan`
-/

namespace TypedClient

namespace Yaml

open Cursor (Ahead ahead_next ahead_advance ahead_span
  ahead_skip ahead_lineBreak ahead_skipComment)

namespace Scanner

/- Whether a step moves forward from where the scanner is. -/
abbrev Steps (s : Scanner) (x : Step) : Prop :=
  Moves Scanner.cursor s.cursor x

variable {s : Scanner}

------------------------------------------------------------
-- Bookkeeping
------------------------------------------------------------

theorem steps_dropStale (s : Scanner) : s.Steps s.dropStale := by
  unfold dropStale
  split
  · exact .malformed rfl
  · exact .done _ rfl (Ahead.refl _)

theorem steps_dropKey (s : Scanner) : s.Steps s.dropKey := by
  unfold dropKey
  split
  · exact .malformed rfl
  · exact .done _ rfl (Ahead.refl _)

theorem steps_saveKey (s : Scanner) : s.Steps s.saveKey := by
  unfold saveKey
  split
  · exact s.steps_dropKey.map fun _ => Ahead.refl _
  · exact .done _ rfl (Ahead.refl _)

/- Blocks are closed in place. -/
theorem cursor_unwindFrom
    (column : Int)
    (fuel : Nat)
    (s : Scanner) : (unwindFrom column s fuel).cursor = s.cursor := by
  induction fuel generalizing s with
  | zero => rfl
  | succ fuel ih =>
      rw [unwindFrom]
      split
      · exact ih _
      · rfl

theorem cursor_unwind (s : Scanner) (column : Int) :
    (s.unwind column).cursor = s.cursor := by
  unfold unwind
  split
  · exact cursor_unwindFrom _ _ s
  · rfl

/- A block is opened in place. -/
theorem cursor_openBlock (s : Scanner) (t : Token) :
    (s.openBlock t).cursor = s.cursor := by
  unfold openBlock opened?
  split
  next h =>
    split at h
    · cases h
      rfl
    · cases h
  next => rfl

/- Blanks and comments in front of a token are passed. -/
theorem ahead_toNextToken (fuel : Nat) (s : Scanner) :
    s.cursor.Ahead (s.toNextToken fuel).cursor := by
  induction fuel generalizing s with
  | zero => exact Ahead.refl _
  | succ fuel ih =>
      have hSkip := (ahead_skip s.cursor (· = ' ')).trans
        (ahead_skipComment _)
      rw [toNextToken]
      dsimp only
      split
      · refine (hSkip.trans (ahead_lineBreak _)).trans ?_
        split
        · exact ih _
        · exact ih _
      · exact hSkip

theorem ahead_skipMark (s : Scanner) :
    s.cursor.Ahead s.skipMark.cursor := by
  unfold skipMark
  split
  · exact ahead_next _
  · exact Ahead.refl _

------------------------------------------------------------
-- Structure
------------------------------------------------------------

theorem steps_dropKey_of
    {r : Scanner}
    (h : r.cursor = s.cursor) : s.Steps r.dropKey := by
  rw [Steps, ← h]
  exact r.steps_dropKey

/- Some characters are passed behind a step. -/
theorem steps_pass
    {x : Step}
    {f : Scanner → Scanner}
    (h : s.Steps x)
    (n : Nat)
    (hPass : ∀ r, (f r).cursor = r.cursor.advance n) :
    s.Steps (x >>= fun r => .ok (f r)) := by
  refine h.map fun r => ?_
  rw [hPass]
  exact ahead_advance _ n

theorem steps_finish (s : Scanner) : s.Steps s.finish :=
  (steps_dropKey_of (s.cursor_unwind (-1))).map
    fun _ => Ahead.refl _

theorem steps_separator (s : Scanner) (t : Token) :
    s.Steps (s.separator t) :=
  steps_pass (steps_dropKey_of (s.cursor_unwind (-1))) 3
    fun _ => rfl

theorem steps_directive (s : Scanner) : s.Steps s.directive := by
  refine (steps_dropKey_of (s.cursor_unwind (-1))).bind
    fun r => ?_
  exact (Token.moves_directive r.cursor).map fun _ => Ahead.refl _

theorem steps_openFlow (s : Scanner) (t : Token) :
    s.Steps (s.openFlow t) :=
  steps_pass s.steps_saveKey 1 fun _ => rfl

theorem steps_closeFlow (s : Scanner) (t : Token) :
    s.Steps (s.closeFlow t) := by
  unfold closeFlow
  dsimp only
  split
  · exact .malformed rfl
  · exact steps_pass s.steps_dropKey 1 fun _ => rfl

theorem steps_flowEntry (s : Scanner) : s.Steps s.flowEntry := by
  have hDrop : s.Steps (s.allowing true).dropKey :=
    steps_dropKey_of rfl
  exact steps_pass hDrop 1 fun _ => rfl

theorem steps_blockEntry (s : Scanner) : s.Steps s.blockEntry := by
  unfold blockEntry
  dsimp only
  split
  · exact .malformed rfl
  · refine steps_pass (steps_dropKey_of ?_) 1 fun _ => rfl
    split
    · exact s.cursor_openBlock _
    · rfl

/- A question mark is passed. -/
theorem steps_explicitKey (s : Scanner) :
    s.Steps s.explicitKey := by
  unfold explicitKey
  dsimp only
  split
  · exact .malformed rfl
  · refine steps_pass (steps_dropKey_of ?_) 1 fun _ => rfl
    split
    · exact s.cursor_openBlock _
    · rfl

/- The colon behind a known key is passed. -/
theorem ahead_valueOf (s : Scanner) (k : PossibleKey) :
    s.cursor.Ahead (s.valueOf k).cursor := by
  have hPlace : (s.valueOf k).cursor = s.cursor.advance 1 := by
    unfold valueOf opened?
    dsimp only
    split
    · split
      next h =>
        split at h
        · cases h
          rfl
        · cases h
      next => rfl
    · rfl
  rw [hPlace]
  exact ahead_advance _ 1

/- A colon is passed. -/
theorem steps_value (s : Scanner) : s.Steps s.value := by
  unfold value
  split
  next k h => exact .done _ rfl (s.ahead_valueOf k)
  next =>
    dsimp only
    split
    · exact .malformed rfl
    · refine steps_pass (steps_dropKey_of ?_) 1 fun _ => rfl
      split
      · exact s.cursor_openBlock _
      · rfl

------------------------------------------------------------
-- Content
------------------------------------------------------------

theorem steps_content
    {read : Cursor → Except Document.Fault (Token × Cursor)}
    (s : Scanner)
    (h : ∀ c, Moves Prod.snd c (read c)) :
    s.Steps (s.content read) :=
  s.steps_saveKey.bind fun r =>
    (h r.cursor).map fun _ => Ahead.refl _

theorem steps_named (s : Scanner) (mark : List Char → Token) :
    s.Steps (s.content fun c => do
      let (name, c) ← Token.anchorName c
      return (mark name, c)) :=
  s.steps_content fun c =>
    (Token.moves_anchorName c).map fun _ => Ahead.refl _

theorem steps_blockScalar (s : Scanner) (folded : Bool) :
    s.Steps (s.blockScalar folded) := by
  have hDrop : s.Steps (s.allowing true).dropKey :=
    steps_dropKey_of rfl
  refine hDrop.bind fun r => ?_
  exact (Scalar.moves_block folded r.indent r.cursor).map
    fun _ => Ahead.refl _

theorem steps_quotedScalar (s : Scanner) (double : Bool) :
    s.Steps (s.quotedScalar double) :=
  s.steps_content fun c =>
    (Scalar.moves_quoted double c).map fun _ => Ahead.refl _

theorem steps_plainScalar (s : Scanner) :
    s.Steps s.plainScalar :=
  s.steps_saveKey.map fun r => Scalar.ahead_plain _ _ r.cursor

------------------------------------------------------------
-- Steps
------------------------------------------------------------

theorem steps_ite
    {c : Prop}
    [Decidable c]
    {x y : Step}
    (hThen : s.Steps x)
    (hElse : s.Steps y) : s.Steps (if c then x else y) := by
  split
  · exact hThen
  · exact hElse

/- The next token is passed, whichever it is. -/
theorem steps_token (s : Scanner) : s.Steps s.token := by
  unfold token
  refine steps_ite s.steps_finish ?_
  refine steps_ite s.steps_directive ?_
  refine steps_ite (s.steps_separator _) ?_
  refine steps_ite (s.steps_openFlow _) ?_
  refine steps_ite (s.steps_openFlow _) ?_
  refine steps_ite (s.steps_closeFlow _) ?_
  refine steps_ite (s.steps_closeFlow _) ?_
  refine steps_ite s.steps_flowEntry ?_
  refine steps_ite s.steps_blockEntry ?_
  refine steps_ite s.steps_explicitKey ?_
  refine steps_ite s.steps_value ?_
  refine steps_ite (s.steps_named .alias) ?_
  refine steps_ite (s.steps_named .anchor) ?_
  refine steps_ite (s.steps_content Token.moves_tagProperty) ?_
  refine steps_ite (s.steps_blockScalar false) ?_
  refine steps_ite (s.steps_blockScalar true) ?_
  refine steps_ite (s.steps_quotedScalar false) ?_
  refine steps_ite (s.steps_quotedScalar true) ?_
  exact steps_ite s.steps_plainScalar (.malformed rfl)

/- A step moves forward. -/
theorem steps_step (s : Scanner) : s.Steps s.step := by
  have hStart := s.ahead_skipMark.trans
    (ahead_toNextToken (s.cursor.left + 1) s.skipMark)
  unfold step
  dsimp only
  refine Moves.of_ahead hStart ?_
  refine (steps_dropStale _).bind fun r => ?_
  have hToken := (r.unwind r.cursor.column).steps_token
  rwa [Steps, cursor_unwind] at hToken

end Scanner

------------------------------------------------------------
-- Streams
------------------------------------------------------------

/- A scanner makes one step and goes on. -/
-- The step is sealed since it is not to be evaluated here.
seal Scanner.step in
theorem scanFrom_succ (s : Scanner) (fuel : Nat) :
    Token.scanFrom s (fuel + 1) =
      match s.step with
      | .error e => (s.tokens, some e)
      | .ok t =>
          if t.tokens.head? = some .streamEnd then
            (t.tokens, none)
          else Token.scanFrom t fuel :=
  rfl

/- A scanner stops at a breach of the format, or at odd text. -/
theorem isOdd_of_scanFrom
    {s : Scanner}
    {fuel : Nat}
    {e : Document.Fault}
    (h : (Token.scanFrom s fuel).2 = some e) :
    e = .malformed ∨ IsOdd s.cursor.rest := by
  induction fuel generalizing s with
  | zero =>
      cases h
      exact Or.inl rfl
  | succ fuel ih =>
      rw [scanFrom_succ] at h
      cases s.steps_step with
      | malformed hStep =>
          rw [hStep] at h
          exact Or.inl (Option.some.inj h).symm
      | odd e' hStep hOdd => exact Or.inr hOdd
      | done t hStep hAhead =>
          rw [hStep] at h
          by_cases hEnd : t.tokens.head? = some .streamEnd
          · simp only [if_pos hEnd] at h
            cases h
          · simp only [if_neg hEnd] at h
            exact (ih h).imp_right fun hOdd =>
              hOdd.of_isSuffix hAhead

/- The tokens of a text end early in two ways only. -/
theorem isOdd_of_scan
    {text : List Char}
    {e : Document.Fault}
    (h : (Token.scan text).2 = some e)
    (hOther : e ≠ .malformed) : IsOdd text := by
  unfold Token.scan at h
  split at h
  · dsimp only at h
    rcases isOdd_of_scanFrom h with hForm | hOdd
    · exact absurd hForm hOther
    · exact hOdd
  · cases h
    exact absurd rfl hOther

end Yaml

end TypedClient
