import TypedClient.Proofs.Source.Literal
import TypedClient.Proofs.Text.Quotable

/-
  This file reads what stands in a docstring.  Only quotes and
  backslashes are escaped there; text whose escapes can be undone
  ends at the closing quotes, and a scan takes it as one string,
  as it takes a literal.

  Key definitions include:
    * `Source.undo?`
    * `Source.TakenWhole`

  Key theorems include:
    * `Source.isQuotable_of_undo?`
    * `Source.longBody_of_isQuotable`
    * `Source.takenWhole_docstring`
    * `Source.takenWhole_literal`
-/

namespace TypedClient

namespace Source

open Text (IsQuotable)

------------------------------------------------------------
-- Escapes
------------------------------------------------------------

/-
  The text in front of its escapes, from left to right.  There is
  none if a quote stands by itself or if a backslash does not
  start the escape of a backslash or of a quote.
-/
def undo? : RawText → Option RawText
  | [] => some []
  | .scalar '\\' :: .scalar '\\' :: t =>
      (undo? t).map (.scalar '\\' :: ·)
  | .scalar '\\' :: .scalar '"' :: t =>
      (undo? t).map (.scalar '"' :: ·)
  | .scalar '\\' :: _ => none
  | .scalar '"' :: _ => none
  | p :: t => (undo? t).map (p :: ·)

/- A code point without an escape is undone to itself. -/
theorem undo?_cons
    {p : CodePoint}
    (hSlash : p ≠ .scalar '\\')
    (hQuote : p ≠ .scalar '"')
    (t : RawText) :
    undo? (p :: t) = (undo? t).map (p :: ·) := by
  rw [undo?]
  · exact fun _ hEq _ => (hSlash hEq).elim
  · exact fun _ hEq _ => (hSlash hEq).elim
  · exact hSlash
  · exact hQuote

/- Text whose escapes can be undone can stand between quotes. -/
theorem isQuotable_of_undo?
    {t : RawText}
    (h : (undo? t).isSome = true) : IsQuotable t := by
  fun_induction undo? t with
  | case1 => exact .nil
  | case2 t ih =>
      rw [Option.isSome_map] at h
      exact .escape _ (ih h)
  | case3 t ih =>
      rw [Option.isSome_map] at h
      exact .escape _ (ih h)
  | case4 => cases h
  | case5 => cases h
  | case6 p t _ _ hSlash hQuote ih =>
      rw [Option.isSome_map] at h
      exact .plain hSlash hQuote (ih h)

------------------------------------------------------------
-- Scan
------------------------------------------------------------

/-
  Code that a scan takes as one string with a given body, between
  the quotes of the code and in front of what is behind it.
-/
def TakenWhole (code body behind : List Char) : Prop :=
  ∀ s : Scan, s.isFresh = false → s.rest = code ++ behind →
    ∃ line,
      s.step = .more { s.push (.string ⟨[], body⟩) behind with
        line := line }

/- Three quotes, as they stand around a docstring. -/
def threeQuotes : List Char :=
  ['"', '"', '"']

/- The line behind a character of a string. -/
def lineAfter (c : Char) (line : Nat) (rest : List Char) : Nat :=
  if c = '\n' then Scan.lineBehind line rest else line

/- Text ends where three quotes are behind it. -/
theorem longBody_of_isQuotable
    {body : List Char}
    (h : IsQuotable (.ofChars body))
    (read : List Char)
    (line : Nat)
    (behind : List Char) :
    ∃ last,
      Scan.longBody '"' read line
          (body ++ (threeQuotes ++ behind)) =
        .closed (read.reverse ++ body) behind last := by
  generalize hText : RawText.ofChars body = t at h
  induction h generalizing body read line with
  | nil =>
      rw [List.map_eq_nil_iff.1 hText]
      refine ⟨line, ?_⟩
      rw [List.append_nil]
      rfl
  | @escape p t _ ih =>
      rcases List.map_eq_cons_iff.1 hText with
        ⟨_, escaped, rfl, hSlash, hRest⟩
      rcases List.map_eq_cons_iff.1 hRest with
        ⟨c, cs, rfl, _, hOthers⟩
      rw [CodePoint.scalar.inj hSlash]
      rcases ih (c :: '\\' :: read)
        (lineAfter c line (cs ++ (threeQuotes ++ behind)))
        hOthers with ⟨last, hLast⟩
      refine ⟨last, ?_⟩
      rw [List.cons_append, List.cons_append, Scan.longBody,
        ← lineAfter, hLast]
      simp
  | @plain p t hSlash hQuote _ ih =>
      rcases List.map_eq_cons_iff.1 hText with
        ⟨c, cs, rfl, rfl, hOthers⟩
      rcases ih (c :: read)
        (lineAfter c line (cs ++ (threeQuotes ++ behind)))
        hOthers with ⟨last, hLast⟩
      refine ⟨last, ?_⟩
      rw [List.cons_append, Scan.longBody,
        if_neg fun hEq => hQuote (congrArg CodePoint.scalar hEq.1),
        ← lineAfter, hLast]
      · simp
      · exact fun _ _ hEq =>
          (hSlash (congrArg CodePoint.scalar hEq)).elim

/- A scan takes text between three quotes as one string. -/
theorem takenWhole_docstring
    {body : List Char}
    (h : IsQuotable (.ofChars body))
    (behind : List Char) :
    TakenWhole (threeQuotes ++ body ++ threeQuotes) body
      behind := by
  intro s hFresh hRest
  rcases longBody_of_isQuotable h [] s.line behind with
    ⟨last, hBody⟩
  refine ⟨last, ?_⟩
  have hQuotes : s.rest =
      '"' :: '"' :: '"' :: (body ++ (threeQuotes ++ behind)) := by
    rw [hRest, List.append_assoc, List.append_assoc]
    rfl
  have hLong : ['"', '"'].isPrefixOf
      ('"' :: '"' :: (body ++ (threeQuotes ++ behind))) =
        true :=
    rfl
  have hDrop : ('"' :: '"' ::
      (body ++ (threeQuotes ++ behind))).drop 2 =
        body ++ (threeQuotes ++ behind) :=
    rfl
  rw [step_of_quote hFresh hQuotes]
  simp only [Scan.string, hLong, if_true, hDrop, hBody,
    List.reverse_nil, List.nil_append]

/- A scan takes a literal as one string. -/
theorem takenWhole_literal
    (t : RawText)
    {behind : List Char}
    (h : behind.head? ≠ some '"') :
    TakenWhole (Text.literal t) (t.flatMap Text.escapePoint)
      behind := by
  intro s hFresh hRest
  refine ⟨s.line, (spells_literal t).step h hFresh ?_⟩
  rw [hRest]
  simp [Text.literal]

end Source

end TypedClient
