import TypedClient.Proofs.Source.Layout
import TypedClient.Proofs.Text.Raw

/-
  This file states what formatting gives.  The formatted text
  shows the lines that the text shows, in a layout that does not
  change any more.  A text with surrogates is not formatted, for
  it is not even read.

  Key definitions include:
    * `Source.isShown`
    * `Source.IsFormatOf`
    * `Source.StaysAsIs`

  Key theorems include:
    * `Source.format_eq_ok_iff`
    * `Source.filter_isShown_layout`
    * `Source.isFormatOf_tidy`
    * `Source.exists_isFormatOf`
-/

namespace TypedClient

namespace Source

open Text (closed)

------------------------------------------------------------
-- Lines that are shown
------------------------------------------------------------

/- Whether a line has anything but white space. -/
def isShown (line : List Char) : Bool :=
  line.any (! Text.isBlank ·)

theorem isShown_eq_false_iff {line : List Char} :
    isShown line = false ↔ Text.trimEnd line = [] := by
  rw [Text.trimEnd_eq_nil_iff, isShown, List.any_eq_false]
  simp

theorem isShown_trimEnd (line : List Char) :
    isShown (Text.trimEnd line) = isShown line := by
  rw [Bool.eq_iff_iff, ← not_iff_not]
  simp only [Bool.not_eq_true, isShown_eq_false_iff,
    Text.trimEnd_trimEnd]

theorem filter_isShown_dropWhile (ls : List (List Char)) :
    (ls.dropWhile List.isEmpty).filter isShown =
      ls.filter isShown := by
  induction ls with
  | nil => rfl
  | cons line ls ih =>
      cases line with
      | nil => exact ih
      | cons c cs => rfl

theorem filter_isShown_stripEmpty (ls : List (List Char)) :
    (stripEmpty ls).filter isShown = ls.filter isShown := by
  rw [stripEmpty, List.rdropWhile, List.filter_reverse,
    filter_isShown_dropWhile, ← List.filter_reverse,
    List.reverse_reverse, filter_isShown_dropWhile]

/- Empty lines in a row can be dropped. -/
theorem filter_isShown_limitEmpty
    (seen : Nat)
    (ls : List (List Char)) :
    (limitEmpty seen ls).filter isShown = ls.filter isShown := by
  induction ls generalizing seen with
  | nil => rfl
  | cons line ls ih =>
      rw [limitEmpty]
      split
      next hEmpty =>
        have hHidden : isShown line = false := hEmpty ▸ rfl
        rw [List.filter_cons_of_neg (by simp [hHidden])]
        split
        · rw [List.filter_cons_of_neg (by simp [hHidden]), ih]
        · exact ih seen
      next => rw [List.filter_cons, List.filter_cons, ih]

/- Lines in layout show what the lines show. -/
theorem filter_isShown_layout (ls : List (List Char)) :
    (layout ls).filter isShown = ls.filter isShown := by
  have hOr (ls : List (List Char)) :
      (orEmpty ls).filter isShown = ls.filter isShown := by
    cases ls <;> rfl
  rw [layout, hOr, filter_isShown_stripEmpty,
    filter_isShown_limitEmpty]

------------------------------------------------------------
-- Formatting
------------------------------------------------------------

/- Formatting gives accepted characters in order, and no more. -/
theorem format_eq_ok_iff
    {file : String}
    {text : RawText}
    {out : String} :
    format file text = .ok out ↔
      ∃ cs, text = .ofChars cs ∧ check cs = .ok () ∧
        String.ofList (tidy cs) = out := by
  unfold format
  constructor
  · intro h
    split at h
    next => cases h
    next cs hChars =>
      split at h
      next hCheck =>
        exact ⟨cs, RawText.toChars?_eq_some_iff.1 hChars, hCheck,
          Except.ok.inj h⟩
      next => cases h
      next => cases h
  · rintro ⟨cs, rfl, hCheck, rfl⟩
    rw [RawText.toChars?_ofChars]
    simp only [hCheck]

/-
  `out` is the formatted form of `text`.

    * `closing`: one line feed ends it
    * `breaks`: nothing else in it ends a line
    * `trimmed`: no line of it ends with white space
    * `start`: its first line is shown, unless it is one line feed
    * `few`: two lines in a row at most are not shown
    * `shown`: it shows the lines of the text, trimmed, in their
      order
    * `again`: it is left as it is when it is formatted
-/
structure IsFormatOf (text out : String) : Prop where
  closing : ∃ front, out.toList = front ++ ['\n'] ∧
    front.getLast? ≠ some '\n'
  breaks : ∀ c ∈ out.toList, Text.isLineBoundary c = true →
    c = '\n'
  trimmed : ∀ line ∈ Text.lines out.toList, ∀ c,
    line.getLast? = some c → Text.isBlank c = false
  start : out = "\n" ∨ ∃ line rest,
    Text.lines out.toList = line :: rest ∧ isShown line = true
  few : ∀ run, run <:+: Text.lines out.toList →
    (∀ line ∈ run, isShown line = false) → run.length ≤ 2
  shown : (Text.lines out.toList).filter isShown =
    ((Text.lines text.toList).filter isShown).map Text.trimEnd
  again : ∀ file, check out.toList = .ok () →
    format file out = .ok out

/- Formatted lines are in regular layout. -/
theorem isRegular_layout_tidyLines (text : List Char) :
    IsRegular (layout (tidyLines text)) := by
  apply isRegular_layout
  · exact fun line hLine => isUnbroken_of_mem_tidyLines hLine
  · intro line hLine
    rcases List.mem_map.1 hLine with ⟨full, _, rfl⟩
    exact Text.trimEnd_trimEnd full

theorem lines_tidy (text : List Char) :
    Text.lines (tidy text) = layout (tidyLines text) := by
  rw [tidy_eq_closed, Text.lines_closed
    (isRegular_layout_tidyLines text).unbroken]

/- A tidy text is as tidy as it gets. -/
theorem tidy_tidy (text : List Char) :
    tidy (tidy text) = tidy text := by
  have hClosed := tidy_eq_closed text
  rw [hClosed]
  exact tidy_closed (isRegular_layout_tidyLines text)

theorem IsRegular.eq_nil
    {ls : List (List Char)}
    {line : List Char}
    (h : IsRegular ls)
    (hLine : line ∈ ls)
    (hHidden : isShown line = false) : line = [] := by
  rw [← h.trimmed line hLine]
  exact isShown_eq_false_iff.1 hHidden

/- Regular lines are a single empty one, or the first is shown. -/
theorem IsRegular.first_shown
    {ls : List (List Char)}
    (h : IsRegular ls) :
    ls = [[]] ∨
      ∃ line rest, ls = line :: rest ∧ isShown line = true := by
  refine h.first.imp_right fun hFirst => ?_
  cases ls with
  | nil => exact (h.nonempty rfl).elim
  | cons line rest =>
      refine ⟨line, rest, rfl, ?_⟩
      cases hShown : isShown line with
      | true => rfl
      | false =>
          have hNil := h.eq_nil List.mem_cons_self hShown
          exact (hFirst (congrArg some hNil)).elim

/- Stripped text does not end with a line feed. -/
theorem getLast?_stripBreaks (cs : List Char) :
    (stripBreaks cs).getLast? ≠ some '\n' := by
  intro hLast
  have hNe : (cs.dropWhile (· = '\n')).rdropWhile (· = '\n') ≠
      [] := by
    intro hNil
    rw [show stripBreaks cs = [] from hNil] at hLast
    cases hLast
  have hNot := List.rdropWhile_last_not _ _ hNe
  have hSame :=
    (List.getLast?_eq_some_getLast hNe).symm.trans hLast
  rw [Option.some.inj hSame] at hNot
  exact hNot (by simp)

/- A tidy text is the formatted form of the text. -/
theorem isFormatOf_tidy (text : String) :
    IsFormatOf text (String.ofList (tidy text.toList)) := by
  have hRegular := isRegular_layout_tidyLines text.toList
  have hClosed := tidy_eq_closed text.toList
  have hLines := lines_tidy text.toList
  constructor <;> rw [String.toList_ofList]
  case closing => exact ⟨_, rfl, getLast?_stripBreaks _⟩
  case breaks =>
    rw [hClosed]
    exact fun c hc hBoundary =>
      Text.eq_lineFeed_of_mem_closed hRegular.unbroken hc hBoundary
  case trimmed =>
    rw [hLines]
    intro line hLine c hLast
    rw [← hRegular.trimmed line hLine] at hLast
    exact Text.isBlank_getLast_trimEnd hLast
  case start =>
    rw [hLines]
    refine hRegular.first_shown.imp_left fun hOnly => ?_
    rw [hClosed, hOnly]
    rfl
  case few =>
    rw [hLines]
    intro run hRun hHidden
    exact hRegular.few run hRun fun line hLine =>
      hRegular.eq_nil (hRun.subset hLine) (hHidden line hLine)
  case shown =>
    have hTrim : isShown ∘ Text.trimEnd = isShown :=
      funext isShown_trimEnd
    rw [hLines, filter_isShown_layout, tidyLines,
      List.filter_map, hTrim]
  case again =>
    intro file hAccepted
    exact format_eq_ok_iff.2 ⟨_, RawText.ofString_ofList _,
      hAccepted, congrArg String.ofList (tidy_tidy _)⟩

/-
  Every text of characters has a formatted form, and formatting
  gives it for those texts that are accepted and for no other.  A
  text with a surrogate is refused.
-/
theorem exists_isFormatOf (file : String) (text : RawText) :
    (∃ k, .surrogate k ∈ text) ∧
        format file text = .error (.unreadable .surrogate) ∨
      ∃ s : String, text = s ∧ ∃ out, IsFormatOf s out ∧
        (format file text = .ok out ↔ check s.toList = .ok ()) := by
  cases hChars : text.toChars? with
  | none =>
      refine Or.inl ⟨RawText.toChars?_eq_none_iff.1 hChars, ?_⟩
      rw [format, hChars]
  | some cs =>
      have hText := RawText.toChars?_eq_some_iff.1 hChars
      rw [← RawText.ofString_ofList] at hText
      refine Or.inr ⟨_, hText, _, isFormatOf_tidy _, ?_⟩
      rw [format_eq_ok_iff, hText]
      constructor
      · rintro ⟨ds, hEq, hCheck, _⟩
        rw [← RawText.ofString_ofList] at hEq
        rw [RawText.ofString_injective hEq, String.toList_ofList,
          hCheck]
      · exact fun hCheck => ⟨_, rfl, hCheck, rfl⟩

------------------------------------------------------------
-- Texts that stay
------------------------------------------------------------

/-
  A text that formatting leaves as it is.

    * `tidied`: to put its characters in order changes nothing,
      whether they are accepted or not
    * `formatted`: if it is accepted, it is given back
-/
structure StaysAsIs (text : RawText) : Prop where
  tidied : ∀ cs, text = .ofChars cs → tidy cs = cs
  formatted : ∀ file out, format file text = .ok out → text = out

theorem staysAsIs_of_tidy
    {text : RawText}
    (h : ∀ cs, text = .ofChars cs → tidy cs = cs) :
    StaysAsIs text := by
  refine ⟨h, fun file out hFormat => ?_⟩
  rcases format_eq_ok_iff.1 hFormat with ⟨cs, hText, _, rfl⟩
  rw [h cs hText, RawText.ofString_ofList, hText]

end Source

end TypedClient
