import TypedClient.Text.Blank
import TypedClient.Text.Lines
import Mathlib.Data.List.DropRight

/-
  This file relates texts to their lines.  Lines that nothing
  breaks are read back from a text in which each of them ends
  with a line feed; and a line without the white space at its end
  ends with something visible.

  Key definitions include:
    * `Text.IsUnbroken`
    * `Text.closed`

  Key theorems include:
    * `Text.isUnbroken_of_mem_lines`
    * `Text.lines_closed`
    * `Text.isBlank_getLast_trimEnd`
-/

namespace TypedClient

namespace Text

------------------------------------------------------------
-- Unbroken lines
------------------------------------------------------------

/- Text in which nothing ends a line. -/
def IsUnbroken (line : List Char) : Prop :=
  ∀ c ∈ line, isLineBoundary c = false

theorem IsUnbroken.lineFeed_not_mem
    {line : List Char}
    (h : IsUnbroken line) : '\n' ∉ line :=
  fun hMem => absurd (h '\n' hMem) (by decide)

/- What ends no line is put to the open line. -/
theorem linesFrom_cons
    {c : Char}
    (h : isLineBoundary c = false)
    (line cs : List Char) :
    linesFrom line (c :: cs) = linesFrom (c :: line) cs := by
  have hReturn : c ≠ '\r' := by
    rintro rfl
    exact absurd h (by decide)
  rw [linesFrom, if_neg (by simp [h])]
  intro rest hText
  exact absurd hText hReturn

theorem linesFrom_lineFeed (line cs : List Char) :
    linesFrom line ('\n' :: cs) =
      line.reverse :: linesFrom [] cs := by
  rw [linesFrom, if_pos (by decide)]
  intro rest hText
  exact absurd hText (by decide)

/- Unbroken text is put to the open line. -/
theorem linesFrom_append
    {line : List Char}
    (h : IsUnbroken line)
    (read cs : List Char) :
    linesFrom read (line ++ cs) =
      linesFrom (line.reverse ++ read) cs := by
  induction line generalizing read with
  | nil => rfl
  | cons c line ih =>
      rw [List.cons_append,
        linesFrom_cons (h c List.mem_cons_self),
        ih fun d hd => h d (List.mem_cons_of_mem c hd)]
      simp

/- Nothing breaks the lines of a text behind an open line. -/
theorem isUnbroken_of_mem_linesFrom
    {line cs found : List Char}
    (hLine : IsUnbroken line)
    (h : found ∈ linesFrom line cs) : IsUnbroken found := by
  have hReverse : IsUnbroken line.reverse :=
    fun c hc => hLine c (List.mem_reverse.1 hc)
  have hNil : IsUnbroken [] := fun c hc => by cases hc
  fun_induction linesFrom line cs with
  | case1 line hEmpty => cases h
  | case2 line hOpen => exact List.mem_singleton.1 h ▸ hReverse
  | case3 line cs ih =>
      rcases List.mem_cons.1 h with rfl | h
      · exact hReverse
      · exact ih hNil h hNil
  | case4 line c cs _ hBoundary ih =>
      rcases List.mem_cons.1 h with rfl | h
      · exact hReverse
      · exact ih hNil h hNil
  | case5 line c cs _ hInside ih =>
      have hOpen : IsUnbroken (c :: line) :=
        List.forall_mem_cons.2
          ⟨Bool.eq_false_iff.2 hInside, hLine⟩
      exact ih hOpen h fun d hd => hOpen d (List.mem_reverse.1 hd)

/- Nothing breaks the lines of a text. -/
theorem isUnbroken_of_mem_lines
    {text line : List Char}
    (h : line ∈ lines text) : IsUnbroken line :=
  isUnbroken_of_mem_linesFrom (fun c hc => by cases hc) h

------------------------------------------------------------
-- Closed lines
------------------------------------------------------------

/- The text of lines that end with a line feed each. -/
def closed (ls : List (List Char)) : List Char :=
  ls.flatMap (· ++ ['\n'])

theorem closed_cons (line : List Char) (ls : List (List Char)) :
    closed (line :: ls) = line ++ '\n' :: closed ls := by
  rw [closed, List.flatMap_cons, List.append_assoc]
  rfl

theorem closed_concat (ls : List (List Char)) (line : List Char) :
    closed (ls ++ [line]) = closed ls ++ line ++ ['\n'] := by
  rw [closed, List.flatMap_append, List.flatMap_singleton,
    List.append_assoc]
  rfl

/- Joined lines and a line feed are closed lines. -/
theorem joinLines_concat
    {ls : List (List Char)}
    (h : ls ≠ []) : joinLines ls ++ ['\n'] = closed ls := by
  induction ls with
  | nil => exact (h rfl).elim
  | cons line ls ih =>
      cases ls with
      | nil => simp [joinLines, closed]
      | cons next ls =>
          have hRest := ih (List.cons_ne_nil next ls)
          rw [closed_cons, ← hRest, joinLines, joinLines,
            List.intercalate_cons_cons]
          simp

/- Unbroken lines are read back when they are closed. -/
theorem lines_closed
    {ls : List (List Char)}
    (h : ∀ line ∈ ls, IsUnbroken line) :
    lines (closed ls) = ls := by
  induction ls with
  | nil => rfl
  | cons line ls ih =>
      have hRest := ih fun l hl => h l (List.mem_cons_of_mem _ hl)
      rw [lines] at hRest ⊢
      rw [closed_cons, linesFrom_append (h line List.mem_cons_self),
        linesFrom_lineFeed, hRest]
      simp

/- What ends a line in closed lines is a line feed. -/
theorem eq_lineFeed_of_mem_closed
    {ls : List (List Char)}
    (h : ∀ line ∈ ls, IsUnbroken line)
    {c : Char}
    (hMem : c ∈ closed ls)
    (hBoundary : isLineBoundary c = true) : c = '\n' := by
  rcases List.mem_flatMap.1 hMem with ⟨line, hLine, hc⟩
  rcases List.mem_append.1 hc with hc | hc
  · rw [h line hLine c hc] at hBoundary
    cases hBoundary
  · exact List.mem_singleton.1 hc

------------------------------------------------------------
-- Ends of lines
------------------------------------------------------------

/- A line without the white space at its end has none there. -/
theorem isBlank_getLast_trimEnd
    {line : List Char}
    {c : Char}
    (h : (trimEnd line).getLast? = some c) :
    isBlank c = false := by
  have hNe : line.rdropWhile isBlank ≠ [] := by
    intro hNil
    rw [show trimEnd line = [] from hNil] at h
    cases h
  have hLast := List.rdropWhile_last_not isBlank line hNe
  have hSame : (line.rdropWhile isBlank).getLast hNe = c := by
    apply Option.some.inj
    rw [← List.getLast?_eq_some_getLast hNe]
    exact h
  rw [hSame] at hLast
  exact Bool.eq_false_iff.2 hLast

theorem trimEnd_trimEnd (line : List Char) :
    trimEnd (trimEnd line) = trimEnd line :=
  List.rdropWhile_idempotent isBlank line

theorem trimEnd_prefix (line : List Char) : trimEnd line <+: line :=
  List.rdropWhile_prefix isBlank line

theorem trimEnd_eq_nil_iff {line : List Char} :
    trimEnd line = [] ↔ ∀ c ∈ line, isBlank c = true :=
  List.rdropWhile_eq_nil_iff

end Text

end TypedClient
