import TypedClient.Proofs.Text.Lines
import TypedClient.Source.Format

/-
  This file describes formatted source by its lines.  Formatting
  takes the white space at the end of every line away, then all
  but two of the empty lines in a row, and then those at both
  ends; what is left has a regular layout, and source with such a
  layout stays as it is.

  Key definitions include:
    * `Source.limitEmpty`
    * `Source.layout`
    * `Source.IsRegular`

  Key theorems include:
    * `Source.limitBreaks_closed`
    * `Source.stripBreaks_closed`
    * `Source.tidy_eq_closed`
    * `Source.FewEmpty.append`
    * `Source.isRegular_layout`
    * `Source.tidy_closed`
-/

namespace TypedClient

namespace Source

open Text (IsUnbroken closed)

------------------------------------------------------------
-- Layout of lines
------------------------------------------------------------

/-
  Lines without those empty ones that are more than two in a row,
  where `seen` empty lines stand directly in front of them.
-/
def limitEmpty
    {α : Type}
    (seen : Nat) : List (List α) → List (List α)
  | [] => []
  | line :: ls =>
      if line = [] then
        if seen < 2 then line :: limitEmpty (seen + 1) ls
        else limitEmpty seen ls
      else line :: limitEmpty 0 ls

/- Lines without the empty ones at both ends. -/
def stripEmpty (ls : List (List Char)) : List (List Char) :=
  (ls.dropWhile List.isEmpty).rdropWhile List.isEmpty

/- Lines of which there is at least one, which may be empty. -/
def orEmpty : List (List Char) → List (List Char)
  | [] => [[]]
  | line :: ls => line :: ls

/- Lines in their regular layout. -/
def layout (ls : List (List Char)) : List (List Char) :=
  orEmpty (stripEmpty (limitEmpty 0 ls))

------------------------------------------------------------
-- Line feeds in a row
------------------------------------------------------------

/- Behind a line, no line feed stands directly in front. -/
theorem limitBreaks_append
    {line : List Char}
    (h : '\n' ∉ line)
    (cs : List Char) :
    limitBreaks 0 (line ++ cs) = line ++ limitBreaks 0 cs := by
  induction line with
  | nil => rfl
  | cons c line ih =>
      have hc : c ≠ '\n' := fun hEq => h (hEq ▸ List.mem_cons_self)
      rw [List.cons_append, limitBreaks, if_neg hc,
        ih fun hMem => h (List.mem_cons_of_mem c hMem)]
      rfl

/-
  Among closed lines, line feeds are limited as empty lines are;
  the line in front of them is closed by a line feed of its own.
-/
theorem limitBreaks_closed
    {ls : List (List Char)}
    (h : ∀ line ∈ ls, '\n' ∉ line)
    (seen : Nat) :
    limitBreaks (seen + 1) (closed ls) =
      closed (limitEmpty seen ls) := by
  induction ls generalizing seen with
  | nil => rfl
  | cons line ls ih =>
      have hRest := ih fun l hl => h l (List.mem_cons_of_mem _ hl)
      rw [Text.closed_cons]
      cases line with
      | nil =>
          rw [List.nil_append, limitBreaks, if_pos rfl,
            limitEmpty, if_pos rfl]
          have hMost : seen + 1 < maxBreaks ↔ seen < 2 :=
            Nat.succ_lt_succ_iff
          by_cases hSeen : seen < 2
          · rw [if_pos (hMost.2 hSeen), if_pos hSeen, hRest,
              Text.closed_cons]
            rfl
          · rw [if_neg (hSeen ∘ hMost.1), if_neg hSeen, hRest]
      | cons c cs =>
          have hLine := h _ List.mem_cons_self
          have hc : c ≠ '\n' :=
            fun hEq => hLine (hEq ▸ List.mem_cons_self)
          have hcs : '\n' ∉ cs :=
            fun hMem => hLine (List.mem_cons_of_mem c hMem)
          have hBreak : limitBreaks 0 ('\n' :: closed ls) =
              '\n' :: limitBreaks 1 (closed ls) := rfl
          rw [List.cons_append, limitBreaks, if_neg hc,
            limitBreaks_append hcs, hBreak, hRest 0, limitEmpty,
            if_neg (List.cons_ne_nil c cs), Text.closed_cons]
          rfl

/- How many line feeds stand in front matters at the start only. -/
theorem dropWhile_limitBreaks (seen : Nat) (cs : List Char) :
    (limitBreaks seen cs).dropWhile (· = '\n') =
      limitBreaks 0 (cs.dropWhile (· = '\n')) := by
  induction cs generalizing seen with
  | nil => rfl
  | cons c cs ih =>
      by_cases hc : c = '\n'
      · rw [limitBreaks, if_pos hc,
          List.dropWhile_cons_of_pos (by simp [hc])]
        by_cases hSeen : seen < maxBreaks
        · rw [if_pos hSeen,
            List.dropWhile_cons_of_pos (by simp [hc]), ih]
        · rw [if_neg hSeen, ih]
      · rw [limitBreaks, if_neg hc,
          List.dropWhile_cons_of_neg (by simp [hc]),
          List.dropWhile_cons_of_neg (by simp [hc]), limitBreaks,
          if_neg hc]

/- A line feed at the end is kept, or it is not. -/
theorem limitBreaks_concat (seen : Nat) (cs : List Char) :
    limitBreaks seen (cs ++ ['\n']) = limitBreaks seen cs ∨
      limitBreaks seen (cs ++ ['\n']) =
        limitBreaks seen cs ++ ['\n'] := by
  induction cs generalizing seen with
  | nil =>
      have hFeed : limitBreaks seen ['\n'] =
          if seen < maxBreaks then ['\n'] else [] := rfl
      rw [List.nil_append, hFeed]
      split
      · exact Or.inr rfl
      · exact Or.inl rfl
  | cons c cs ih =>
      simp only [List.cons_append, limitBreaks]
      split
      · split
        · exact (ih (seen + 1)).imp (congrArg _) (congrArg _)
        · exact ih seen
      · exact (ih 0).imp (congrArg _) (congrArg _)

/- A line feed at the end is stripped. -/
theorem stripBreaks_concat (cs : List Char) :
    stripBreaks (cs ++ ['\n']) = stripBreaks cs := by
  have hStrip (ds : List Char) : stripBreaks ds =
      (ds.dropWhile (· = '\n')).rdropWhile (· = '\n') := rfl
  rw [hStrip, hStrip, List.dropWhile_append]
  split
  next hNone =>
    rw [List.isEmpty_iff.1 hNone]
    rfl
  next => exact List.rdropWhile_concat_pos _ _ _ (by simp)

/- Stripped text does not tell what stood around it. -/
theorem stripBreaks_limitBreaks (seen : Nat) (cs : List Char) :
    stripBreaks (limitBreaks seen (cs ++ ['\n'])) =
      stripBreaks (limitBreaks 0 cs) := by
  have hEnd : stripBreaks (limitBreaks seen (cs ++ ['\n'])) =
      stripBreaks (limitBreaks seen cs) := by
    rcases limitBreaks_concat seen cs with h | h
    · rw [h]
    · rw [h, stripBreaks_concat]
  rw [hEnd, stripBreaks, stripBreaks, dropWhile_limitBreaks,
    dropWhile_limitBreaks]

------------------------------------------------------------
-- Line feeds at the ends
------------------------------------------------------------

/- The empty lines at the start are the line feeds there. -/
theorem dropWhile_closed
    {ls : List (List Char)}
    (h : ∀ line ∈ ls, '\n' ∉ line) :
    (closed ls).dropWhile (· = '\n') =
      closed (ls.dropWhile List.isEmpty) := by
  induction ls with
  | nil => rfl
  | cons line ls ih =>
      rw [Text.closed_cons]
      cases line with
      | nil =>
          rw [List.nil_append,
            List.dropWhile_cons_of_pos (by simp),
            List.dropWhile_cons_of_pos rfl,
            ih fun l hl => h l (List.mem_cons_of_mem _ hl)]
      | cons c cs =>
          have hc : c ≠ '\n' := fun hEq =>
            h _ List.mem_cons_self (hEq ▸ List.mem_cons_self)
          rw [List.cons_append,
            List.dropWhile_cons_of_neg (by simp [hc]),
            List.dropWhile_cons_of_neg (by simp),
            Text.closed_cons]
          rfl

/- The empty lines at the end are line feeds, but for one. -/
theorem rdropWhile_closed
    {ls : List (List Char)}
    (h : ∀ line ∈ ls, '\n' ∉ line) :
    (closed ls).rdropWhile (· = '\n') ++ ['\n'] =
      closed (orEmpty (ls.rdropWhile List.isEmpty)) := by
  induction ls using List.reverseRecOn with
  | nil => rfl
  | append_singleton ls line ih =>
      have hLine := h line (List.mem_concat_self)
      rw [Text.closed_concat,
        List.rdropWhile_concat_pos _ _ _ (by simp)]
      by_cases hEmpty : line = []
      · have hIsEmpty : line.isEmpty = true :=
          List.isEmpty_iff.2 hEmpty
        rw [List.rdropWhile_concat_pos _ _ _ hIsEmpty, hEmpty,
          List.append_nil]
        exact ih fun l hl => h l (List.mem_append_left _ hl)
      · have hNotEmpty : ¬ line.isEmpty = true :=
          fun hIs => hEmpty (List.isEmpty_iff.1 hIs)
        have hLast : (closed ls ++ line).rdropWhile (· = '\n') =
            closed ls ++ line := by
          rw [List.rdropWhile_eq_self_iff]
          intro hNe hFeed
          rw [List.getLast_append_of_ne_nil hNe hEmpty] at hFeed
          exact hLine (of_decide_eq_true hFeed ▸
            List.getLast_mem hEmpty)
        rw [hLast, List.rdropWhile_concat_neg _ _ _ hNotEmpty,
          ← Text.closed_concat]
        cases ls <;> rfl

/- Closed lines are stripped as the lines are. -/
theorem stripBreaks_closed
    {ls : List (List Char)}
    (h : ∀ line ∈ ls, '\n' ∉ line) :
    stripBreaks (closed ls) ++ ['\n'] =
      closed (orEmpty (stripEmpty ls)) := by
  have hRest : ∀ line ∈ ls.dropWhile List.isEmpty, '\n' ∉ line :=
    fun line hl => h line ((List.dropWhile_suffix _).subset hl)
  have hStrip : stripBreaks (closed ls) =
      ((closed ls).dropWhile (· = '\n')).rdropWhile (· = '\n') :=
    rfl
  rw [hStrip, dropWhile_closed h, rdropWhile_closed hRest]
  rfl

------------------------------------------------------------
-- Formatted text
------------------------------------------------------------

/- A line that only lines have in layout is one of them. -/
theorem mem_of_mem_limitEmpty
    {α : Type}
    {seen : Nat}
    {ls : List (List α)}
    {line : List α}
    (h : line ∈ limitEmpty seen ls) : line ∈ ls := by
  induction ls generalizing seen with
  | nil => exact h
  | cons l ls ih =>
      rw [limitEmpty] at h
      split at h
      · split at h
        · rcases List.mem_cons.1 h with h | h
          · exact h ▸ List.mem_cons_self
          · exact List.mem_cons_of_mem l (ih h)
        · exact List.mem_cons_of_mem l (ih h)
      · rcases List.mem_cons.1 h with h | h
        · exact h ▸ List.mem_cons_self
        · exact List.mem_cons_of_mem l (ih h)

theorem isInfix_stripEmpty (ls : List (List Char)) :
    stripEmpty ls <:+: ls :=
  (List.rdropWhile_prefix _ _).isInfix.trans
    (List.dropWhile_suffix _).isInfix

/- A line in layout is one of the lines, or it is empty. -/
theorem mem_of_mem_layout
    {ls : List (List Char)}
    {line : List Char}
    (h : line ∈ layout ls) : line = [] ∨ line ∈ ls := by
  rw [layout] at h
  cases hStripped : stripEmpty (limitEmpty 0 ls) with
  | nil =>
      rw [hStripped] at h
      exact Or.inl (List.mem_singleton.1 h)
  | cons l rest =>
      rw [hStripped, orEmpty, ← hStripped] at h
      exact Or.inr
        (mem_of_mem_limitEmpty ((isInfix_stripEmpty _).subset h))

theorem isUnbroken_of_mem_tidyLines
    {text line : List Char}
    (h : line ∈ tidyLines text) : IsUnbroken line := by
  rcases List.mem_map.1 h with ⟨full, hFull, rfl⟩
  have hUnbroken := Text.isUnbroken_of_mem_lines hFull
  exact fun c hc =>
    hUnbroken c ((Text.trimEnd_prefix full).subset hc)

/- A formatted text has the lines of the text in their layout. -/
theorem tidy_eq_closed (text : List Char) :
    tidy text = closed (layout (tidyLines text)) := by
  have hLines : ∀ line ∈ tidyLines text, '\n' ∉ line :=
    fun line hl => (isUnbroken_of_mem_tidyLines hl).lineFeed_not_mem
  have hLimited : ∀ line ∈ limitEmpty 0 (tidyLines text),
      '\n' ∉ line :=
    fun line hl => hLines line (mem_of_mem_limitEmpty hl)
  have hText : stripBreaks
      (limitBreaks 0 (Text.joinLines (tidyLines text))) =
        stripBreaks (limitBreaks 1 (closed (tidyLines text))) := by
    by_cases hNone : tidyLines text = []
    · rw [hNone]
      rfl
    · rw [← Text.joinLines_concat hNone, stripBreaks_limitBreaks]
  rw [tidy, hText, limitBreaks_closed hLines,
    stripBreaks_closed hLimited]
  rfl

------------------------------------------------------------
-- Regular lines
------------------------------------------------------------

/- Empty lines in a row are two at most. -/
def FewEmpty {α : Type} (ls : List (List α)) : Prop :=
  ∀ run, run <:+: ls → (∀ line ∈ run, line = []) →
    run.length ≤ 2

/-
  Lines in regular layout.

    * `unbroken`: nothing ends a line inside of them
    * `trimmed`: no white space stands at their ends
    * `nonempty`: there are lines
    * `first`, `last`: none at the ends is empty, unless it is the
      only one
    * `few`: no more than two empty lines are in a row
-/
structure IsRegular (ls : List (List Char)) : Prop where
  unbroken : ∀ line ∈ ls, IsUnbroken line
  trimmed : ∀ line ∈ ls, Text.trimEnd line = line
  nonempty : ls ≠ []
  first : ls = [[]] ∨ ls.head? ≠ some []
  last : ls = [[]] ∨ ls.getLast? ≠ some []
  few : FewEmpty ls

section

variable {α : Type}

/-
  The empty lines that lines start with are two at most, `seen`
  ones in front of them counted.
-/
def FewFirst
    (seen : Nat)
    (ls : List (List α)) : Prop :=
  ∀ run, run <+: ls → (∀ line ∈ run, line = []) →
    run.length + seen ≤ 2

/- An empty line counts among those in front. -/
theorem FewFirst.cons
    {seen : Nat}
    {ls : List (List α)}
    (h : FewFirst (seen + 1) ls) : FewFirst seen ([] :: ls) := by
  intro run hRun hAll
  cases run with
  | nil =>
      have hNone := h [] List.nil_prefix (by simp)
      rw [List.length_nil] at hNone ⊢
      omega
  | cons line run =>
      have hRest := h run (List.cons_prefix_cons.1 hRun).2
        fun l hl => hAll l (List.mem_cons_of_mem line hl)
      rw [List.length_cons]
      omega

/- Behind an empty line, there is one more in front. -/
theorem FewFirst.tail
    {seen : Nat}
    {ls : List (List α)}
    (h : FewFirst seen ([] :: ls)) : FewFirst (seen + 1) ls := by
  intro run hRun hAll
  have hLonger := h ([] :: run)
    (List.cons_prefix_cons.2 ⟨rfl, hRun⟩)
    (List.forall_mem_cons.2 ⟨rfl, hAll⟩)
  rw [List.length_cons] at hLonger
  omega

/- Lines that start with a full one start with no empty one. -/
theorem fewFirst_cons_of_ne_nil
    {seen : Nat}
    {line : List α}
    (hSeen : seen ≤ 2)
    (h : line ≠ [])
    (ls : List (List α)) : FewFirst seen (line :: ls) := by
  intro run hRun hAll
  cases run with
  | nil =>
      rw [List.length_nil]
      omega
  | cons l run =>
      have hSame := (List.cons_prefix_cons.1 hRun).1
      exact (h (hSame ▸ hAll l List.mem_cons_self)).elim

/- Few empty lines at the start and few behind it are few. -/
theorem FewFirst.fewEmpty_cons
    {seen : Nat}
    {line : List α}
    {ls : List (List α)}
    (h : FewFirst seen (line :: ls))
    (hFew : FewEmpty ls) : FewEmpty (line :: ls) := by
  intro run hRun hAll
  rcases List.infix_cons_iff.1 hRun with hRun | hRun
  · have hLength := h run hRun hAll
    omega
  · exact hFew run hRun hAll

/- Limited lines have few empty ones in a row. -/
theorem few_limitEmpty
    {seen : Nat}
    (hSeen : seen ≤ 2)
    (ls : List (List α)) :
    FewFirst seen (limitEmpty seen ls) ∧
      FewEmpty (limitEmpty seen ls) := by
  induction ls generalizing seen with
  | nil =>
      constructor
      · intro run hRun _
        rw [List.prefix_nil.1 hRun, List.length_nil]
        omega
      · intro run hRun _
        rw [List.infix_nil.1 hRun]
        exact Nat.zero_le 2
  | cons line ls ih =>
      rw [limitEmpty]
      split
      next hEmpty =>
        split
        next hLess =>
          have hRest := ih (Nat.succ_le_of_lt hLess)
          have hFirst := hRest.1.cons
          rw [hEmpty]
          exact ⟨hFirst, hFirst.fewEmpty_cons hRest.2⟩
        next => exact ih hSeen
      next hFull =>
        have hRest := ih (Nat.zero_le 2)
        have hFirst := fewFirst_cons_of_ne_nil hSeen hFull
          (limitEmpty 0 ls)
        exact ⟨hFirst, hFirst.fewEmpty_cons hRest.2⟩

/- Lines with few empty ones in a row are not limited further. -/
theorem limitEmpty_eq_self
    {seen : Nat}
    {ls : List (List α)}
    (hFirst : FewFirst seen ls)
    (hFew : FewEmpty ls) : limitEmpty seen ls = ls := by
  induction ls generalizing seen with
  | nil => rfl
  | cons line ls ih =>
      have hRest : FewEmpty ls := fun run hRun =>
        hFew run (hRun.trans (List.suffix_cons line ls).isInfix)
      rw [limitEmpty]
      split
      next hEmpty =>
        subst hEmpty
        have hOne := hFirst.tail [] List.nil_prefix (by simp)
        rw [List.length_nil] at hOne
        rw [if_pos (by omega), ih hFirst.tail hRest]
      next hFull =>
        rw [ih (fun run hRun => hRest run hRun.isInfix) hRest]

theorem fewEmpty_of_limitEmpty
    {ls : List (List α)}
    (h : limitEmpty 0 ls = ls) : FewEmpty ls := by
  rw [← h]
  exact (few_limitEmpty (Nat.zero_le 2) ls).2

/-
  Few empty lines in a row stay few when other lines are put
  behind a full one.
-/
theorem FewEmpty.append
    {xs ys : List (List α)}
    (hx : FewEmpty xs)
    (hLast : xs.getLast? ≠ some [])
    (hy : FewEmpty ys) : FewEmpty (xs ++ ys) := by
  rintro run ⟨front, behind, hRun⟩ hAll
  rcases List.append_eq_append_iff.1 hRun with
    ⟨more, hFront, _⟩ | ⟨more, hFront, hBehind⟩
  · exact hx run ⟨front, more, hFront.symm⟩ hAll
  · rcases List.append_eq_append_iff.1 hFront with
      ⟨left, hLeft, hSplit⟩ | ⟨left, _, hRight⟩
    · -- the run goes over the end of `xs`, or starts behind it
      have hNone : left = [] := by
        by_contra hSome
        apply hLast
        have hMem : left.getLast hSome ∈ run := by
          rw [hSplit]
          exact List.mem_append_left _ (List.getLast_mem hSome)
        rw [hLeft, List.getLast?_append_of_ne_nil _ hSome,
          List.getLast?_eq_some_getLast hSome, hAll _ hMem]
      rw [hNone, List.nil_append] at hSplit
      exact hy run ⟨[], behind, by rw [hSplit, hBehind]; rfl⟩ hAll
    · refine hy run ⟨left, behind, ?_⟩ hAll
      rw [hBehind, hRight]

theorem limitEmpty_of_full
    {ls : List (List α)}
    (h : ∀ line ∈ ls, line ≠ [])
    (seen : Nat) : limitEmpty seen ls = ls := by
  induction ls generalizing seen with
  | nil => rfl
  | cons line ls ih =>
      rw [limitEmpty, if_neg (h line List.mem_cons_self),
        ih fun l hl => h l (List.mem_cons_of_mem line hl)]

/- Up to two empty lines in front of full ones are not limited. -/
theorem limitEmpty_blanks
    {ls : List (List α)}
    (h : ∀ line ∈ ls, line ≠ [])
    {seen blanks : Nat}
    (hBlanks : seen + blanks ≤ 2) :
    limitEmpty seen (List.replicate blanks [] ++ ls) =
      List.replicate blanks [] ++ ls := by
  induction blanks generalizing seen with
  | zero => exact limitEmpty_of_full h seen
  | succ blanks ih =>
      rw [List.replicate_succ, List.cons_append, limitEmpty,
        if_pos rfl, if_pos (by omega), ih (by omega)]

end

/- Stripped lines do not start with an empty one. -/
theorem head?_stripEmpty (ls : List (List Char)) :
    (stripEmpty ls).head? ≠ some [] := by
  intro hHead
  have hPrefix : stripEmpty ls <+: ls.dropWhile List.isEmpty :=
    List.rdropWhile_prefix _ _
  have hSame : (ls.dropWhile List.isEmpty).head? = some [] := by
    rcases hPrefix with ⟨rest, hRest⟩
    rw [← hRest, List.head?_append, hHead]
    rfl
  have hNot := List.head?_dropWhile_not List.isEmpty ls
  rw [hSame] at hNot
  cases hNot

/- Stripped lines do not end with an empty one. -/
theorem getLast?_stripEmpty (ls : List (List Char)) :
    (stripEmpty ls).getLast? ≠ some [] := by
  intro hLast
  have hNe : stripEmpty ls ≠ [] := by
    intro hNil
    rw [hNil] at hLast
    cases hLast
  have hNot := List.rdropWhile_last_not List.isEmpty _ hNe
  rw [List.getLast?_eq_some_getLast hNe] at hLast
  exact hNot (List.isEmpty_iff.2 (Option.some.inj hLast))

/- Trimmed, unbroken lines are regular in their layout. -/
theorem isRegular_layout
    {ls : List (List Char)}
    (hUnbroken : ∀ line ∈ ls, IsUnbroken line)
    (hTrimmed : ∀ line ∈ ls, Text.trimEnd line = line) :
    IsRegular (layout ls) := by
  constructor
  case unbroken =>
    intro line hLine
    rcases mem_of_mem_layout hLine with rfl | hOld
    · exact fun c hc => by cases hc
    · exact hUnbroken line hOld
  case trimmed =>
    intro line hLine
    rcases mem_of_mem_layout hLine with rfl | hOld
    · rfl
    · exact hTrimmed line hOld
  all_goals
    rw [layout]
    cases hStripped : stripEmpty (limitEmpty 0 ls)
  case nonempty.nil => exact List.cons_ne_nil _ _
  case nonempty.cons => exact List.cons_ne_nil _ _
  case first.nil => exact Or.inl rfl
  case first.cons =>
    right
    rw [orEmpty, ← hStripped]
    exact head?_stripEmpty _
  case last.nil => exact Or.inl rfl
  case last.cons =>
    right
    rw [orEmpty, ← hStripped]
    exact getLast?_stripEmpty _
  case few.nil =>
    intro run hRun _
    exact Nat.le_trans hRun.length_le (Nat.le_succ 1)
  case few.cons =>
    rw [orEmpty, ← hStripped]
    intro run hRun
    exact (few_limitEmpty (Nat.zero_le 2) ls).2 run
      (hRun.trans (isInfix_stripEmpty _))

/- Regular lines keep their layout. -/
theorem layout_eq_self
    {ls : List (List Char)}
    (h : IsRegular ls) : layout ls = ls := by
  have hLimited : limitEmpty 0 ls = ls :=
    limitEmpty_eq_self (fun run hRun => h.few run hRun.isInfix)
      h.few
  rw [layout, hLimited]
  by_cases hOnly : ls = [[]]
  · rw [hOnly]
    rfl
  · have hFirst := h.first.resolve_left hOnly
    have hLast := h.last.resolve_left hOnly
    have hStripped : stripEmpty ls = ls := by
      have hFront : ls.dropWhile List.isEmpty = ls := by
        cases ls with
        | nil => rfl
        | cons line rest =>
            refine List.dropWhile_cons_of_neg fun hEmpty => ?_
            exact hFirst (congrArg some (List.isEmpty_iff.1 hEmpty))
      rw [stripEmpty, hFront, List.rdropWhile_eq_self_iff]
      intro hNe hEmpty
      rw [List.getLast?_eq_some_getLast hNe] at hLast
      exact hLast (congrArg some (List.isEmpty_iff.1 hEmpty))
    rw [hStripped]
    cases ls with
    | nil => exact (h.nonempty rfl).elim
    | cons line rest => rfl

/- Text of regular lines is formatted already. -/
theorem tidy_closed
    {ls : List (List Char)}
    (h : IsRegular ls) : tidy (closed ls) = closed ls := by
  have hLines : tidyLines (closed ls) = ls := by
    have hSame : ls.map Text.trimEnd = ls.map id :=
      List.map_congr_left h.trimmed
    rw [tidyLines, Text.lines_closed h.unbroken, hSame,
      List.map_id]
  rw [tidy_eq_closed, hLines, layout_eq_self h]

end Source

end TypedClient
