import TypedClient.Proofs.Yaml.Passing

/-
  This file reads words without quotes as YAML scalars, together
  with the blanks and line breaks behind them, which a plain
  scalar takes along.

  Key definitions include:
    * `Yaml.IsFolded`
    * `Yaml.IsPlainWord`

  Key theorems include:
    * `Yaml.exists_lineBreak`
    * `Yaml.Scalar.plain_word`
-/

namespace TypedClient

namespace Yaml

------------------------------------------------------------
-- Line breaks
------------------------------------------------------------

/- Blanks and line breaks of ASCII. -/
def IsFolded (g : List Char) : Prop :=
  ∀ ch ∈ g, ch = ' ' ∨ ch = '\n' ∨ ch = '\r'

/- Text that goes on with neither blanks nor line breaks. -/
def StopsFold (rest : List Char) : Prop :=
  ∀ ch ∈ rest.head?, ch ≠ ' ' ∧ isBreak ch = false

/- In front of such text a cursor is at neither. -/
theorem StopsFold.head
    {c : Cursor}
    {rest : List Char}
    (h : StopsFold rest)
    (hRest : c.rest = rest) :
    c.head ≠ ' ' ∧ isBreak c.head = false := by
  cases rest with
  | nil =>
      rw [Cursor.head, hRest]
      decide
  | cons ch rest =>
      rw [Cursor.head_of_rest hRest]
      exact h ch rfl

/- A carriage return and a line feed are passed at once. -/
theorem passes_lineBreak_pair
    {c : Cursor}
    {rest : List Char}
    (h : c.rest = '\r' :: '\n' :: rest) :
    isBreak c.head = true ∧
      c.Passes ['\r', '\n'] c.lineBreak.2 := by
  have hHead := Cursor.head_of_rest h
  have hBreak : c.lineBreak.2 = c.advance 2 := by
    rw [Cursor.lineBreak, hHead, Cursor.peek_of_rest h]
    rfl
  have hBoth : c.rest = ['\r', '\n'] ++ rest := h
  rw [hHead, hBreak]
  exact ⟨rfl, Cursor.passes_advance hBoth⟩

/- One of them alone is passed as well. -/
theorem passes_lineBreak_single
    {c : Cursor}
    {ch : Char}
    {rest : List Char}
    (hCh : ch = '\n' ∨ ch = '\r')
    (hAlone : ch = '\r' → rest.headD endMark ≠ '\n')
    (h : c.rest = ch :: rest) :
    isBreak c.head = true ∧ c.Passes [ch] c.lineBreak.2 := by
  have hHead := Cursor.head_of_rest h
  have hNotPair : (ch = '\r' && rest.headD endMark = '\n') = false := by
    rw [Bool.eq_false_iff, ne_eq, Bool.and_eq_true,
      decide_eq_true_eq, decide_eq_true_eq]
    exact fun hPair => hAlone hPair.1 hPair.2
  have hBreak : c.lineBreak.2 = c.next := by
    rw [Cursor.lineBreak, hHead, Cursor.peek_of_rest h, hNotPair]
    rcases hCh with rfl | rfl
    · rfl
    · rfl
  rw [hBreak, hHead]
  refine ⟨?_, Cursor.passes_next h⟩
  rcases hCh with rfl | rfl
  · rfl
  · rfl

/-
  A line break at the start of blanks and line breaks: a cursor
  passes it at once, whatever else follows them.
-/
theorem exists_lineBreak
    {ch : Char}
    {g : List Char}
    (h : IsFolded (ch :: g))
    (hBlank : ch ≠ ' ') :
    ∃ first others, ch :: g = first ++ others ∧
      others.length ≤ g.length ∧
      ∀ (c : Cursor) (rest : List Char),
        c.rest = ch :: (g ++ rest) → StopsFold rest →
          isBreak c.head = true ∧ c.Passes first c.lineBreak.2 := by
  have hCh := (h ch List.mem_cons_self).resolve_left hBlank
  by_cases hPair : ch = '\r' ∧ g.head? = some '\n'
  · rcases hPair with ⟨rfl, hFeed⟩
    cases g with
    | nil => cases hFeed
    | cons d g =>
        cases hFeed
        exact ⟨['\r', '\n'], g, rfl, Nat.le_succ _,
          fun _ _ hRest _ => passes_lineBreak_pair hRest⟩
  · refine ⟨[ch], g, rfl, Nat.le_refl _, fun c rest hRest hStops => ?_⟩
    refine passes_lineBreak_single hCh (fun hReturn hFeed => ?_) hRest
    cases g with
    | cons d g => exact hPair ⟨hReturn, congrArg some hFeed⟩
    | nil =>
        cases rest with
        | nil => cases hFeed
        | cons d rest =>
            have hBreak := (hStops d rfl).2
            rw [show d = '\n' from hFeed] at hBreak
            cases hBreak

theorem IsFolded.of_append
    {first others : List Char}
    (h : IsFolded (first ++ others)) : IsFolded others :=
  fun ch hCh => h ch (List.mem_append_right first hCh)

------------------------------------------------------------
-- Space behind a word
------------------------------------------------------------

namespace Scalar

variable {c : Cursor}

/- What may follow a plain word behind space: no separator. -/
def EndsWord (rest : List Char) : Prop :=
  ∀ ch ∈ rest.head?, ch = ',' ∨ ch = ']' ∨ ch = '}'

theorem EndsWord.stopsFold
    {rest : List Char}
    (h : EndsWord rest) : StopsFold rest := by
  intro ch hCh
  rcases h ch hCh with rfl | rfl | rfl
  · exact ⟨by decide, rfl⟩
  · exact ⟨by decide, rfl⟩
  · exact ⟨by decide, rfl⟩

/- No document is separated there. -/
theorem atSeparator_of_folded
    {g rest : List Char}
    (hFolded : IsFolded g)
    (hEnds : EndsWord rest)
    (h : c.rest = g ++ rest) : c.atSeparator = false := by
  have hFirst : ∀ ch ∈ c.rest.head?, ch ≠ '-' ∧ ch ≠ '.' := by
    rw [h]
    intro ch hCh
    cases g with
    | nil =>
        rcases hEnds ch hCh with rfl | rfl | rfl
        all_goals decide
    | cons d g =>
        cases hCh
        rcases hFolded ch List.mem_cons_self with rfl | rfl | rfl
        all_goals decide
  unfold Cursor.atSeparator
  cases hRest : c.rest with
  | nil => rfl
  | cons d r =>
      have hD := hFirst d (by rw [hRest]; rfl)
      simp [hD.1, hD.2]

/- Blanks and line breaks behind a line break are passed. -/
theorem plainBreaks_folded
    {g rest : List Char}
    (hFolded : IsFolded g)
    (hEnds : EndsWord rest)
    {fuel : Nat}
    (hFuel : g.length ≤ fuel)
    (breaks : List Char)
    (h : c.rest = g ++ rest) :
    ∃ text d, plainBreaks fuel breaks c = (text, false, d) ∧
      c.Passes g d := by
  induction fuel generalizing g breaks c with
  | zero =>
      cases List.length_eq_zero_iff.1 (Nat.le_zero.1 hFuel)
      exact ⟨_, c, rfl, .refl c⟩
  | succ fuel ih =>
      cases g with
      | nil =>
          have hHead := hEnds.stopsFold.head h
          refine ⟨breaks.reverse, c, ?_, .refl c⟩
          rw [plainBreaks, if_neg hHead.1, hHead.2]
          rfl
      | cons ch g =>
          by_cases hBlank : ch = ' '
          · have hNext := Cursor.passes_next h
            have hRest := hNext.rest_of_append h
            rcases ih (@IsFolded.of_append [ch] g hFolded)
              (Nat.le_of_succ_le_succ hFuel) breaks hRest with
              ⟨text, d, hRead, hPasses⟩
            refine ⟨text, d, ?_, hNext.trans hPasses⟩
            rw [plainBreaks, Cursor.head_of_rest h, if_pos hBlank,
              hRead]
          · rcases exists_lineBreak hFolded hBlank with
              ⟨first, others, hSplit, hShorter, hBreak⟩
            rcases hBreak c rest h hEnds.stopsFold with
              ⟨hIsBreak, hPasses⟩
            have hOthers : IsFolded others :=
              IsFolded.of_append (hSplit ▸ hFolded)
            have hLine : c.rest = first ++ (others ++ rest) := by
              rw [h, hSplit, List.append_assoc]
            have hRest := hPasses.rest_of_append hLine
            rcases ih hOthers
              (Nat.le_trans hShorter (Nat.le_of_succ_le_succ hFuel))
              (c.lineBreak.1.reverse ++ breaks) hRest with
              ⟨text, d, hRead, hMore⟩
            refine ⟨text, d, ?_, hSplit ▸ hPasses.trans hMore⟩
            have hHead : c.head ≠ ' ' := by
              rw [Cursor.head_of_rest h]
              exact hBlank
            rw [plainBreaks, if_neg hHead, if_pos hIsBreak]
            dsimp only
            rw [atSeparator_of_folded hOthers hEnds hRest]
            exact hRead

/- The blanks at the start of such text are passed at once. -/
theorem span_blanks
    {g rest : List Char}
    (hStops : StopsFold rest)
    (h : c.rest = g ++ rest) :
    ∃ blanks others, g = blanks ++ others ∧
      (c.span (· = ' ')).1 = blanks ∧
      c.Passes blanks (c.span (· = ' ')).2 ∧
      (c.span (· = ' ')).2.rest = others ++ rest ∧
      ∀ ch ∈ others.head?, ch ≠ ' ' := by
  have hG := (List.takeWhile_append_dropWhile
    (p := (· = ' ')) (l := g)).symm
  have hBlanks : ∀ ch ∈ g.takeWhile (· = ' '),
      decide (ch = ' ') = true :=
    List.all_eq_true.1 List.all_takeWhile
  have hStop : ∀ ch ∈ (g.dropWhile (· = ' ')).head?, ch ≠ ' ' := by
    intro ch hCh
    have hNot := List.head?_dropWhile_not (· = ' ') g
    rw [hCh] at hNot
    simpa using hNot
  generalize g.takeWhile (· = ' ') = blanks at hG hBlanks
  generalize g.dropWhile (· = ' ') = others at hG hStop
  rw [hG, List.append_assoc] at h
  have hSpan := Cursor.passes_span (p := (· = ' ')) h hBlanks (by
    intro ch hCh
    refine decide_eq_false ?_
    cases others with
    | nil => exact (hStops ch hCh).1
    | cons d others =>
        cases hCh
        exact hStop _ rfl)
  exact ⟨blanks, others, hG, hSpan.1, hSpan.2,
    hSpan.2.rest_of_append h, hStop⟩

/- Blanks and line breaks behind a word are passed. -/
theorem plainSpace_folded
    {g rest : List Char}
    (hSound : c.IsSound)
    (hFolded : IsFolded g)
    (hEnds : EndsWord rest)
    (h : c.rest = g ++ rest) :
    ∃ text broken d, plainSpace c = (text, broken, d) ∧
      c.Passes g d := by
  rcases span_blanks hEnds.stopsFold h with
    ⟨blanks, others, rfl, hText, hBlanks, hRest, hStop⟩
  unfold plainSpace
  dsimp only
  rw [hText]
  generalize (c.span (· = ' ')).2 = d at hBlanks hRest
  cases others with
  | nil =>
      rw [(hEnds.stopsFold.head hRest).2]
      exact ⟨blanks, false, d, rfl,
        (List.append_nil blanks).symm ▸ hBlanks⟩
  | cons ch others =>
      have hOthers : IsFolded (ch :: others) := hFolded.of_append
      rcases exists_lineBreak hOthers (hStop ch rfl) with
        ⟨first, more, hSplit, -, hBreak⟩
      rcases hBreak d rest hRest hEnds.stopsFold with
        ⟨hIsBreak, hPasses⟩
      have hMore : IsFolded more :=
        IsFolded.of_append (hSplit ▸ hOthers)
      have hBehind := hPasses.rest_of_append
        (hRest.trans (by rw [hSplit, List.append_assoc]))
      have hLeft := ((hSound.passes hBlanks).passes hPasses).left
      have hFuel : more.length ≤ d.lineBreak.2.left := by
        rw [hLeft, hBehind, List.length_append]
        exact Nat.le_add_right _ _
      rcases plainBreaks_folded hMore hEnds hFuel [] hBehind with
        ⟨text, e, hRead, hEnd⟩
      have hAll := hBlanks.trans (hPasses.trans hEnd)
      rw [← hSplit] at hAll
      rw [hIsBreak, if_pos rfl,
        atSeparator_of_folded hMore hEnds hBehind, hRead]
      exact ⟨fold d.lineBreak.1 text, true, e, rfl, hAll⟩

------------------------------------------------------------
-- Words
------------------------------------------------------------

/- A character that a JSON word or number may have. -/
def isWordChar (ch : Char) : Bool :=
  ch.isAlphanum || ch = '+' || ch = '-' || ch = '.'

/- A character of a word is none that stops a plain scalar. -/
theorem plainStops_wordChar
    {ch : Char}
    (h : isWordChar ch = true)
    (inFlow : Bool)
    (d : Char) : plainStops inFlow ch d = false := by
  have hNot (e : Char) (hE : isWordChar e = false) : ch ≠ e := by
    rintro rfl
    rw [h] at hE
    cases hE
  have hGap : isGap ch = false := by
    simp [isGap, isSpace, isBreakOrEnd, isBreak,
      hNot ' ' rfl, hNot '\t' rfl, hNot '\n' rfl, hNot '\r' rfl,
      hNot '\u0085' rfl, hNot '\u2028' rfl, hNot '\u2029' rfl,
      hNot endMark rfl]
  have hList : ch ∉ ",?[]\x7b\x7d".toList := by
    intro hMem
    have hCases : ch = ',' ∨ ch = '?' ∨ ch = '[' ∨ ch = ']' ∨
        ch = '{' ∨ ch = '}' := by
      simpa using hMem
    rcases hCases with rfl | rfl | rfl | rfl | rfl | rfl
    all_goals cases h
  rw [plainStops, hGap, decide_eq_false (hNot ':' rfl),
    decide_eq_false hList]
  simp

/- A word is one piece of a plain scalar. -/
theorem plainPiece_word
    {inFlow : Bool}
    {cs g rest : List Char}
    (hWord : ∀ ch ∈ cs, isWordChar ch = true)
    (hFolded : IsFolded g)
    (hEnds : EndsWord rest)
    (hFlow : inFlow = true ∨ rest = []) :
    plainPiece inFlow (cs ++ (g ++ rest)) = cs := by
  induction cs with
  | nil =>
      cases g with
      | nil =>
          cases rest with
          | nil => rfl
          | cons ch rest =>
              rcases hFlow with rfl | hNil
              · rcases hEnds ch rfl with rfl | rfl | rfl
                all_goals rfl
              · cases hNil
      | cons ch g =>
          rcases hFolded ch List.mem_cons_self with
            rfl | rfl | rfl
          all_goals rfl
  | cons ch cs ih =>
      have hCh := hWord ch List.mem_cons_self
      rw [List.cons_append, plainPiece, plainStops_wordChar hCh,
        ih fun d hD => hWord d (List.mem_cons_of_mem ch hD)]
      rfl

/- A plain scalar ends where no piece follows. -/
theorem plainFrom_end
    {inFlow : Bool}
    (hPiece : plainPiece inFlow c.rest = [])
    (indent : Int)
    (fuel : Nat)
    (read space : List Char)
    (broken : Bool) :
    plainFrom inFlow indent fuel read space broken c =
      (read.reverse, broken, c) := by
  cases fuel with
  | zero => rfl
  | succ fuel =>
      rw [plainFrom, hPiece]
      simp

/-
  A word is read up to the next comma or bracket, or the end of
  the text.
-/
theorem plain_word
    {inFlow : Bool}
    {cs g rest : List Char}
    (hSound : c.IsSound)
    (hNonempty : cs ≠ [])
    (hWord : ∀ ch ∈ cs, isWordChar ch = true)
    (hFolded : IsFolded g)
    (hEnds : EndsWord rest)
    (hFlow : inFlow = true ∨ rest = [])
    (indent : Int)
    (h : c.rest = cs ++ (g ++ rest)) :
    ∃ broken d, plain inFlow indent c = (cs, broken, d) ∧
      c.Passes (cs ++ g) d := by
  have hPiece : plainPiece inFlow c.rest = cs := by
    rw [h]
    exact plainPiece_word hWord hFolded hEnds hFlow
  have hMark : c.head ≠ '#' := by
    cases cs with
    | nil => exact (hNonempty rfl).elim
    | cons ch cs =>
        rw [Cursor.head_of_rest h]
        rintro rfl
        cases hWord '#' List.mem_cons_self
  have hPasses := Cursor.passes_advance h
  have hRest := hPasses.rest_of_append h
  rcases plainSpace_folded (hSound.passes hPasses) hFolded hEnds
    hRest with ⟨text, broken, d, hSpace, hGap⟩
  have hEnd : plainPiece inFlow d.rest = [] := by
    rw [hGap.rest_of_append hRest]
    exact @plainPiece_word inFlow [] [] rest (by simp)
      (by simp [IsFolded]) hEnds hFlow
  refine ⟨broken, d, ?_, hPasses.trans hGap⟩
  rw [plain, plainFrom, if_neg hMark, hPiece]
  dsimp only
  rw [if_neg (by simpa using hNonempty), hSpace]
  dsimp only
  rw [plainFrom_end hEnd]
  simp

end Scalar

end Yaml

end TypedClient
