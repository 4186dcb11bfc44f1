import TypedClient.Proofs.Name.Form
import TypedClient.Shape.Infer

/-
  This file says what derived names keep of a raw text: its ASCII
  letters and digits, each once and in their order, but for case.
  The Pascal-case name of the text is nothing else; its
  snake-case spelling has words of them with an underscore
  between each two.

  Key definitions include:
    * `Name.content`
    * `Name.IsWords`
    * `Name.KeepsContent`

  Key theorems include:
    * `Name.map_toLower_pascalChars`
    * `Name.filter_markBoundaries`
    * `Name.exists_words_markBoundaries`
    * `Name.keepsContent`
-/

namespace TypedClient

namespace Name

------------------------------------------------------------
-- Content
------------------------------------------------------------

/- The ASCII letters and digits of a raw text, in lower case. -/
def content (raw : String) : List Char :=
  Text.lower (raw.toList.filter Char.isAlphanum)

theorem lower_of_isAlphanum
    {cs : List Char}
    (h : ∀ c ∈ cs, c.isAlphanum = true) :
    Text.lower cs = cs.map Char.toLower :=
  Text.lower_eq_map fun c hc =>
    Text.toNat_lt_of_isAlphanum (h c hc)

theorem content_eq_map (raw : String) :
    content raw =
      (raw.toList.filter Char.isAlphanum).map Char.toLower :=
  lower_of_isAlphanum fun _ hc => (List.mem_filter.1 hc).2

theorem toLower_toUpper
    {c : Char}
    (h : c.isAlphanum = true) :
    c.toUpper.toLower = c.toLower :=
  Text.forall_alphanum
    (P := fun c => c.toUpper.toLower = c.toLower) (by decide) h

theorem toLower_of_isAlphanum
    {c : Char}
    (h : c.isAlphanum = true) :
    c.toLower.isAlphanum = true ∧ c.toLower.isUpper = false ∧
      c.toLower.toLower = c.toLower :=
  Text.forall_alphanum
    (P := fun c => c.toLower.isAlphanum = true ∧
      c.toLower.isUpper = false ∧
        c.toLower.toLower = c.toLower) (by decide) h

------------------------------------------------------------
-- Pascal case
------------------------------------------------------------

theorem map_toLower_capitalize
    {cs : List Char}
    (h : ∀ c ∈ cs, c.isAlphanum = true) :
    (capitalize cs).map Char.toLower = cs.map Char.toLower := by
  cases cs with
  | nil => rfl
  | cons c cs =>
      rw [capitalize, List.map_cons, List.map_cons,
        toLower_toUpper (h c List.mem_cons_self)]

/- Capitals at the starts of pieces keep the small forms. -/
theorem map_toLower_flatMap_capitalize
    {pieces : List (List Char)}
    (h : ∀ piece ∈ pieces, ∀ c ∈ piece, c.isAlphanum = true) :
    (pieces.flatMap capitalize).map Char.toLower =
      pieces.flatten.map Char.toLower := by
  induction pieces with
  | nil => rfl
  | cons piece pieces ih =>
      have hFirst := h piece List.mem_cons_self
      have hOthers := fun p hp =>
        h p (List.mem_cons_of_mem piece hp)
      rw [List.flatMap_cons, List.map_append,
        map_toLower_capitalize hFirst, ih hOthers,
        List.flatten_cons, List.map_append]

theorem map_toLower_flatMap_runs (raw : String) :
    ((Text.runs Char.isAlphanum raw.toList).flatMap
        capitalize).map Char.toLower = content raw := by
  rw [map_toLower_flatMap_capitalize fun run hRun =>
      (Text.mem_runs hRun).2,
    Text.flatten_runs, content_eq_map]

/- A name keeps the content of a raw text that has some. -/
theorem map_toLower_pascalChars
    {raw : String}
    (h : content raw ≠ []) :
    (pascalChars raw.toList).map Char.toLower = content raw := by
  have hRuns := map_toLower_flatMap_runs raw
  rw [pascalChars_eq]
  split
  next hNone =>
    rw [hNone] at hRuns
    exact (h hRuns.symm).elim
  next hSome => exact hRuns

theorem pascalChars_eq_of_content
    {raw : String}
    (h : content raw = []) : pascalChars raw.toList = ['X'] := by
  have hRuns := map_toLower_flatMap_runs raw
  rw [h, List.map_eq_nil_iff] at hRuns
  rw [pascalChars_eq, hRuns]

theorem isAlphanum_of_mem_pascalChars
    (raw : List Char) :
    ∀ c ∈ pascalChars raw, c.isAlphanum = true := by
  rcases pascalChars_eq_cons raw with
    ⟨c, cs, hChars, hFirst, hRest⟩
  rw [hChars]
  exact List.forall_mem_cons.2
    ⟨Text.isAlphanum_of_isUpper_or_isDigit hFirst, hRest⟩

------------------------------------------------------------
-- Snake case
------------------------------------------------------------

theorem ne_underscore_of_isAlphanum
    {c : Char}
    (h : c.isAlphanum = true) : c ≠ '_' := by
  rintro rfl
  exact absurd h (by decide)

/- Without the underscores, a marked name is the name. -/
theorem filter_markBoundaries
    {cs : List Char}
    (h : ∀ c ∈ cs, c.isAlphanum = true) :
    (markBoundaries cs).filter (· ≠ '_') = cs := by
  fun_induction markBoundaries cs with
  | case1 a b cs hBoundary ih =>
      rcases List.forall_mem_cons.1 h with ⟨ha, hRest⟩
      have hNe := ne_underscore_of_isAlphanum ha
      rw [List.filter_cons_of_pos (by simpa using hNe),
        List.filter_cons_of_neg (by simp), ih hRest]
  | case2 a b cs hInside ih =>
      rcases List.forall_mem_cons.1 h with ⟨ha, hRest⟩
      have hNe := ne_underscore_of_isAlphanum ha
      rw [List.filter_cons_of_pos (by simpa using hNe), ih hRest]
  | case3 cs hShort =>
      refine List.filter_eq_self.2 fun c hc => ?_
      simpa using ne_underscore_of_isAlphanum (h c hc)

/-
  A marked name consists of words with an underscore between each
  two.  A boundary has a character on either side, so no word is
  empty.
-/
theorem exists_words_markBoundaries (c : Char) (cs : List Char) :
    ∃ word words,
      markBoundaries (c :: cs) =
          List.intercalate ['_'] (word :: words) ∧
        (word :: words).flatten = c :: cs ∧
        ∀ w ∈ word :: words, w ≠ [] := by
  induction cs generalizing c with
  | nil => exact ⟨[c], [], rfl, rfl, by simp⟩
  | cons d ds ih =>
      rcases ih d with ⟨word, words, hMarked, hFlat, hFull⟩
      rw [markBoundaries]
      split
      · refine ⟨[c], word :: words, ?_, ?_, ?_⟩
        · rw [hMarked, List.intercalate_cons_cons]
          rfl
        · rw [List.flatten_cons, hFlat]
          rfl
        · exact List.forall_mem_cons.2
            ⟨List.cons_ne_nil c [], hFull⟩
      · refine ⟨c :: word, words, ?_, ?_, ?_⟩
        · rw [hMarked]
          cases words with
          | nil => rfl
          | cons w ws =>
              rw [List.intercalate_cons_cons,
                List.intercalate_cons_cons]
              rfl
        · rw [List.flatten_cons, List.cons_append,
            ← List.flatten_cons, hFlat]
        · exact List.forall_mem_cons.2
            ⟨List.cons_ne_nil c word,
              fun w hw => hFull w (List.mem_cons_of_mem word hw)⟩

/- Small forms of joined words are small forms, joined. -/
theorem map_toLower_intercalate (words : List (List Char)) :
    (List.intercalate ['_'] words).map Char.toLower =
      List.intercalate ['_']
        (words.map fun w => w.map Char.toLower) := by
  induction words with
  | nil => rfl
  | cons word words ih =>
      cases words with
      | nil => simp
      | cons w ws =>
          have hOthers : List.intercalate ['_']
              ((word :: w :: ws).map fun w => w.map Char.toLower) =
                word.map Char.toLower ++ ['_'] ++
                  List.intercalate ['_']
                    ((w :: ws).map fun w => w.map Char.toLower) :=
            List.intercalate_cons_cons
          rw [hOthers, ← ih, List.intercalate_cons_cons,
            List.map_append, List.map_append]
          rfl

/-
  Words with an underscore between each two: a word has a
  character or more, each a small letter or a digit.
-/
def IsWords (name : List Char) : Prop :=
  ∃ words, words ≠ [] ∧
    (∀ w ∈ words, w ≠ [] ∧
      ∀ c ∈ w, c.isLower = true ∨ c.isDigit = true) ∧
    name = List.intercalate ['_'] words

/- Letters and digits are spelled in words. -/
theorem isWords_snakeChars
    {cs : List Char}
    (hSome : cs ≠ [])
    (h : ∀ c ∈ cs, c.isAlphanum = true) :
    IsWords (snakeChars cs) := by
  rcases List.exists_cons_of_ne_nil hSome with ⟨c, cs, rfl⟩
  rcases exists_words_markBoundaries c cs with
    ⟨word, words, hMarked, hFlat, hFull⟩
  refine ⟨(word :: words).map fun w => w.map Char.toLower,
    by simp, ?_, ?_⟩
  · intro small hSmall
    rcases List.mem_map.1 hSmall with ⟨w, hw, rfl⟩
    refine ⟨fun hNil => hFull w hw (List.map_eq_nil_iff.1 hNil),
      fun d hd => ?_⟩
    rcases List.mem_map.1 hd with ⟨e, he, rfl⟩
    apply Text.isLower_or_isDigit_toLower
    apply h
    rw [← hFlat]
    exact List.mem_flatten.2 ⟨w, hw, he⟩
  · rw [snakeChars_eq_map h, hMarked, map_toLower_intercalate]

/- Without the underscores, the spelling is in small forms. -/
theorem filter_snakeChars
    {cs : List Char}
    (h : ∀ c ∈ cs, c.isAlphanum = true) :
    (snakeChars cs).filter (· ≠ '_') = cs.map Char.toLower := by
  -- an underscore is its own small form, and that of nothing else
  have hSame : ∀ c ∈ markBoundaries cs,
      ((fun d => decide (d ≠ '_')) ∘ Char.toLower) c =
        decide (c ≠ '_') := by
    intro c hc
    rcases mem_markBoundaries hc with hc | rfl
    · have hSmall := (toLower_of_isAlphanum (h c hc)).1
      simp [ne_underscore_of_isAlphanum hSmall,
        ne_underscore_of_isAlphanum (h c hc)]
    · rfl
  rw [snakeChars_eq_map h, List.filter_map,
    List.filter_congr hSame, filter_markBoundaries h]

------------------------------------------------------------
-- Derived names
------------------------------------------------------------

/-
  What the names of a raw text keep of it.

    * `pascal_ne`: the Pascal-case name is not empty
    * `alphanum`: it consists of ASCII letters and digits
    * `first`: it does not start with a small letter
    * `lower`: in lower case, it is the content of the text
    * `fallback`: it is `X` for a text without content
    * `words`: the snake-case spelling consists of words
    * `spelled`: without underscores, it is the content
    * `spelled_fallback`: it is `x` for a text without content
    * `same`: two texts with content that have a name of either
      kind in common have the same content
-/
structure KeepsContent (raw : String) : Prop where
  pascal_ne : pascal raw ≠ ""
  alphanum : ∀ c ∈ (pascal raw).toList, c.isAlphanum = true
  first : ∀ c, (pascal raw).toList.head? = some c →
    c.isLower = false
  lower : content raw ≠ [] →
    Text.lower (pascal raw).toList = content raw
  fallback : content raw = [] → pascal raw = "X"
  words : IsWords (snake (pascal raw)).toList
  spelled : content raw ≠ [] →
    (snake (pascal raw)).toList.filter (· ≠ '_') = content raw
  spelled_fallback : content raw = [] → snake (pascal raw) = "x"
  same : ∀ other, content raw ≠ [] → content other ≠ [] →
    pascal raw = pascal other ∨
        snake (pascal raw) = snake (pascal other) →
      content raw = content other

theorem toList_pascal (raw : String) :
    (pascal raw).toList = pascalChars raw.toList :=
  String.toList_ofList

theorem toList_snake (name : String) :
    (snake name).toList = snakeChars name.toList :=
  String.toList_ofList

theorem filter_snake_pascal
    {raw : String}
    (h : content raw ≠ []) :
    (snake (pascal raw)).toList.filter (· ≠ '_') =
      content raw := by
  rw [toList_snake, toList_pascal,
    filter_snakeChars (isAlphanum_of_mem_pascalChars _),
    map_toLower_pascalChars h]

theorem isLower_of_isUpper_or_isDigit
    {c : Char}
    (h : c.isUpper = true ∨ c.isDigit = true) :
    c.isLower = false :=
  Text.forall_alphanum
    (P := fun c => c.isUpper = true ∨ c.isDigit = true →
      c.isLower = false)
    (by decide) (Text.isAlphanum_of_isUpper_or_isDigit h) h

/- The names of a raw text keep its content. -/
theorem keepsContent_raw (raw : String) : KeepsContent raw := by
  have hAlphanum := isAlphanum_of_mem_pascalChars raw.toList
  rcases pascalChars_eq_cons raw.toList with
    ⟨c, cs, hChars, hFirst, _⟩
  have hSome : pascalChars raw.toList ≠ [] := by
    rw [hChars]
    exact List.cons_ne_nil c cs
  constructor
  case pascal_ne =>
    intro hEmpty
    apply hSome
    rw [← toList_pascal, hEmpty, String.toList_empty]
  case alphanum => rwa [toList_pascal]
  case first =>
    rw [toList_pascal, hChars]
    rintro d ⟨⟩
    exact isLower_of_isUpper_or_isDigit hFirst
  case lower =>
    intro hContent
    rw [toList_pascal, lower_of_isAlphanum hAlphanum,
      map_toLower_pascalChars hContent]
  case fallback =>
    intro hNone
    exact congrArg String.ofList (pascalChars_eq_of_content hNone)
  case words =>
    rw [toList_snake, toList_pascal]
    exact isWords_snakeChars hSome hAlphanum
  case spelled => exact filter_snake_pascal
  case spelled_fallback =>
    intro hNone
    rw [pascal, pascalChars_eq_of_content hNone]
    rfl
  case same =>
    intro other hRaw hOther hNames
    have hSpelled : snake (pascal raw) = snake (pascal other) :=
      hNames.elim (congrArg snake) id
    rw [← filter_snake_pascal hRaw, hSpelled,
      filter_snake_pascal hOther]

/- A surrogate in a key is no letter and no digit. -/
theorem filter_blanked (key : RawText) :
    key.blanked.toList.filter Char.isAlphanum =
      (key.filterMap CodePoint.toChar?).filter
        Char.isAlphanum := by
  rw [RawText.blanked, String.toList_ofList]
  induction key with
  | nil => rfl
  | cons point points ih =>
      cases point with
      | scalar c =>
          have hMap : (CodePoint.scalar c :: points).filterMap
              CodePoint.toChar? =
                c :: points.filterMap CodePoint.toChar? := rfl
          rw [hMap, List.map_cons, List.filter_cons,
            List.filter_cons, ih]
          rfl
      | surrogate k =>
          have hMap : (CodePoint.surrogate k :: points).filterMap
              CodePoint.toChar? =
                points.filterMap CodePoint.toChar? := rfl
          rw [hMap, List.map_cons, ← ih]
          have hBlank : ¬ Char.isAlphanum ' ' = true := by
            decide
          exact List.filter_cons_of_neg hBlank

/-
  The names of a raw text keep its letters and digits: none is
  lost, invented or out of its order.  A key may hold surrogates
  as well; its names keep the letters and digits between them.
-/
theorem keepsContent :
    (∀ raw, KeepsContent raw) ∧
      ∀ key : RawText, content key.blanked =
        Text.lower ((key.filterMap CodePoint.toChar?).filter
          Char.isAlphanum) :=
  ⟨keepsContent_raw, fun key =>
    congrArg Text.lower (filter_blanked key)⟩

end Name

end TypedClient
