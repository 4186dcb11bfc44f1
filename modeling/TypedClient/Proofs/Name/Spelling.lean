import TypedClient.Proofs.Name.Form

/-
  This file says which names in Pascal case are spelled as a
  single word in snake case: the word with a capital, and the
  word in capitals.  In any other name some capital starts a word
  behind the first character, and an underscore is put there.

  Key definitions include:
    * `Name.IsWord`
    * `Name.spellings`

  Key theorems include:
    * `Name.markBoundaries_eq_self`
    * `Name.tail_of_unmarked`
    * `Name.snake_eq_iff`
-/

namespace TypedClient

namespace Name

------------------------------------------------------------
-- Letters
------------------------------------------------------------

theorem isUpper_of_isLower
    {c : Char}
    (h : c.isLower = true) : c.isUpper = false :=
  Text.forall_alphanum
    (P := fun c => c.isLower = true → c.isUpper = false)
    (by decide) (Text.isAlphanum_of_isLower h) h

theorem isDigit_of_isLower
    {c : Char}
    (h : c.isLower = true) : c.isDigit = false :=
  Text.forall_alphanum
    (P := fun c => c.isLower = true → c.isDigit = false)
    (by decide) (Text.isAlphanum_of_isLower h) h

theorem isLower_isDigit_of_isUpper
    {c : Char}
    (h : c.isUpper = true) :
    c.isLower = false ∧ c.isDigit = false :=
  Text.forall_alphanum
    (P := fun c => c.isUpper = true →
      c.isLower = false ∧ c.isDigit = false)
    (by decide) (Text.isAlphanum_of_isUpper h) h

/- A small letter is the small form of itself only. -/
theorem toLower_of_isLower
    {c : Char}
    (h : c.isLower = true) :
    c.toLower = c ∧ c.toUpper.isUpper = true ∧
      c.toUpper.toLower = c :=
  Text.forall_alphanum
    (P := fun c => c.isLower = true →
      c.toLower = c ∧ c.toUpper.isUpper = true ∧
        c.toUpper.toLower = c)
    (by decide) (Text.isAlphanum_of_isLower h) h

theorem toUpper_toLower
    {c : Char}
    (h : c.isUpper = true ∨ c.isDigit = true) :
    c.toLower.toUpper = c ∧ c.toUpper = c :=
  Text.forall_alphanum
    (P := fun c => c.isUpper = true ∨ c.isDigit = true →
      c.toLower.toUpper = c ∧ c.toUpper = c)
    (by decide) (Text.isAlphanum_of_isUpper_or_isDigit h) h

theorem isLower_or_isUpper_of_toLower
    {c : Char}
    (h : c.isAlphanum = true)
    (hSmall : c.toLower.isLower = true) :
    c.isLower = true ∨ c.isUpper = true :=
  Text.forall_alphanum
    (P := fun c => c.toLower.isLower = true →
      c.isLower = true ∨ c.isUpper = true)
    (by decide) h hSmall

------------------------------------------------------------
-- Unmarked names
------------------------------------------------------------

theorem markBoundaries_of_not
    {a b : Char}
    {cs : List Char}
    (h : isBoundary a b cs = false) :
    markBoundaries (a :: b :: cs) = a :: markBoundaries (b :: cs) := by
  rw [markBoundaries, h]
  rfl

/- Where no underscore is put, there is no boundary. -/
theorem isBoundary_of_unmarked
    {a b : Char}
    {cs : List Char}
    (h : '_' ∉ markBoundaries (a :: b :: cs)) :
    isBoundary a b cs = false ∧
      '_' ∉ markBoundaries (b :: cs) := by
  have hNone : isBoundary a b cs = false := by
    rw [Bool.eq_false_iff]
    intro hBoundary
    apply h
    rw [markBoundaries, if_pos hBoundary]
    exact List.mem_cons_of_mem a List.mem_cons_self
  refine ⟨hNone, fun hMem => h ?_⟩
  rw [markBoundaries_of_not hNone]
  exact List.mem_cons_of_mem a hMem

/- A name in which no underscore is put stays as it is. -/
theorem markBoundaries_eq_self
    {cs : List Char}
    (h : '_' ∉ markBoundaries cs) : markBoundaries cs = cs := by
  fun_induction markBoundaries cs with
  | case1 a b cs hBoundary ih =>
      exact (h (List.mem_cons_of_mem a List.mem_cons_self)).elim
  | case2 a b cs hInside ih =>
      rw [ih fun hMem => h (List.mem_cons_of_mem a hMem)]
  | case3 cs hShort => rfl

/- A letter of either kind. -/
def IsLetter (c : Char) : Prop :=
  c.isLower = true ∨ c.isUpper = true

/-
  Behind a small letter any capital starts a word: if none does,
  there are small letters only.
-/
theorem small_of_unmarked
    {a : Char}
    {cs : List Char}
    (hSmall : a.isLower = true)
    (hLetters : ∀ d ∈ cs, IsLetter d)
    (h : '_' ∉ markBoundaries (a :: cs)) :
    ∀ d ∈ cs, d.isLower = true := by
  induction cs generalizing a with
  | nil => exact fun d hd => by cases hd
  | cons b cs ih =>
      rcases isBoundary_of_unmarked h with ⟨hNone, hRest⟩
      have hb : b.isLower = true := by
        rcases hLetters b List.mem_cons_self with hb | hb
        · exact hb
        · simp [isBoundary, hb, hSmall] at hNone
      intro d hd
      rcases List.mem_cons.1 hd with hd | hd
      · exact hd ▸ hb
      · exact ih hb
          (fun e he => hLetters e (List.mem_cons_of_mem b he))
          hRest d hd

/-
  Behind a capital, the last capital of a run starts a word if a
  small letter follows it: if none does, there are letters of one
  kind only.
-/
theorem tail_of_unmarked
    {a : Char}
    {cs : List Char}
    (hCapital : a.isUpper = true)
    (hLetters : ∀ d ∈ cs, IsLetter d)
    (h : '_' ∉ markBoundaries (a :: cs)) :
    (∀ d ∈ cs, d.isLower = true) ∨
      ∀ d ∈ cs, d.isUpper = true := by
  induction cs generalizing a with
  | nil => exact Or.inl fun d hd => by cases hd
  | cons b cs ih =>
      rcases isBoundary_of_unmarked h with ⟨hNone, hRest⟩
      have hOthers : ∀ d ∈ cs, IsLetter d :=
        fun d hd => hLetters d (List.mem_cons_of_mem b hd)
      rcases hLetters b List.mem_cons_self with hb | hb
      · have hSmall := small_of_unmarked hb hOthers hRest
        exact Or.inl (List.forall_mem_cons.2 ⟨hb, hSmall⟩)
      · refine Or.inr (List.forall_mem_cons.2 ⟨hb, ?_⟩)
        rcases ih hb hOthers hRest with hSmall | hCapitals
        · -- two capitals and a small letter would be a boundary
          cases cs with
          | nil => exact fun d hd => by cases hd
          | cons c cs =>
              have hc := hSmall c List.mem_cons_self
              simp [isBoundary, hb, hCapital, hc] at hNone
        · exact hCapitals

/- Nothing is put between small letters. -/
theorem markBoundaries_of_small
    {a : Char}
    {cs : List Char}
    (h : ∀ d ∈ cs, d.isLower = true) :
    markBoundaries (a :: cs) = a :: cs := by
  induction cs generalizing a with
  | nil => rfl
  | cons b cs ih =>
      have hb := isUpper_of_isLower (h b List.mem_cons_self)
      have hNone : isBoundary a b cs = false := by
        simp [isBoundary, hb]
      rw [markBoundaries_of_not hNone,
        ih fun d hd => h d (List.mem_cons_of_mem b hd)]

/- Nothing is put between capitals. -/
theorem markBoundaries_of_capital
    {a : Char}
    {cs : List Char}
    (hCapital : a.isUpper = true)
    (h : ∀ d ∈ cs, d.isUpper = true) :
    markBoundaries (a :: cs) = a :: cs := by
  induction cs generalizing a with
  | nil => rfl
  | cons b cs ih =>
      have hFirst := isLower_isDigit_of_isUpper hCapital
      have hOthers : ∀ d ∈ cs, d.isUpper = true :=
        fun d hd => h d (List.mem_cons_of_mem b hd)
      have hNone : isBoundary a b cs = false := by
        cases cs with
        | nil => simp [isBoundary, hFirst]
        | cons c cs =>
            have hc := isLower_isDigit_of_isUpper
              (hOthers c List.mem_cons_self)
            simp [isBoundary, hFirst, hc]
      rw [markBoundaries_of_not hNone,
        ih (h b List.mem_cons_self) hOthers]

------------------------------------------------------------
-- Words
------------------------------------------------------------

/- A word of small letters. -/
def IsWord (word : String) : Prop :=
  ∀ c ∈ word.toList, c.isLower = true

instance (word : String) : Decidable (IsWord word) :=
  decidable_of_iff (word.toList.all Char.isLower = true)
    List.all_eq_true

theorem not_isWord_numbered (name : String) (k : Nat) :
    ¬ IsWord (numbered name k) := by
  intro h
  have hLast := List.getLast_mem (toList_repr_ne_nil k)
  have hDigit := isDigit_of_mem_repr hLast
  have hMem := List.mem_append_right name.toList hLast
  rw [← String.toList_append] at hMem
  rw [isDigit_of_isLower (h _ hMem)] at hDigit
  cases hDigit

theorem not_isWord_of_underscore
    {name : String}
    (h : '_' ∈ name.toList) : ¬ IsWord name :=
  fun hWord => absurd (hWord '_' h) (by decide)

theorem underscore_mem (name : String) :
    '_' ∈ (name ++ "_").toList := by
  rw [String.toList_append]
  exact List.mem_append_right _ List.mem_cons_self

/- A word with a capital, and the word in capitals. -/
def spellings (word : String) : List String :=
  [String.ofList (capitalize word.toList),
    String.ofList (word.toList.map Char.toUpper)]

/- Behind its start, a spelling has letters of one kind. -/
theorem tail_of_mem_spellings
    {name word : String}
    (hWord : IsWord word)
    (h : name ∈ spellings word) :
    (∀ d ∈ name.toList.tail, d.isLower = true) ∨
      ∀ d ∈ name.toList.tail, d.isUpper = true := by
  unfold IsWord at hWord
  rcases List.mem_cons.1 h with hEq | h
  · left
    rw [hEq, String.toList_ofList]
    cases hChars : word.toList with
    | nil => exact fun d hd => by cases hd
    | cons c cs =>
        rw [hChars] at hWord
        exact fun d hd => hWord d (List.mem_cons_of_mem c hd)
  · right
    rw [List.mem_singleton.1 h, String.toList_ofList]
    intro d hd
    rcases List.mem_map.1 (List.mem_of_mem_tail hd) with
      ⟨c, hc, rfl⟩
    exact (toLower_of_isLower (hWord c hc)).2.1

/- A name that is spelled as a word has letters of one kind. -/
theorem tail_of_snakeChars
    {a : Char}
    {cs : List Char}
    (hCapital : a.isUpper = true)
    (hOthers : ∀ d ∈ cs, d.isAlphanum = true)
    (hSmall : ∀ d ∈ snakeChars (a :: cs), d.isLower = true) :
    snakeChars (a :: cs) = (a :: cs).map Char.toLower ∧
      ((∀ d ∈ cs, d.isLower = true) ∨
        ∀ d ∈ cs, d.isUpper = true) := by
  have hAlphanum : ∀ d ∈ a :: cs, d.isAlphanum = true :=
    List.forall_mem_cons.2
      ⟨Text.isAlphanum_of_isUpper hCapital, hOthers⟩
  have hMap := snakeChars_eq_map hAlphanum
  have hUnmarked : '_' ∉ markBoundaries (a :: cs) := by
    intro hMem
    have hUnderscore : Char.toLower '_' ∈ snakeChars (a :: cs) := by
      rw [hMap]
      exact List.mem_map_of_mem hMem
    exact absurd (hSmall _ hUnderscore) (by decide)
  rw [markBoundaries_eq_self hUnmarked] at hMap
  refine ⟨hMap, tail_of_unmarked hCapital ?_ hUnmarked⟩
  intro d hd
  apply isLower_or_isUpper_of_toLower (hOthers d hd)
  apply hSmall
  rw [hMap]
  exact List.mem_map_of_mem (List.mem_cons_of_mem a hd)

theorem map_toLower_of_small
    {cs : List Char}
    (h : ∀ c ∈ cs, c.isLower = true) :
    cs.map Char.toLower = cs := by
  have hSame : cs.map Char.toLower = cs.map id :=
    List.map_congr_left fun c hc => (toLower_of_isLower (h c hc)).1
  rw [hSame, List.map_id]

/- The spelling of a word with a capital. -/
theorem snakeChars_capitalize
    {cs : List Char}
    (h : ∀ c ∈ cs, c.isLower = true) :
    snakeChars (capitalize cs) = cs := by
  cases cs with
  | nil => rfl
  | cons c cs =>
      rcases List.forall_mem_cons.1 h with ⟨hc, hcs⟩
      rcases toLower_of_isLower hc with ⟨_, hUpper, hBack⟩
      have hAlphanum : ∀ d ∈ c.toUpper :: cs,
          d.isAlphanum = true :=
        List.forall_mem_cons.2
          ⟨Text.isAlphanum_of_isUpper hUpper,
            fun d hd => Text.isAlphanum_of_isLower (hcs d hd)⟩
      rw [capitalize, snakeChars_eq_map hAlphanum,
        markBoundaries_of_small hcs, List.map_cons, hBack,
        map_toLower_of_small hcs]

/- The spelling of a word in capitals. -/
theorem snakeChars_map_toUpper
    {cs : List Char}
    (h : ∀ c ∈ cs, c.isLower = true) :
    snakeChars (cs.map Char.toUpper) = cs := by
  have hUpper : ∀ d ∈ cs.map Char.toUpper, d.isUpper = true := by
    intro d hd
    rcases List.mem_map.1 hd with ⟨c, hc, rfl⟩
    exact (toLower_of_isLower (h c hc)).2.1
  have hUnmarked : markBoundaries (cs.map Char.toUpper) =
      cs.map Char.toUpper := by
    cases cs with
    | nil => rfl
    | cons c cs =>
        rcases List.forall_mem_cons.1 hUpper with ⟨hc, hcs⟩
        exact markBoundaries_of_capital hc hcs
  have hBack : (cs.map Char.toUpper).map Char.toLower =
      cs.map id := by
    rw [List.map_map]
    exact List.map_congr_left fun c hc =>
      (toLower_of_isLower (h c hc)).2.2
  rw [snakeChars_eq_map fun d hd =>
    Text.isAlphanum_of_isUpper (hUpper d hd), hUnmarked, hBack,
    List.map_id]

/- The names that are spelled as a word are its two spellings. -/
theorem snake_eq_iff
    {name word : String}
    (hName : IsPascal name)
    (hWord : IsWord word) :
    snake name = word ↔ name ∈ spellings word := by
  constructor
  · intro hSnake
    have hSpelled : snakeChars name.toList = word.toList := by
      rw [← hSnake, snake, String.toList_ofList]
    have hSmall := hWord
    rw [IsWord, ← hSpelled] at hSmall
    rcases hName.exists_cons with ⟨a, cs, hChars, hFirst, hRest⟩
    have hEq : name = String.ofList (a :: cs) := by
      rw [← hChars, String.ofList_toList]
    rw [hChars] at hSmall hSpelled
    rcases tail_of_snakeChars hFirst hRest hSmall with
      ⟨hMap, hTail⟩
    rw [hSpelled, List.map_cons] at hMap
    have hBack := (toUpper_toLower (Or.inl hFirst)).1
    rw [hEq, spellings, hMap]
    rcases hTail with hTail | hTail
    · rw [map_toLower_of_small hTail, capitalize, hBack]
      exact List.mem_cons_self
    · have hBacks : (cs.map Char.toLower).map Char.toUpper =
          cs.map id := by
        rw [List.map_map]
        exact List.map_congr_left fun d hd =>
          (toUpper_toLower (Or.inl (hTail d hd))).1
      rw [List.map_cons, hBack, hBacks, List.map_id]
      exact List.mem_cons_of_mem _ List.mem_cons_self
  · intro hMem
    rcases List.mem_cons.1 hMem with hEq | hMem
    · rw [hEq, snake, String.toList_ofList,
        snakeChars_capitalize hWord, String.ofList_toList]
    · have hEq := List.mem_singleton.1 hMem
      rw [hEq, snake, String.toList_ofList,
        snakeChars_map_toUpper hWord, String.ofList_toList]

end Name

end TypedClient
