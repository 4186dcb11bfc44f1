import TypedClient.Name.Registry
import TypedClient.Name.Reserved
import TypedClient.Proofs.Text.Ascii

/-
  This file states the two forms that derived names have, and
  shows that derivation brings them about.  A name in Pascal
  case starts with a capital and goes on with letters and digits;
  a name in snake case starts with a small letter and goes on
  with small letters, digits and underscores.

  Key definitions include:
    * `Name.IsPascal`
    * `Name.IsSnake`
    * `Name.EndSmall`

  Key theorems include:
    * `Name.isPascal_guardDigit_pascal`
    * `Name.isSnake_snake`
    * `Name.avoid_not_mem`
-/

namespace TypedClient

namespace Name

------------------------------------------------------------
-- Forms
------------------------------------------------------------

/- A capital, then letters and digits. -/
def PascalChars : List Char → Prop
  | [] => False
  | c :: cs => c.isUpper = true ∧ ∀ d ∈ cs, d.isAlphanum = true

/- Whether a character may stand in a name in snake case. -/
def isSnakeChar (c : Char) : Bool :=
  c.isLower || c.isDigit || c = '_'

/- A small letter, then characters of snake case. -/
def SnakeChars : List Char → Prop
  | [] => False
  | c :: cs => c.isLower = true ∧ ∀ d ∈ cs, isSnakeChar d = true

/- A name in Pascal case. -/
structure IsPascal (name : String) : Prop where
  chars : PascalChars name.toList

/- A name in snake case. -/
structure IsSnake (name : String) : Prop where
  chars : SnakeChars name.toList

instance : (cs : List Char) → Decidable (PascalChars cs)
  | [] => isFalse id
  | c :: cs =>
      decidable_of_iff
        (c.isUpper = true ∧ cs.all Char.isAlphanum = true)
        (and_congr_right' List.all_eq_true)

instance : (cs : List Char) → Decidable (SnakeChars cs)
  | [] => isFalse id
  | c :: cs =>
      decidable_of_iff
        (c.isLower = true ∧ cs.all isSnakeChar = true)
        (and_congr_right' List.all_eq_true)

instance (name : String) : Decidable (IsPascal name) :=
  decidable_of_iff (PascalChars name.toList)
    ⟨IsPascal.mk, IsPascal.chars⟩

instance (name : String) : Decidable (IsSnake name) :=
  decidable_of_iff (SnakeChars name.toList)
    ⟨IsSnake.mk, IsSnake.chars⟩

/- A name in Pascal case from its capital on. -/
theorem IsPascal.exists_cons
    {name : String}
    (h : IsPascal name) :
    ∃ c cs, name.toList = c :: cs ∧ c.isUpper = true ∧
      ∀ d ∈ cs, d.isAlphanum = true := by
  have hForm := h.chars
  cases hChars : name.toList with
  | nil => exact (hChars ▸ hForm : PascalChars []).elim
  | cons c cs =>
      rw [hChars] at hForm
      exact ⟨c, cs, rfl, hForm⟩

/- A name in snake case from its small letter on. -/
theorem IsSnake.exists_cons
    {name : String}
    (h : IsSnake name) :
    ∃ c cs, name.toList = c :: cs ∧ c.isLower = true ∧
      ∀ d ∈ cs, isSnakeChar d = true := by
  have hForm := h.chars
  cases hChars : name.toList with
  | nil => exact (hChars ▸ hForm : SnakeChars []).elim
  | cons c cs =>
      rw [hChars] at hForm
      exact ⟨c, cs, rfl, hForm⟩

theorem IsPascal.isAlphanum
    {name : String}
    (h : IsPascal name) :
    ∀ c ∈ name.toList, c.isAlphanum = true := by
  rcases h.exists_cons with ⟨c, cs, hChars, hFirst, hRest⟩
  rw [hChars]
  exact List.forall_mem_cons.2
    ⟨Text.isAlphanum_of_isUpper hFirst, hRest⟩

theorem IsSnake.forall_mem
    {name : String}
    (h : IsSnake name) :
    ∀ c ∈ name.toList, isSnakeChar c = true := by
  rcases h.exists_cons with ⟨c, cs, hChars, hFirst, hRest⟩
  rw [hChars]
  exact List.forall_mem_cons.2
    ⟨by simp [isSnakeChar, hFirst], hRest⟩

/- Letters and digits may be put behind a name in Pascal case. -/
theorem IsPascal.append
    {name more : String}
    (h : IsPascal name)
    (hMore : ∀ c ∈ more.toList, c.isAlphanum = true) :
    IsPascal (name ++ more) := by
  rcases h.exists_cons with ⟨c, cs, hChars, hFirst, hRest⟩
  refine ⟨?_⟩
  rw [String.toList_append, hChars]
  refine ⟨hFirst, fun d hd => ?_⟩
  rcases List.mem_append.1 hd with hd | hd
  · exact hRest d hd
  · exact hMore d hd

/- Snake-case text may be put behind a name in snake case. -/
theorem IsSnake.append
    {name more : String}
    (h : IsSnake name)
    (hMore : ∀ c ∈ more.toList, isSnakeChar c = true) :
    IsSnake (name ++ more) := by
  rcases h.exists_cons with ⟨c, cs, hChars, hFirst, hRest⟩
  refine ⟨?_⟩
  rw [String.toList_append, hChars]
  refine ⟨hFirst, fun d hd => ?_⟩
  rcases List.mem_append.1 hd with hd | hd
  · exact hRest d hd
  · exact hMore d hd

------------------------------------------------------------
-- Numbers
------------------------------------------------------------

theorem isDigit_of_mem_repr
    {k : Nat}
    {c : Char}
    (h : c ∈ (Nat.repr k).toList) : c.isDigit = true := by
  rw [Nat.toList_repr] at h
  exact Nat.isDigit_of_mem_toDigits (by decide) (by decide) h

theorem toList_repr_ne_nil (k : Nat) :
    (Nat.repr k).toList ≠ [] := by
  rw [Nat.toList_repr]
  exact Nat.toDigits_ne_nil

theorem IsPascal.numbered
    {name : String}
    (h : IsPascal name)
    (k : Nat) : IsPascal (numbered name k) :=
  h.append fun _ hc =>
    Text.isAlphanum_of_isDigit (isDigit_of_mem_repr hc)

theorem IsSnake.numbered
    {name : String}
    (h : IsSnake name)
    (k : Nat) : IsSnake (numbered name k) :=
  h.append fun _ hc => by
    simp [isSnakeChar, isDigit_of_mem_repr hc]

------------------------------------------------------------
-- Pascal case
------------------------------------------------------------

/- Letters and digits stay so under a capital. -/
theorem isAlphanum_of_mem_capitalize
    {cs : List Char}
    (h : ∀ c ∈ cs, c.isAlphanum = true) :
    ∀ c ∈ capitalize cs, c.isAlphanum = true := by
  cases cs with
  | nil => simp [capitalize]
  | cons c cs =>
      intro d hd
      rcases List.mem_cons.1 hd with hd | hd
      · subst hd
        exact Text.isAlphanum_of_isUpper_or_isDigit
          (Text.isUpper_or_isDigit_toUpper
            (h c List.mem_cons_self))
      · exact h d (List.mem_cons_of_mem c hd)

/-
  The name of a raw text starts with a capital or a digit and
  goes on with letters and digits.
-/
theorem pascalChars_eq_cons (raw : List Char) :
    ∃ c cs, pascalChars raw = c :: cs ∧
      (c.isUpper = true ∨ c.isDigit = true) ∧
        ∀ d ∈ cs, d.isAlphanum = true := by
  have hRuns : ∀ run ∈ Text.runs Char.isAlphanum raw,
      run ≠ [] ∧ ∀ c ∈ run, c.isAlphanum = true :=
    fun run h => Text.mem_runs h
  rw [pascalChars_eq]
  cases hAll : Text.runs Char.isAlphanum raw with
  | nil => exact ⟨'X', [], rfl, by decide, by simp⟩
  | cons run runs =>
      rw [hAll] at hRuns
      have hRun := hRuns run List.mem_cons_self
      cases run with
      | nil => exact (hRun.1 rfl).elim
      | cons c cs =>
          refine ⟨c.toUpper, cs ++ runs.flatMap capitalize,
            by simp [capitalize], ?_, fun d hd => ?_⟩
          · exact Text.isUpper_or_isDigit_toUpper
              (hRun.2 c List.mem_cons_self)
          · rcases List.mem_append.1 hd with hd | hd
            · exact hRun.2 d (List.mem_cons_of_mem c hd)
            · rcases List.mem_flatMap.1 hd with
                ⟨other, hOther, hd⟩
              exact isAlphanum_of_mem_capitalize
                (hRuns other
                  (List.mem_cons_of_mem _ hOther)).2 d hd

/- With its leading digit guarded, a name is in Pascal case. -/
theorem pascalChars_guardDigitChars (raw : List Char) :
    PascalChars (guardDigitChars 'N' (pascalChars raw)) := by
  rcases pascalChars_eq_cons raw with
    ⟨c, cs, hChars, hFirst, hRest⟩
  rw [hChars, guardDigitChars]
  split
  next hDigit =>
    refine ⟨by decide, fun d hd => ?_⟩
    rcases List.mem_cons.1 hd with hd | hd
    · exact hd ▸ Text.isAlphanum_of_isDigit hDigit
    · exact hRest d hd
  next hNoDigit =>
    exact ⟨hFirst.resolve_right hNoDigit, hRest⟩

/- With its leading digit guarded, a name is in Pascal case. -/
theorem isPascal_guardDigit_pascal (raw : String) :
    IsPascal (guardDigit 'N' (pascal raw)) := by
  refine ⟨?_⟩
  rw [guardDigit, pascal, String.toList_ofList,
    String.toList_ofList]
  exact pascalChars_guardDigitChars raw.toList

------------------------------------------------------------
-- Snake case
------------------------------------------------------------

theorem markBoundaries_cons (c : Char) (cs : List Char) :
    ∃ ds, markBoundaries (c :: cs) = c :: ds := by
  cases cs with
  | nil => exact ⟨[], rfl⟩
  | cons d ds =>
      rw [markBoundaries]
      split
      · exact ⟨_, rfl⟩
      · exact ⟨_, rfl⟩

/- Marking boundaries brings in nothing but underscores. -/
theorem mem_markBoundaries
    {c : Char}
    {cs : List Char}
    (h : c ∈ markBoundaries cs) : c ∈ cs ∨ c = '_' := by
  fun_induction markBoundaries cs with
  | case1 a b cs hBoundary ih =>
      rcases List.mem_cons.1 h with h | h
      · exact Or.inl (h ▸ List.mem_cons_self)
      · rcases List.mem_cons.1 h with h | h
        · exact Or.inr h
        · exact (ih h).imp_left (List.mem_cons_of_mem a)
  | case2 a b cs hInside ih =>
      rcases List.mem_cons.1 h with h | h
      · exact Or.inl (h ▸ List.mem_cons_self)
      · exact (ih h).imp_left (List.mem_cons_of_mem a)
  | case3 cs hShort => exact Or.inl h

theorem snakeChars_eq_map
    {cs : List Char}
    (h : ∀ c ∈ cs, c.isAlphanum = true) :
    snakeChars cs = (markBoundaries cs).map Char.toLower := by
  apply Text.lower_eq_map
  intro c hc
  rcases mem_markBoundaries hc with hc | hc
  · exact Text.toNat_lt_of_isAlphanum (h c hc)
  · exact hc ▸ by decide

/- The snake-case spelling of a name in Pascal case. -/
theorem isSnake_snake
    {name : String}
    (h : IsPascal name) : IsSnake (snake name) := by
  have hAlphanum := h.isAlphanum
  rcases h.exists_cons with ⟨c, cs, hChars, hFirst, _⟩
  rw [hChars] at hAlphanum
  rcases markBoundaries_cons c cs with ⟨ds, hMarked⟩
  have hMem : ∀ d ∈ c :: ds,
      d.isAlphanum = true ∨ d = '_' := fun d hd =>
    (mem_markBoundaries (hMarked ▸ hd)).imp_left (hAlphanum d)
  refine ⟨?_⟩
  rw [snake, String.toList_ofList, hChars,
    snakeChars_eq_map hAlphanum, hMarked]
  refine ⟨Text.isLower_toLower hFirst, fun d hd => ?_⟩
  rcases List.mem_map.1 hd with ⟨e, he, rfl⟩
  rcases hMem e (List.mem_cons_of_mem c he) with he | he
  · rcases Text.isLower_or_isDigit_toLower he with he | he
    · simp [isSnakeChar, he]
    · simp [isSnakeChar, he]
  · exact he ▸ by decide

------------------------------------------------------------
-- Reserved words
------------------------------------------------------------

/- Words of which each ends in a small letter. -/
def EndSmall (words : List String) : Prop :=
  ∀ w ∈ words, w.toList.getLast?.map Char.isLower = some true

instance (words : List String) : Decidable (EndSmall words) := by
  unfold EndSmall
  infer_instance

theorem endSmall_keywords : EndSmall keywords := by
  decide

theorem endSmall_reservedAttributes :
    EndSmall reservedAttributes := by
  decide

/- A name with another end is none of such words. -/
theorem not_mem_of_endSmall
    {words : List String}
    {name : String}
    {c : Char}
    (hWords : EndSmall words)
    (hLast : name.toList.getLast? = some c)
    (hc : c.isLower = false) : name ∉ words := by
  intro hMem
  have hSmall := hWords name hMem
  rw [hLast, Option.map_some, hc] at hSmall
  exact absurd hSmall (by decide)

theorem underscored_not_mem
    {words : List String}
    (hWords : EndSmall words)
    (name : String) : name ++ "_" ∉ words := by
  refine not_mem_of_endSmall (c := '_') hWords ?_ (by decide)
  rw [String.toList_append]
  exact List.getLast?_concat

/- A numbered name is none of such words. -/
theorem numbered_not_mem
    {words : List String}
    (hWords : EndSmall words)
    (name : String)
    (k : Nat) : numbered name k ∉ words := by
  have hNe := toList_repr_ne_nil k
  have hLast : (numbered name k).toList.getLast? =
      some ((Nat.repr k).toList.getLast hNe) := by
    rw [numbered, String.toList_append, List.getLast?_append,
      List.getLast?_eq_some_getLast hNe, Option.some_or]
  have hDigit := isDigit_of_mem_repr (List.getLast_mem hNe)
  apply not_mem_of_endSmall hWords hLast
  exact Text.forall_alphanum
    (P := fun c => c.isDigit = true → c.isLower = false)
    (by decide) (Text.isAlphanum_of_isDigit hDigit) hDigit

/- An avoided name is no keyword and not reserved. -/
theorem avoid_not_mem
    {reserved : List String}
    (hReserved : EndSmall reserved)
    (name : String) :
    avoid reserved name ∉ keywords ∧
      avoid reserved name ∉ reserved := by
  unfold avoid
  split
  · exact ⟨underscored_not_mem endSmall_keywords name,
      underscored_not_mem hReserved name⟩
  · next hFree => exact not_or.1 hFree

theorem isSnake_avoid
    {name : String}
    (h : IsSnake name)
    (reserved : List String) : IsSnake (avoid reserved name) := by
  unfold avoid
  split
  · exact h.append (List.all_eq_true.1 (by decide))
  · exact h

end Name

end TypedClient
