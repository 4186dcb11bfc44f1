import TypedClient.Proofs.Name.Content
import TypedClient.Proofs.Name.Field
import TypedClient.Proofs.Name.Spelling

/-
  This file shows that deriving a name from a derived name
  changes nothing.  The Pascal-case name of a spelling has
  capitals at the starts of words only, but its words end where
  those of the first name do, so it has the same spelling.

  Key definitions include:
    * `Name.respelledFrom`
    * `Name.IsSettled`
    * `Name.Settles`

  Key theorems include:
    * `Name.pascalChars_snakeChars`
    * `Name.markBoundaries_respelledFrom`
    * `Name.isSettled_snake`
    * `Name.settles`
-/

namespace TypedClient

namespace Name

------------------------------------------------------------
-- Letters
------------------------------------------------------------

theorem isUpper_of_isDigit
    {c : Char}
    (h : c.isDigit = true) : c.isUpper = false :=
  Text.forall_alphanum
    (P := fun c => c.isDigit = true → c.isUpper = false)
    (by decide) (Text.isAlphanum_of_isDigit h) h

theorem toLower_of_not_isUpper
    {c : Char}
    (h : c.isAlphanum = true)
    (hSmall : c.isUpper = false) : c.toLower = c :=
  Text.forall_alphanum
    (P := fun c => c.isUpper = false → c.toLower = c)
    (by decide) h hSmall

------------------------------------------------------------
-- Names of names
------------------------------------------------------------

/- Text behind an open run of letters and digits goes on with it. -/
theorem runsFrom_of_isAlphanum
    {cs : List Char}
    (h : ∀ c ∈ cs, c.isAlphanum = true)
    (held : List Char) :
    Text.runsFrom Char.isAlphanum held cs =
      Text.runsFrom Char.isAlphanum (cs.reverse ++ held) [] := by
  induction cs generalizing held with
  | nil => rfl
  | cons c cs ih =>
      rcases List.forall_mem_cons.1 h with ⟨hc, hcs⟩
      have hStep : Text.runsFrom Char.isAlphanum held (c :: cs) =
          Text.runsFrom Char.isAlphanum (c :: held) cs :=
        if_pos hc
      rw [hStep, ih hcs, List.reverse_cons, List.append_assoc]
      rfl

/- Letters and digits behind a capital or digit are a name. -/
theorem pascalChars_of_isAlphanum
    {c : Char}
    {cs : List Char}
    (hFirst : c.isUpper = true ∨ c.isDigit = true)
    (h : ∀ d ∈ c :: cs, d.isAlphanum = true) :
    pascalChars (c :: cs) = c :: cs := by
  have hRuns : Text.runs Char.isAlphanum (c :: cs) =
      [c :: cs] := by
    rw [Text.runs, runsFrom_of_isAlphanum h]
    simp [Text.runsFrom]
  rw [pascalChars_eq, hRuns, List.flatMap_singleton, capitalize,
    (toUpper_toLower hFirst).2]

/- The name of a name is the name. -/
theorem pascal_pascal (raw : String) :
    pascal (pascal raw) = pascal raw := by
  have hAlphanum := isAlphanum_of_mem_pascalChars raw.toList
  rcases pascalChars_eq_cons raw.toList with
    ⟨c, cs, hChars, hFirst, _⟩
  rw [hChars] at hAlphanum
  apply String.toList_injective
  rw [toList_pascal, toList_pascal, hChars,
    pascalChars_of_isAlphanum hFirst hAlphanum]

------------------------------------------------------------
-- Names of spellings
------------------------------------------------------------

/-
  A name behind its first character, with capitals at the starts
  of words only.
-/
def respelledFrom : List Char → List Char
  | a :: b :: cs =>
      (if isBoundary a b cs then b else b.toLower) ::
        respelledFrom (b :: cs)
  | _ => []

theorem isUpper_of_isBoundary
    {a b : Char}
    {cs : List Char}
    (h : isBoundary a b cs = true) : b.isUpper = true :=
  (Bool.and_eq_true_iff.1 h).1

/-
  The capitals of the words of a spelling, where `held` stands
  read backwards in front of the spelling: each word but the first
  gets the capital back that starts it.
-/
theorem flatMap_capitalize_marked
    {a : Char}
    {cs : List Char}
    (h : ∀ c ∈ a :: cs, c.isAlphanum = true)
    (held : List Char) :
    (Text.runsFrom Char.isAlphanum held
        ((markBoundaries (a :: cs)).map Char.toLower)).flatMap
          capitalize =
      capitalize (held.reverse ++ [a.toLower]) ++
        respelledFrom (a :: cs) := by
  induction cs generalizing a held with
  | nil =>
      have ha := (toLower_of_isAlphanum
        (h a List.mem_cons_self)).1
      simp [markBoundaries, Text.runsFrom, ha, respelledFrom]
  | cons b cs ih =>
      rcases List.forall_mem_cons.1 h with ⟨ha, hRest⟩
      have hSmall := (toLower_of_isAlphanum ha).1
      rw [markBoundaries, respelledFrom]
      split
      next hBoundary =>
        have hUpper := isUpper_of_isBoundary hBoundary
        have hBack := (toUpper_toLower (Or.inl hUpper)).1
        have hMark : ¬ Char.isAlphanum (Char.toLower '_') = true := by
          decide
        rw [List.map_cons, List.map_cons, Text.runsFrom,
          if_pos hSmall, Text.runsFrom, if_neg hMark,
          if_neg (by simp), List.flatMap_cons, ih hRest]
        simp [capitalize, hBack]
      next hInside =>
        rw [List.map_cons, Text.runsFrom, if_pos hSmall, ih hRest]
        cases hHeld : held.reverse with
        | nil => simp [hHeld, capitalize]
        | cons d ds => simp [hHeld, capitalize]

/- The name of the spelling of a name is the name respelled. -/
theorem pascalChars_snakeChars
    {c : Char}
    {cs : List Char}
    (hFirst : c.isUpper = true ∨ c.isDigit = true)
    (h : ∀ d ∈ c :: cs, d.isAlphanum = true) :
    pascalChars (snakeChars (c :: cs)) =
      c :: respelledFrom (c :: cs) := by
  have hRuns := flatMap_capitalize_marked h []
  have hCapital : capitalize ([].reverse ++ [c.toLower]) = [c] := by
    rw [List.reverse_nil, List.nil_append, capitalize,
      (toUpper_toLower hFirst).1]
  rw [hCapital] at hRuns
  rw [snakeChars_eq_map h, pascalChars_eq, Text.runs, hRuns]
  rfl

/- A name stays one of letters and digits when it is respelled. -/
theorem isAlphanum_of_mem_respelledFrom
    {cs : List Char}
    (h : ∀ c ∈ cs, c.isAlphanum = true) :
    ∀ c ∈ respelledFrom cs, c.isAlphanum = true := by
  fun_induction respelledFrom cs with
  | case1 a b cs ih =>
      have hRest := (List.forall_mem_cons.1 h).2
      have hb := hRest b List.mem_cons_self
      refine List.forall_mem_cons.2 ⟨?_, ih hRest⟩
      split
      · exact hb
      · exact (toLower_of_isAlphanum hb).1
  | case2 cs hShort => exact List.forall_mem_nil _

------------------------------------------------------------
-- Spellings of names of spellings
------------------------------------------------------------

/-
  A word starts behind `a` in a name just if one does in the name
  respelled, where `d` stands for `a`.  A capital that stays has
  a word behind it only if the next but one character is a small
  letter, and such a letter stays as well.
-/
theorem isBoundary_respelledFrom
    {a b d : Char}
    {cs : List Char}
    (h : ∀ c ∈ a :: b :: cs, c.isAlphanum = true)
    (hFirst : d = a ∨ d = a.toLower) :
    isBoundary d (if isBoundary a b cs then b else b.toLower)
        (respelledFrom (b :: cs)) =
      isBoundary a b cs := by
  rcases List.forall_mem_cons.1 h with ⟨ha, hRest⟩
  have hb := hRest b List.mem_cons_self
  cases hBoundary : isBoundary a b cs with
  | false =>
      -- a small form starts no word
      rw [if_neg (by simp), isBoundary,
        (toLower_of_isAlphanum hb).2.1, Bool.false_and]
  | true =>
      have hUpper := isUpper_of_isBoundary hBoundary
      rw [if_pos rfl]
      rw [isBoundary, hUpper, Bool.true_and] at hBoundary ⊢
      cases hCapital : a.isUpper with
      | false =>
          have hSame : d = a := by
            rcases hFirst with hSame | hSmall
            · exact hSame
            · rw [hSmall, toLower_of_not_isUpper ha hCapital]
          rw [hCapital, Bool.false_and] at hBoundary
          rw [hSame, hCapital, Bool.false_and, hBoundary]
      | true =>
          rcases hFirst with rfl | rfl
          · -- `a` stays a capital: what follows `b` decides
            have hNone := isLower_isDigit_of_isUpper hCapital
            rw [hNone.1, hNone.2, hCapital] at hBoundary ⊢
            cases cs with
            | nil => exact hBoundary
            | cons c cs =>
                have hc : c.isLower = true := by
                  simpa using hBoundary
                have hInside : isBoundary b c cs = false := by
                  rw [isBoundary, isUpper_of_isLower hc,
                    Bool.false_and]
                have hStays := (toLower_of_isLower hc).1
                rw [respelledFrom, hInside]
                simp [hStays, hc]
          · rw [Text.isLower_toLower hCapital, Bool.true_or,
              Bool.true_or]

/-
  A name respelled is spelled as the name, where `d` stands for
  its first character.
-/
theorem markBoundaries_respelledFrom
    {a d : Char}
    {cs : List Char}
    (h : ∀ c ∈ a :: cs, c.isAlphanum = true)
    (hFirst : d = a ∨ d = a.toLower) :
    (markBoundaries (d :: respelledFrom (a :: cs))).map
        Char.toLower =
      (markBoundaries (a :: cs)).map Char.toLower := by
  have ha := h a List.mem_cons_self
  have hSmall : d.toLower = a.toLower := by
    rcases hFirst with rfl | rfl
    · rfl
    · exact (toLower_of_isAlphanum ha).2.2
  induction cs generalizing a d with
  | nil => simp [markBoundaries, respelledFrom, hSmall]
  | cons b cs ih =>
      have hRest := (List.forall_mem_cons.1 h).2
      have hb := hRest b List.mem_cons_self
      have hNext := isBoundary_respelledFrom h hFirst
      have hOthers : ∀ e, e = b ∨ e = b.toLower →
          (markBoundaries (e :: respelledFrom (b :: cs))).map
              Char.toLower =
            (markBoundaries (b :: cs)).map Char.toLower := by
        intro e he
        refine ih hRest he hb ?_
        rcases he with rfl | rfl
        · rfl
        · exact (toLower_of_isAlphanum hb).2.2
      rw [respelledFrom, markBoundaries, markBoundaries, hNext]
      split
      · simp only [List.map_cons, hSmall,
          hOthers b (Or.inl rfl)]
      · simp only [List.map_cons, hSmall,
          hOthers b.toLower (Or.inr rfl)]

/- A name has the spelling of the name of its spelling. -/
theorem snakeChars_pascalChars_snakeChars
    {c : Char}
    {cs : List Char}
    (hFirst : c.isUpper = true ∨ c.isDigit = true)
    (h : ∀ d ∈ c :: cs, d.isAlphanum = true) :
    snakeChars (pascalChars (snakeChars (c :: cs))) =
      snakeChars (c :: cs) := by
  have hOther : ∀ d ∈ c :: respelledFrom (c :: cs),
      d.isAlphanum = true :=
    List.forall_mem_cons.2
      ⟨h c List.mem_cons_self,
        isAlphanum_of_mem_respelledFrom h⟩
  rw [pascalChars_snakeChars hFirst h, snakeChars_eq_map hOther,
    markBoundaries_respelledFrom h (Or.inl rfl),
    snakeChars_eq_map h]

------------------------------------------------------------
-- Settled names
------------------------------------------------------------

/- A name that is the spelling of its own Pascal-case name. -/
def IsSettled (name : String) : Prop :=
  snake (pascal name) = name

instance (name : String) : Decidable (IsSettled name) := by
  unfold IsSettled
  infer_instance

/-
  The spelling of letters and digits is settled, unless they start
  with a small letter.
-/
theorem isSettled_snake
    {name : String}
    {c : Char}
    {cs : List Char}
    (hChars : name.toList = c :: cs)
    (hFirst : c.isUpper = true ∨ c.isDigit = true)
    (h : ∀ d ∈ c :: cs, d.isAlphanum = true) :
    IsSettled (snake name) := by
  apply String.toList_injective
  rw [toList_snake, toList_pascal, toList_snake, hChars,
    snakeChars_pascalChars_snakeChars hFirst h]

/- Words of one letter that follow each other are no spelling. -/
example : IsSettled "a_bc" ∧ ¬ IsSettled "a_b_c" := by
  decide

/- The spelling of a name in Pascal case is settled. -/
theorem isSettled_snake_of_isPascal
    {name : String}
    (h : IsPascal name) : IsSettled (snake name) := by
  rcases h.exists_cons with ⟨c, cs, hChars, hFirst, _⟩
  refine isSettled_snake hChars (Or.inl hFirst) ?_
  rw [← hChars]
  exact h.isAlphanum

/- The spelling of the name of a raw text is settled. -/
theorem isSettled_snake_pascal (raw : String) :
    IsSettled (snake (pascal raw)) := by
  have hAlphanum := isAlphanum_of_mem_pascalChars raw.toList
  rcases pascalChars_eq_cons raw.toList with
    ⟨c, cs, hChars, hFirst, _⟩
  rw [hChars] at hAlphanum
  rw [← toList_pascal] at hChars
  exact isSettled_snake hChars hFirst hAlphanum

/-
  A spelling with its leading digit guarded is that of a name with
  the digit guarded.
-/
theorem guardDigit_snake_pascal (raw : String) :
    guardDigit 'n' (snake (pascal raw)) =
      snake (guardDigit 'N' (pascal raw)) := by
  have hAlphanum := isAlphanum_of_mem_pascalChars raw.toList
  rcases pascalChars_eq_cons raw.toList with
    ⟨c, cs, hChars, hFirst, _⟩
  rcases markBoundaries_cons c cs with ⟨ds, hMarked⟩
  rw [hChars] at hAlphanum
  have hSpelled : snakeChars (c :: cs) =
      c.toLower :: ds.map Char.toLower := by
    rw [snakeChars_eq_map hAlphanum, hMarked, List.map_cons]
  apply String.toList_injective
  rw [guardDigit, String.toList_ofList, toList_snake,
    toList_snake, guardDigit, String.toList_ofList,
    toList_pascal, hChars, hSpelled, guardDigitChars,
    guardDigitChars]
  rcases hFirst with hUpper | hDigit
  · have hLower := Text.isLower_toLower hUpper
    rw [if_neg (by simp [isDigit_of_isLower hLower]),
      if_neg (by simp [(isLower_isDigit_of_isUpper hUpper).2]),
      hSpelled]
  · have hUpper := isUpper_of_isDigit hDigit
    have hSmall := toLower_of_not_isUpper
      (Text.isAlphanum_of_isDigit hDigit) hUpper
    have hInside : isBoundary 'N' c cs = false := by
      rw [isBoundary, hUpper, Bool.false_and]
    have hAll : ∀ d ∈ 'N' :: c :: cs, d.isAlphanum = true :=
      List.forall_mem_cons.2 ⟨by decide, hAlphanum⟩
    rw [hSmall, if_pos hDigit, if_pos hDigit,
      snakeChars_eq_map hAll, markBoundaries_of_not hInside,
      hMarked, List.map_cons, List.map_cons, hSmall]
    rfl

/-
  What stays of the names of a raw text when names are derived
  from them.

    * `name`: the name of the name is the name
    * `spelling`: the spelling of the name is settled
    * `argument`: so is the one that a parameter gets, with its
      leading digit guarded
    * `member`: so is the one of each field name that may be given
      out for a key
-/
structure Settles (raw : String) : Prop where
  name : pascal (pascal raw) = pascal raw
  spelling : IsSettled (snake (pascal raw))
  argument : IsSettled (guardDigit 'n' (snake (pascal raw)))
  member : ∀ given,
    IsGivenFor (guardDigit 'N' (pascal raw)) given →
      IsSettled (snake given)

/- Deriving names from derived names changes nothing. -/
theorem settles (raw : String) : Settles raw := by
  have hGuarded := isPascal_guardDigit_pascal raw
  constructor
  case name => exact pascal_pascal raw
  case spelling => exact isSettled_snake_pascal raw
  case argument =>
    rw [guardDigit_snake_pascal]
    exact isSettled_snake_of_isPascal hGuarded
  case member =>
    intro given hGiven
    exact isSettled_snake_of_isPascal
      (hGuarded.of_isGivenFor hGiven)

end Name

end TypedClient
