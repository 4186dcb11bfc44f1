import TypedClient.Proofs.Name.Form
import TypedClient.Proofs.Name.Registry

/-
  This file shows that names keep their form when a registry
  gives them out, and describes the attributes that are given
  out for fields and the arguments for parameters.

  Key definitions include:
    * `Name.IsMarkedFor`

  Key theorems include:
    * `Name.isSnake_ofField`
    * `Name.ofField_not_mem`
    * `Name.isSnake_ofParameter`
    * `Name.ofParameter_not_mem`
    * `Name.isMarkedFor_of_startsWith`
-/

namespace TypedClient

namespace Name

------------------------------------------------------------
-- Given names
------------------------------------------------------------

theorem IsPascal.of_isGivenFor
    {name given : String}
    (h : IsPascal name)
    (hGiven : IsGivenFor name given) : IsPascal given := by
  rcases hGiven with rfl | ⟨k, rfl⟩
  · exact h
  · exact h.numbered k

theorem IsSnake.of_isGivenFor
    {name given : String}
    (h : IsSnake name)
    (hGiven : IsGivenFor name given) : IsSnake given := by
  rcases hGiven with rfl | ⟨k, rfl⟩
  · exact h
  · exact h.numbered k

theorem not_mem_of_isGivenFor
    {words : List String}
    {name given : String}
    (hWords : EndSmall words)
    (h : name ∉ words)
    (hGiven : IsGivenFor name given) : given ∉ words := by
  rcases hGiven with rfl | ⟨k, rfl⟩
  · exact h
  · exact numbered_not_mem hWords name k

------------------------------------------------------------
-- Attributes
------------------------------------------------------------

/- The attribute of a field is in snake case. -/
theorem isSnake_ofField
    {field : String}
    (h : IsPascal field) : IsSnake (ofField field) := by
  simp only [ofField]
  split
  · exact (isSnake_snake h).append
      (List.all_eq_true.1 (by decide))
  · exact isSnake_avoid (isSnake_snake h) _

/- The attribute of a field is no keyword and not reserved. -/
theorem ofField_not_mem (field : String) :
    ofField field ∉ keywords ∧
      ofField field ∉ reservedAttributes := by
  simp only [ofField]
  split
  · exact
      ⟨underscored_not_mem endSmall_keywords _,
        underscored_not_mem endSmall_reservedAttributes _⟩
  · exact avoid_not_mem endSmall_reservedAttributes _

------------------------------------------------------------
-- Arguments
------------------------------------------------------------

/- The spelling of letters and digits is text of snake case. -/
theorem isSnakeChar_of_mem_snakeChars
    {cs : List Char}
    (h : ∀ c ∈ cs, c.isAlphanum = true)
    {d : Char}
    (hd : d ∈ snakeChars cs) : isSnakeChar d = true := by
  rw [snakeChars_eq_map h] at hd
  rcases List.mem_map.1 hd with ⟨c, hc, rfl⟩
  rcases mem_markBoundaries hc with hc | rfl
  · rcases Text.isLower_or_isDigit_toLower (h c hc) with h | h
    · simp [isSnakeChar, h]
    · simp [isSnakeChar, h]
  · decide

/-
  With its leading digit guarded, the spelling of a raw text is in
  snake case.
-/
theorem isSnake_guardDigit_snake (raw : String) :
    IsSnake (guardDigit 'n' (snake (pascal raw))) := by
  rcases pascalChars_eq_cons raw.toList with
    ⟨c, cs, hChars, hFirst, hRest⟩
  have hFirstAlphanum : c.isAlphanum = true := by
    rcases hFirst with h | h
    · exact Text.isAlphanum_of_isUpper h
    · exact Text.isAlphanum_of_isDigit h
  have hAlphanum : ∀ d ∈ c :: cs, d.isAlphanum = true :=
    List.forall_mem_cons.2 ⟨hFirstAlphanum, hRest⟩
  have hForm : ∀ d ∈ snakeChars (c :: cs),
      isSnakeChar d = true :=
    fun d hd => isSnakeChar_of_mem_snakeChars hAlphanum hd
  rcases markBoundaries_cons c cs with ⟨ds, hMarked⟩
  have hSpelled : snakeChars (c :: cs) =
      c.toLower :: ds.map Char.toLower := by
    rw [snakeChars_eq_map hAlphanum, hMarked, List.map_cons]
  rw [hSpelled] at hForm
  refine ⟨?_⟩
  rw [guardDigit, snake, pascal, String.toList_ofList,
    String.toList_ofList, String.toList_ofList, hChars, hSpelled,
    guardDigitChars]
  split
  next hDigit => exact ⟨by decide, hForm⟩
  next hNoDigit =>
    have hLower := (Text.isLower_or_isDigit_toLower
      hFirstAlphanum).resolve_right hNoDigit
    exact ⟨hLower, fun d hd =>
      hForm d (List.mem_cons_of_mem _ hd)⟩

/- The argument for a parameter is in snake case. -/
theorem isSnake_ofParameter (raw : String) :
    IsSnake (ofParameter raw) := by
  simp only [ofParameter]
  split
  · exact (isSnake_guardDigit_snake raw).append
      (List.all_eq_true.1 (by decide))
  · exact isSnake_guardDigit_snake raw

/- No reserved word ends in the mark of a parameter. -/
theorem not_isSuffix_param :
    ∀ w ∈ keywords ++ reservedParameters,
      ¬ "_param".toList <:+ w.toList := by
  decide

theorem endSmall_reservedParameters :
    EndSmall reservedParameters := by
  decide

/- The argument for a parameter is no keyword and not reserved. -/
theorem ofParameter_not_mem (raw : String) :
    ofParameter raw ∉ keywords ∧
      ofParameter raw ∉ reservedParameters := by
  rw [← not_or, ← List.mem_append]
  simp only [ofParameter]
  split
  · intro hMem
    apply not_isSuffix_param _ hMem
    rw [String.toList_append]
    exact List.suffix_append _ _
  · next hFree => exact hFree ∘ List.mem_append.1

/-
  An argument that may be given for a parameter: it is in snake
  case, and it is no keyword and not reserved.
-/
theorem isSnake_of_isGivenFor_ofParameter
    {raw given : String}
    (h : IsGivenFor (ofParameter raw) given) :
    IsSnake given ∧ given ∉ keywords ∧
      given ∉ reservedParameters :=
  ⟨(isSnake_ofParameter raw).of_isGivenFor h,
    not_mem_of_isGivenFor endSmall_keywords
      (ofParameter_not_mem raw).1 h,
    not_mem_of_isGivenFor endSmall_reservedParameters
      (ofParameter_not_mem raw).2 h⟩

------------------------------------------------------------
-- Marks
------------------------------------------------------------

/-
  An attribute that is kept clear of those of a model: behind
  the spelling of the field stand an underscore and, where it
  was given out before, a number.
-/
def IsMarkedFor (field attr : String) : Prop :=
  ∃ count : Option Nat,
    attr = snake field ++ "_" ++ (count.map Nat.repr).getD ""

theorem isMarkedFor_of_isGivenFor
    {field attr : String}
    (h : IsGivenFor (snake field ++ "_") attr) :
    IsMarkedFor field attr := by
  rcases h with rfl | ⟨k, rfl⟩
  · exact ⟨none, (String.append_empty).symm⟩
  · exact ⟨some k, rfl⟩

/- A start with its last character not behind it is in front. -/
theorem prefix_of_prefix_append
    {start front behind : List Char}
    {c : Char}
    (h : start ++ [c] <+: front ++ behind)
    (hc : c ∉ behind) : start ++ [c] <+: front := by
  rcases List.prefix_or_prefix_of_prefix h
      (List.prefix_append front behind) with hStart | hFront
  · exact hStart
  · rcases List.prefix_concat_iff.1 hFront with hEq | hShort
    · exact hEq ▸ List.prefix_rfl
    · -- the last character of the start lies behind `front`
      rcases hShort with ⟨more, rfl⟩
      rw [List.append_assoc, List.prefix_append_right_inj] at h
      have hMem : c ∈ more ++ [c] := by simp
      exact (hc (h.subset hMem)).elim

/- A number does not bring the mark of a model about. -/
theorem startsWith_of_numbered
    {name : String}
    {k : Nat}
    (h : (numbered name k).startsWith modelMark = true) :
    name.startsWith modelMark = true := by
  have hMark : modelMark.toList = "model".toList ++ ['_'] := by
    decide
  rw [String.startsWith_string_iff, hMark] at h ⊢
  rw [numbered, String.toList_append] at h
  refine prefix_of_prefix_append h fun hMem => ?_
  exact absurd (isDigit_of_mem_repr hMem) (by decide)

/- An attribute with the mark of a model is kept clear of it. -/
theorem isMarkedFor_of_startsWith
    {field attr : String}
    (hGiven : IsGivenFor (ofField field) attr)
    (h : attr.startsWith modelMark = true) :
    IsMarkedFor field attr := by
  simp only [ofField] at hGiven
  split at hGiven
  · exact isMarkedFor_of_isGivenFor hGiven
  next hPlain =>
    unfold avoid at hGiven
    split at hGiven
    · exact isMarkedFor_of_isGivenFor hGiven
    · rcases hGiven with rfl | ⟨k, rfl⟩
      · exact (hPlain h).elim
      · exact (hPlain (startsWith_of_numbered h)).elim

end Name

end TypedClient
