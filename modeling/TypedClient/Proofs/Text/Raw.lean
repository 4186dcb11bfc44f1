import TypedClient.Text.CodePoint

/-
  This file ties raw text to strings.  A text is a string unless
  a surrogate stands in it, and characters are put together as
  the texts are that they make up.

  Key theorems include:
    * `RawText.toChars?_eq_some_iff`
    * `RawText.toChars?_eq_none_iff`
    * `RawText.mem_ofString`
    * `RawText.blanked_ofString`
-/

namespace TypedClient

namespace RawText

variable {s t : String}
variable {cs : List Char}

------------------------------------------------------------
-- Texts without surrogates
------------------------------------------------------------

@[simp]
theorem toChars?_ofChars (cs : List Char) :
    toChars? (ofChars cs) = some cs := by
  unfold toChars? ofChars
  induction cs with
  | nil => rfl
  | cons c cs ih => simp [ih, CodePoint.toChar?]

@[simp]
theorem toString?_ofString (s : String) :
    toString? (ofString s) = some s := by
  rw [toString?, ofString, toChars?_ofChars, Option.map_some,
    String.ofList_toList]

/- Only the text of characters has these characters. -/
theorem toChars?_eq_some_iff
    {t : RawText} : toChars? t = some cs ↔ t = ofChars cs := by
  constructor
  · intro h
    induction t generalizing cs with
    | nil =>
        cases h
        rfl
    | cons p ps ih =>
        cases p with
        | surrogate k => simp [toChars?, CodePoint.toChar?] at h
        | scalar c =>
            rw [toChars?, List.mapM_cons] at h
            rcases Option.bind_eq_some_iff.1 h with ⟨d, hd, hRest⟩
            rcases Option.bind_eq_some_iff.1 hRest with
              ⟨ds, hds, hBoth⟩
            cases hd
            cases hBoth
            rw [ih hds]
            rfl
  · rintro rfl
    exact toChars?_ofChars cs

/- A text has no characters if a surrogate stands in it. -/
theorem toChars?_eq_none_iff
    {t : RawText} :
    toChars? t = none ↔ ∃ k, .surrogate k ∈ t := by
  induction t with
  | nil => simp [toChars?]
  | cons p ps ih =>
      cases p with
      | surrogate k =>
          simp [toChars?, CodePoint.toChar?]
      | scalar c =>
          rw [toChars?] at ih ⊢
          cases hRest : List.mapM CodePoint.toChar? ps with
          | none =>
              rw [hRest] at ih
              simpa [List.mapM_cons, CodePoint.toChar?, hRest]
                using ih.1 rfl
          | some ds =>
              rw [hRest] at ih
              simpa [List.mapM_cons, CodePoint.toChar?, hRest]
                using ih

------------------------------------------------------------
-- Parts of texts
------------------------------------------------------------

theorem ofString_append (s t : String) :
    ofString (s ++ t) = ofString s ++ ofString t := by
  simp [ofString, ofChars, String.toList_append]

theorem ofString_ofList (cs : List Char) :
    ofString (String.ofList cs) = ofChars cs := by
  rw [ofString, String.toList_ofList]

/- The code points of a string are its characters. -/
theorem mem_ofString
    {p : CodePoint} :
    p ∈ ofString s ↔ ∃ c ∈ s.toList, p = .scalar c := by
  unfold ofString ofChars
  rw [List.mem_map]
  exact exists_congr fun c => and_congr_right' eq_comm

@[simp]
theorem scalar_mem_ofString
    {c : Char} : .scalar c ∈ ofString s ↔ c ∈ s.toList := by
  rw [mem_ofString]
  constructor
  · rintro ⟨d, hd, hEq⟩
    exact CodePoint.scalar.inj hEq ▸ hd
  · exact fun h => ⟨c, h, rfl⟩

theorem ofString_injective
    (h : ofString s = ofString t) : s = t := by
  have hStrings := congrArg toString? h
  rw [toString?_ofString, toString?_ofString] at hStrings
  exact Option.some.inj hStrings

/- No surrogate of a string is blanked, for there is none. -/
@[simp]
theorem blanked_ofString (s : String) :
    blanked (ofString s) = s := by
  simp [blanked, ofString, ofChars, Function.comp_def,
    CodePoint.toChar?]

end RawText

end TypedClient
