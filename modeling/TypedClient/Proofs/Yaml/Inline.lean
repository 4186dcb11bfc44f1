import TypedClient.Proofs.Json.Shared
import TypedClient.Proofs.Text.Ascii
import TypedClient.Proofs.Yaml.SharedPlain

/-
  This file says which characters shared JSON texts are made of:
  YAML allows all of them, and outside of white space none of them
  breaks a line.

  Key definitions include:
    * `Yaml.IsInline`

  Key theorems include:
    * `Yaml.isInline_quoted`
    * `Yaml.isWordChar_of_mem_numeral`
    * `Yaml.all_isAllowed_written`
-/

namespace TypedClient

namespace Yaml

open Json (Part Spelling Numeral Gap Key Source Items Members
  Written)

------------------------------------------------------------
-- Characters
------------------------------------------------------------

/- Text of characters that are allowed and break no line. -/
def IsInline (cs : List Char) : Prop :=
  ∀ ch ∈ cs, isAllowed ch = true ∧ isBreak ch = false

theorem IsInline.append
    {cs ds : List Char}
    (h : IsInline cs)
    (hMore : IsInline ds) : IsInline (cs ++ ds) := by
  intro ch hCh
  rcases List.mem_append.1 hCh with hCh | hCh
  · exact h ch hCh
  · exact hMore ch hCh

theorem isInline_cons
    {ch : Char}
    {cs : List Char}
    (hCh : isAllowed ch = true ∧ isBreak ch = false)
    (h : IsInline cs) : IsInline (ch :: cs) := by
  intro d hD
  rcases List.mem_cons.1 hD with rfl | hD
  · exact hCh
  · exact h d hD

/- Letters and digits are inline, and belong to words. -/
theorem inline_of_isAlphanum
    {ch : Char}
    (h : ch.isAlphanum = true) :
    (isAllowed ch = true ∧ isBreak ch = false) ∧
      Scalar.isWordChar ch = true := by
  have hAll : ∀ n : Fin 128,
      (Char.ofNat n.val).isAlphanum = true →
        (isAllowed (Char.ofNat n.val) = true ∧
          isBreak (Char.ofNat n.val) = false) ∧
        Scalar.isWordChar (Char.ofNat n.val) = true := by
    decide
  exact Text.forall_alphanum
    (P := fun c => (isAllowed c = true ∧ isBreak c = false) ∧
      Scalar.isWordChar c = true) hAll h

/- A character of a word is inline. -/
theorem inline_of_isWordChar
    {ch : Char}
    (h : Scalar.isWordChar ch = true) :
    isAllowed ch = true ∧ isBreak ch = false := by
  simp only [Scalar.isWordChar, Bool.or_eq_true,
    decide_eq_true_eq] at h
  rcases h with ((h | rfl) | rfl) | rfl
  · exact (inline_of_isAlphanum h).1
  · decide
  · decide
  · decide

/- A hexadecimal digit is a letter or a digit. -/
theorem isAlphanum_of_hexValue?
    {ch : Char}
    {n : Nat}
    (h : Json.hexValue? (.scalar ch) = some n) :
    ch.isAlphanum = true := by
  unfold Json.hexValue? at h
  dsimp only at h
  split at h
  next hDigit => exact Text.isAlphanum_of_isDigit hDigit
  split at h
  next hLetter =>
    refine Text.isAlphanum_of_isLower ?_
    have hLe : ch.val ≤ 'z'.val := by
      have h102 := UInt32.le_iff_toNat_le.1 hLetter.2
      exact UInt32.le_iff_toNat_le.2 (Nat.le_trans h102 (by decide))
    exact Bool.and_eq_true_iff.2
      ⟨decide_eq_true hLetter.1, decide_eq_true hLe⟩
  split at h
  next hLetter =>
    refine Text.isAlphanum_of_isUpper ?_
    have hLe : ch.val ≤ 'Z'.val := by
      have h70 := UInt32.le_iff_toNat_le.1 hLetter.2
      exact UInt32.le_iff_toNat_le.2 (Nat.le_trans h70 (by decide))
    exact decide_eq_true ⟨hLetter.1, hLe⟩
  next => cases h

------------------------------------------------------------
-- Strings
------------------------------------------------------------

/- A shared part is inline. -/
theorem isInline_part
    {p : Part}
    (h : p.IsShared) : IsInline p.text := by
  have hMark : isAllowed '\\' = true ∧ isBreak '\\' = false := by
    decide
  have hNil : IsInline [] := fun _ hCh => nomatch hCh
  cases p with
  | plain ch hQuote hBack hControl => exact isInline_cons h hNil
  | letter mark value hLetter =>
      refine isInline_cons hMark (isInline_cons ?_ hNil)
      unfold Json.escape? at hLetter
      split at hLetter
      next hCases =>
        rcases hCases with rfl | rfl | rfl
        all_goals decide
      split at hLetter
      next hCase => subst hCase; decide
      split at hLetter
      next hCase => subst hCase; decide
      split at hLetter
      next hCase => subst hCase; decide
      split at hLetter
      next hCase => subst hCase; decide
      split at hLetter
      next hCase => subst hCase; decide
      next => cases hLetter
  | unit a b d e u hUnit =>
      have hU : isAllowed 'u' = true ∧ isBreak 'u' = false := by
        decide
      unfold Json.hexUnit? at hUnit
      split at hUnit
      next i j k l hA hB hD hE =>
        have hHex {ch : Char} {n : Nat}
            (hN : Json.hexValue? (.scalar ch) = some n) :=
          (inline_of_isAlphanum (isAlphanum_of_hexValue? hN)).1
        exact isInline_cons hMark (isInline_cons hU
          (isInline_cons (hHex hA) (isInline_cons (hHex hB)
            (isInline_cons (hHex hD)
              (isInline_cons (hHex hE) hNil)))))
      next => cases hUnit

/- A shared string in quotes is inline. -/
theorem isInline_quoted
    {s : Spelling}
    (h : s.IsShared) : IsInline s.quoted := by
  have hQuote : isAllowed '"' = true ∧ isBreak '"' = false := by
    decide
  have hNil : IsInline [] := fun _ hCh => nomatch hCh
  have hText : IsInline s.text := by
    intro ch hCh
    rcases List.mem_flatMap.1 hCh with ⟨p, hP, hCh⟩
    exact isInline_part (h p hP) ch hCh
  exact (isInline_cons hQuote hText).append
    (isInline_cons hQuote hNil)

------------------------------------------------------------
-- Words and numbers
------------------------------------------------------------

/- A number is made of characters of words. -/
theorem isWordChar_of_mem_numeral
    {n : Numeral}
    {ch : Char}
    (h : ch ∈ n.text) : Scalar.isWordChar ch = true := by
  have hDigits {ds : List Char} (hDs : Json.IsDigits ds)
      (hMem : ch ∈ ds) : Scalar.isWordChar ch = true :=
    (inline_of_isAlphanum
      (Text.isAlphanum_of_isDigit (hDs ch hMem))).2
  have hUnsigned (hMem : ch ∈ n.unsigned) :
      Scalar.isWordChar ch = true := by
    unfold Numeral.unsigned at hMem
    rcases List.mem_append.1 hMem with hMem | hMem
    · exact hDigits n.hWhole hMem
    rcases List.mem_append.1 hMem with hMem | hMem
    · unfold Numeral.fractionText at hMem
      split at hMem
      next => cases hMem
      next =>
        rcases List.mem_cons.1 hMem with rfl | hMem
        · rfl
        · exact hDigits n.hFraction hMem
    · unfold Numeral.exponentText at hMem
      cases hExponent : n.exponent with
      | none =>
          rw [hExponent] at hMem
          cases hMem
      | some e =>
          rw [hExponent] at hMem
          rcases List.mem_cons.1 hMem with rfl | hMem
          · rcases e.hMark with hMark | hMark
            · rw [hMark]
              rfl
            · rw [hMark]
              rfl
          rcases List.mem_append.1 hMem with hMem | hMem
          · rcases e.hSign ch (by simpa using hMem) with rfl | rfl
            · rfl
            · rfl
          · exact hDigits e.hDigits hMem
  unfold Numeral.text at h
  split at h
  next =>
    rcases List.mem_cons.1 h with rfl | h
    · rfl
    · exact hUnsigned h
  next => exact hUnsigned h

theorem isWordChar_of_mem_word
    {w : String}
    (h : w ∈ ["null", "true", "false"])
    {ch : Char}
    (hCh : ch ∈ w.toList) : Scalar.isWordChar ch = true := by
  have hAll : ∀ w ∈ ["null", "true", "false"],
      w.toList.all Scalar.isWordChar = true := by
    decide
  exact List.all_eq_true.1 (hAll w h) ch hCh

------------------------------------------------------------
-- White space
------------------------------------------------------------

/- White space without tabs is blanks and line breaks. -/
theorem isFolded_gap
    {g : Gap}
    (h : g.IsShared) : IsFolded g.chars := by
  intro ch hCh
  have hBlank := g.hBlank ch hCh
  have hTab : ch ≠ '\t' := by
    rintro rfl
    exact h hCh
  simp only [Json.isBlank, Bool.or_eq_true, decide_eq_true_eq]
    at hBlank
  rcases hBlank with ((rfl | rfl) | rfl) | hSame
  · exact Or.inl rfl
  · exact Or.inr (Or.inl rfl)
  · exact Or.inr (Or.inr rfl)
  · exact (hTab hSame).elim

------------------------------------------------------------
-- Whole texts
------------------------------------------------------------

theorem IsInline.all
    {cs : List Char}
    (h : IsInline cs) : cs.all isAllowed = true :=
  List.all_eq_true.2 fun ch hCh => (h ch hCh).1

theorem all_isAllowed_of_word
    {cs : List Char}
    (h : ∀ ch ∈ cs, Scalar.isWordChar ch = true) :
    cs.all isAllowed = true :=
  List.all_eq_true.2 fun ch hCh =>
    (inline_of_isWordChar (h ch hCh)).1

theorem all_isAllowed_gap (g : Gap) :
    g.chars.all isAllowed = true := by
  refine List.all_eq_true.2 fun ch hCh => ?_
  have hBlank := g.hBlank ch hCh
  simp only [Json.isBlank, Bool.or_eq_true, decide_eq_true_eq]
    at hBlank
  rcases hBlank with ((rfl | rfl) | rfl) | rfl
  all_goals decide

theorem all_isAllowed_key
    {k : Key}
    (h : k.IsShared) : k.text.all isAllowed = true := by
  have hColon : isAllowed ':' = true := by decide
  simp [Key.text, (isInline_quoted h.spelling).all,
    all_isAllowed_gap, hColon]

theorem isAllowed_marks :
    isAllowed '[' = true ∧ isAllowed ']' = true ∧
      isAllowed '{' = true ∧ isAllowed '}' = true ∧
        isAllowed ',' = true := by
  decide

mutual

/- A shared value is made of allowed characters. -/
theorem all_isAllowed_source
    {v : Source}
    (h : v.IsShared) : v.text.all isAllowed = true := by
  cases v with
  | word w hWord =>
      exact all_isAllowed_of_word fun ch => isWordChar_of_mem_word h
  | number n =>
      exact all_isAllowed_of_word fun ch => isWordChar_of_mem_numeral
  | string s => exact (isInline_quoted h).all
  | emptyArray g =>
      simp [Source.text, all_isAllowed_gap, isAllowed_marks]
  | array g v others =>
      simp [Source.text, all_isAllowed_gap, isAllowed_marks,
        all_isAllowed_source h.2.1, all_isAllowed_items h.2.2]
  | emptyObject g =>
      simp [Source.text, all_isAllowed_gap, isAllowed_marks]
  | object g k v others =>
      simp [Source.text, all_isAllowed_gap, isAllowed_marks,
        all_isAllowed_key h.2.1, all_isAllowed_source h.2.2.1,
        all_isAllowed_members h.2.2.2]

theorem all_isAllowed_items
    {i : Items}
    (h : i.IsShared) : i.text.all isAllowed = true := by
  cases i with
  | nil g => simp [Items.text, all_isAllowed_gap, isAllowed_marks]
  | cons g a v others =>
      simp [Items.text, all_isAllowed_gap, isAllowed_marks,
        all_isAllowed_source h.2.2.1, all_isAllowed_items h.2.2.2]

theorem all_isAllowed_members
    {m : Members}
    (h : m.IsShared) : m.text.all isAllowed = true := by
  cases m with
  | nil g => simp [Members.text, all_isAllowed_gap, isAllowed_marks]
  | cons g a k v others =>
      simp [Members.text, all_isAllowed_gap, isAllowed_marks,
        all_isAllowed_key h.2.2.1, all_isAllowed_source h.2.2.2.1,
        all_isAllowed_members h.2.2.2.2]

end

/- YAML allows all characters of a shared text. -/
theorem all_isAllowed_written
    {w : Written}
    (h : w.IsShared) : w.text.all isAllowed = true := by
  simp [Written.text, all_isAllowed_gap,
    all_isAllowed_source h.source]

end Yaml

end TypedClient
