import TypedClient.Proofs.Text.Pattern
import TypedClient.Proofs.Text.Raw
import TypedClient.Proofs.Yaml.Inline
import TypedClient.Yaml.Tag

/-
  This file shows which types plain scalars get that are JSON
  numbers or words: integers, numbers with a point, truth values
  and null.

  Key theorems include:
    * `Yaml.Tag.ofPlain_integer`
    * `Yaml.Tag.ofPlain_fraction`
-/

namespace TypedClient

namespace Yaml

namespace Tag

open Json (Numeral)
open Text (Pattern)

------------------------------------------------------------
-- Types of text
------------------------------------------------------------

/- The first type is taken whose pattern matches. -/
theorem ofPlain_chars
    {cs : List Char}
    (h : '\n' ∉ cs) :
    ofPlain (RawText.ofChars cs) =
      ((plainTypes.find? fun p => p.1.accepts cs).map (·.2)).getD
        .str := by
  have hEnd : dropLineFeed cs = cs := by
    refine if_neg fun hLast => h ?_
    exact List.mem_of_getLast? hLast
  unfold ofPlain
  rw [RawText.toChars?_ofChars]
  dsimp only
  rw [hEnd]
  cases plainTypes.find? fun p => p.1.accepts cs with
  | none => rfl
  | some p => rfl

------------------------------------------------------------
-- Patterns that do not match numbers
------------------------------------------------------------

theorem exists_word
    {ws : List String}
    {cs : List Char}
    (h : (wordsPattern ws).Matches cs) :
    ∃ w ∈ ws, cs = w.toList := by
  rcases (Pattern.matches_any_iff _ cs).1 h with ⟨a, hA, hMatches⟩
  rcases List.mem_map.1 hA with ⟨w, hW, rfl⟩
  exact ⟨w, hW, Pattern.eq_of_matches_word hMatches⟩

/- A number is no truth value. -/
theorem not_bool_numeral (n : Numeral) :
    boolPattern.accepts n.text = false := by
  refine Bool.eq_false_iff.2 fun hAccepts => ?_
  rcases exists_word ((Pattern.accepts_iff _ _).1 hAccepts) with
    ⟨w, hW, hText⟩
  have hLetters : ∀ w ∈ ["yes", "Yes", "YES", "no", "No", "NO",
      "true", "True", "TRUE", "false", "False", "FALSE", "on", "On",
      "ON", "off", "Off", "OFF"],
      w.toList.head?.all (fun c => !c.isDigit && c != '-') = true := by
    decide
  have hHead := hLetters w hW
  rw [← hText] at hHead
  rcases n.text_cases with ⟨c, cs, hDigit, hCases⟩
  rcases hCases with ⟨-, hCases⟩ | ⟨-, hCases⟩
  · rw [hCases] at hHead
    simp [hDigit] at hHead
  · rw [hCases] at hHead
    cases hHead

theorem point_of_float
    {cs : List Char}
    (h : floatPattern.Matches cs) : '.' ∈ cs := by
  rcases (Pattern.matches_any_iff _ cs).1 h with ⟨a, hA, hMatches⟩
  simp only [List.mem_cons, List.not_mem_nil, or_false] at hA
  rcases hA with rfl | rfl | rfl | rfl | rfl
  all_goals exact Pattern.mem_of_matches_all (by simp) hMatches

theorem text_eq (n : Numeral) :
    n.text = (if n.negative then ['-'] else []) ++ n.unsigned := by
  unfold Numeral.text
  split
  next => rfl
  next => rfl

theorem unsigned_integer
    {n : Numeral}
    (h : n.IsInteger) : n.unsigned = n.whole := by
  unfold Numeral.unsigned
  rw [h.1, h.2]
  simp [Numeral.fractionText, Numeral.exponentText]

/- An integer has no point. -/
theorem not_float_integer
    {n : Numeral}
    (h : n.IsInteger) : floatPattern.accepts n.text = false := by
  refine Bool.eq_false_iff.2 fun hAccepts => ?_
  have hPoint := point_of_float ((Pattern.accepts_iff _ _).1 hAccepts)
  rw [text_eq, unsigned_integer h] at hPoint
  rcases List.mem_append.1 hPoint with hSign | hWhole
  · split at hSign
    next => cases List.mem_singleton.1 hSign
    next => cases hSign
  · cases n.hWhole '.' hWhole

theorem lineFeed_not_mem (n : Numeral) : '\n' ∉ n.text := fun h => by
  cases isWordChar_of_mem_numeral h

------------------------------------------------------------
-- Patterns that match numbers
------------------------------------------------------------

theorem matches_sign (negative : Bool) :
    signPattern.Matches (if negative then ['-'] else []) := by
  cases negative with
  | true => exact .right (.one (by decide))
  | false => exact .left .empty

/- A digit is one of ten, and it is no zero if it is not the first. -/
theorem digit_cases
    {c : Char}
    (h : c.isDigit = true) :
    (c ∈ "0123456789_".toList) ∧
      (c ≠ '0' → c ∈ "123456789".toList) :=
  Text.forall_alphanum
    (P := fun c => c.isDigit = true →
      (c ∈ "0123456789_".toList) ∧
        (c ≠ '0' → c ∈ "123456789".toList))
    (by decide) (Text.isAlphanum_of_isDigit h) h

theorem matches_digits
    {ds : List Char}
    (h : Json.IsDigits ds) : digitsPattern.Matches ds :=
  Pattern.matches_star_of_forall fun c hC =>
    decide_eq_true (digit_cases (h c hC)).1

/- The digits of a JSON integer are those of a YAML integer. -/
theorem matches_integer
    {n : Numeral}
    (h : n.IsInteger) : intPattern.Matches n.text := by
  rw [text_eq, unsigned_integer h]
  refine .seq (matches_sign n.negative) ?_
  rcases n.hFirst with hZero | ⟨c, cs, hWhole, hNonzero⟩
  · rw [hZero]
    exact (Pattern.matches_any_iff _ _).2
      ⟨.char '0', by simp, Pattern.matches_char '0'⟩
  · have hDigits := n.hWhole
    rw [hWhole] at hDigits ⊢
    have hFirst := (digit_cases (hDigits c List.mem_cons_self)).2
      hNonzero
    have hOthers : Json.IsDigits cs := fun d hD =>
      hDigits d (List.mem_cons_of_mem c hD)
    refine (Pattern.matches_any_iff _ _).2
      ⟨.seq (.oneOf "123456789") digitsPattern, by simp, ?_⟩
    have hOne : (Pattern.oneOf "123456789").Matches [c] :=
      .one (decide_eq_true hFirst)
    exact .seq hOne (matches_digits hOthers)

/- The exponent of a shared number is one of YAML. -/
theorem matches_exponent
    {n : Numeral}
    (h : n.IsShared) :
    exponentPattern.Matches (Numeral.exponentText n.exponent) := by
  cases hExponent : n.exponent with
  | none => exact .left .empty
  | some e =>
      have hSigned := (h e hExponent).2
      rcases Option.isSome_iff_exists.1 hSigned with ⟨s, hSign⟩
      have hMark : e.mark ∈ "eE".toList := by
        rcases e.hMark with hMark | hMark
        · rw [hMark]
          decide
        · rw [hMark]
          decide
      have hOne : s ∈ "-+".toList := by
        rcases e.hSign s hSign with rfl | rfl
        · decide
        · decide
      cases hDigits : e.digits with
      | nil => exact (e.hNonempty hDigits).elim
      | cons d ds =>
          have hAll := e.hDigits
          rw [hDigits] at hAll
          have hText : Numeral.exponentText (some e) =
              [e.mark] ++ ([s] ++ ([d] ++ ds)) := by
            simp [Numeral.exponentText, Json.Exponent.text, hSign,
              hDigits]
          rw [hText]
          refine .right (.seq (.one (decide_eq_true hMark))
            (.seq (.one (decide_eq_true hOne))
              (.seq (.one (hAll d List.mem_cons_self)) ?_)))
          exact Pattern.matches_star_of_forall fun c hC =>
            hAll c (List.mem_cons_of_mem d hC)

/- A shared number with a point is one of YAML. -/
theorem matches_fraction
    {n : Numeral}
    (hShared : n.IsShared)
    (h : n.fraction ≠ []) : floatPattern.Matches n.text := by
  refine (Pattern.matches_any_iff _ _).2 ⟨.all [signPattern,
    wholePattern, .char '.', digitsPattern, exponentPattern],
    by simp, ?_⟩
  cases hWhole : n.whole with
  | nil =>
      rcases n.hFirst with hZero | ⟨c, cs, hCons, -⟩
      · rw [hZero] at hWhole
        cases hWhole
      · rw [hCons] at hWhole
        cases hWhole
  | cons d ds =>
      have hAll := n.hWhole
      rw [hWhole] at hAll
      have hOthers : Json.IsDigits ds := fun c hC =>
        hAll c (List.mem_cons_of_mem d hC)
      have hText : n.text = (if n.negative then ['-'] else []) ++
          (([d] ++ ds) ++ (['.'] ++ (n.fraction ++
            Numeral.exponentText n.exponent))) := by
        rw [text_eq, Numeral.unsigned, hWhole,
          Numeral.fractionText, if_neg h]
        simp
      rw [hText]
      exact .seq (matches_sign n.negative)
        (.seq (.seq (.one (hAll d List.mem_cons_self))
          (matches_digits hOthers))
          (.seq (Pattern.matches_char '.')
            (.seq (matches_digits n.hFraction)
              (matches_exponent hShared))))

------------------------------------------------------------
-- Types of numbers and words
------------------------------------------------------------

/- A JSON integer gets the type of integers. -/
theorem ofPlain_integer
    {n : Numeral}
    (h : n.IsInteger) :
    ofPlain (RawText.ofChars n.text) = .int := by
  have hInt := (Pattern.accepts_iff _ _).2 (matches_integer h)
  rw [ofPlain_chars (lineFeed_not_mem n)]
  simp [plainTypes, not_bool_numeral, not_float_integer h, hInt]

/- A shared number with a point gets the type of such numbers. -/
theorem ofPlain_fraction
    {n : Numeral}
    (hShared : n.IsShared)
    (h : n.fraction ≠ []) :
    ofPlain (RawText.ofChars n.text) = .float := by
  have hFloat :=
    (Pattern.accepts_iff _ _).2 (matches_fraction hShared h)
  rw [ofPlain_chars (lineFeed_not_mem n)]
  simp [plainTypes, not_bool_numeral, hFloat]

theorem ofPlain_word :
    ofPlain (RawText.ofChars "null".toList) = .null ∧
      ofPlain (RawText.ofChars "true".toList) = .bool ∧
        ofPlain (RawText.ofChars "false".toList) = .bool := by
  decide

end Tag

end Yaml

end TypedClient
