import TypedClient.Proofs.Yaml.SharedTag
import TypedClient.Yaml.Read

/-
  This file shows that the numbers and words that are shared have
  the same values in YAML as in JSON.

  Key theorems include:
    * `Double.neg_ofDecimal`
    * `Yaml.Value.int_numeral`
    * `Yaml.Value.float_numeral`
    * `Yaml.scalarValue_numeral`
-/

namespace TypedClient

------------------------------------------------------------
-- Signs
------------------------------------------------------------

/- The opposite of a quotient is that of the other sign. -/
theorem Double.neg_ofRatio (num den : Nat) :
    (Double.ofRatio false num den).neg =
      Double.ofRatio true num den := by
  unfold Double.ofRatio
  split
  next => rfl
  next =>
    dsimp only
    unfold Double.assemble
    dsimp only
    rw [apply_ite Double.neg]
    rfl

/- The opposite of a decimal number is that of the other sign. -/
theorem Double.neg_ofDecimal (digits : Nat) (e : Int) :
    (Double.ofDecimal false digits e).neg =
      Double.ofDecimal true digits e := by
  unfold Double.ofDecimal
  split
  next => rfl
  split
  next => rfl
  split
  next => rfl
  next => exact Double.neg_ofRatio _ _

namespace Yaml

namespace Value

open Json (Numeral IsDigits digitValues)

------------------------------------------------------------
-- Digits
------------------------------------------------------------

/- An ASCII digit has its value in every reader. -/
theorem digit_value
    {c : Char}
    (h : c.isDigit = true) :
    Text.decimalValue? c = some (c.toNat - 48) ∧
      digit? 10 c = some (c.toNat - 48) ∧
        c.toLower = c ∧ Text.isBlank c = false :=
  Text.forall_alphanum
    (P := fun c => c.isDigit = true →
      Text.decimalValue? c = some (c.toNat - 48) ∧
        digit? 10 c = some (c.toNat - 48) ∧
          c.toLower = c ∧ Text.isBlank c = false)
    (by decide) (Text.isAlphanum_of_isDigit h) h

/- Digits are taken up to what is none. -/
theorem takeDigits_digits
    {ds rest : List Char}
    (h : IsDigits ds)
    (hRest : takeDigits rest = ([], rest)) :
    takeDigits (ds ++ rest) = (digitValues ds, rest) := by
  induction ds with
  | nil => exact hRest
  | cons d ds ih =>
      have hOthers : IsDigits ds := fun c hC =>
        h c (List.mem_cons_of_mem d hC)
      rw [List.cons_append, takeDigits,
        (digit_value (h d List.mem_cons_self)).1]
      dsimp only
      rw [ih hOthers]
      rfl

/- All digits have values. -/
theorem mapM_digit?
    {ds : List Char}
    (h : IsDigits ds) :
    ds.mapM (digit? 10) = some (digitValues ds) := by
  induction ds with
  | nil => rfl
  | cons d ds ih =>
      have hOthers : IsDigits ds := fun c hC =>
        h c (List.mem_cons_of_mem d hC)
      rw [List.mapM_cons,
        (digit_value (h d List.mem_cons_self)).2.1, ih hOthers]
      rfl

/- There is no white space around text that has none. -/
theorem trimmed_of_not_blank
    {cs : List Char}
    (h : ∀ c ∈ cs, Text.isBlank c = false) : trimmed cs = cs := by
  have hDrop (ds : List Char)
      (hDs : ∀ c ∈ ds, Text.isBlank c = false) :
      ds.dropWhile Text.isBlank = ds := by
    cases ds with
    | nil => rfl
    | cons c ds =>
        exact List.dropWhile_cons_of_neg
          (by simp [hDs c List.mem_cons_self])
  unfold trimmed Text.trimEnd
  rw [hDrop cs h, hDrop _ fun c hC => h c (List.mem_reverse.1 hC),
    List.reverse_reverse]

/- A sign is split off where there is none. -/
theorem splitSign_digit
    {c : Char}
    (h : c.isDigit = true)
    (cs : List Char) : splitSign (c :: cs) = (false, c :: cs) := by
  unfold splitSign
  split
  next hCons =>
    cases hCons
    cases h
  next hCons =>
    cases hCons
    cases h
  next => rfl

------------------------------------------------------------
-- Integers
------------------------------------------------------------

/- Decimal digits that do not start with a zero are a number. -/
theorem number_digits
    {c : Char}
    {cs : List Char}
    (h : IsDigits (c :: cs))
    (hNonzero : c ≠ '0')
    (hLength : (c :: cs).length ≤ Json.maxDigits) :
    number 10 (c :: cs) =
      .ok (Json.ofDigits (digitValues (c :: cs)) : Nat) := by
  have hTrimmed : trimmed (c :: cs) = c :: cs :=
    trimmed_of_not_blank fun d hD => (digit_value (h d hD)).2.2.2
  have hMark : dropMark 10 (c :: cs) = c :: cs := by
    unfold dropMark
    split
    next hCons => exact (hNonzero (List.cons.inj hCons).1).elim
    next => rfl
  have hValues : (digitValues (c :: cs)).length ≤ 4300 := by
    rw [digitValues, List.length_map]
    exact hLength
  have hFits : ¬ ((digitValues (c :: cs)).isEmpty ||
      (10 = 10 && decide (4300 < (digitValues (c :: cs)).length))) =
        true := by
    have hEmpty : (digitValues (c :: cs)).isEmpty = false := rfl
    have hLong : decide (4300 < (digitValues (c :: cs)).length) =
        false := decide_eq_false (Nat.not_lt.2 hValues)
    rw [hEmpty, hLong]
    decide
  unfold number
  rw [hTrimmed, splitSign_digit (h c List.mem_cons_self)]
  dsimp only
  rw [hMark, mapM_digit? h]
  dsimp only
  rw [if_neg hFits]
  rfl

/- The size of a JSON integer is read. -/
theorem magnitude_whole
    {n : Numeral}
    (hInteger : n.IsInteger)
    (hFits : n.Fits) :
    magnitude n.whole =
      .ok (Json.ofDigits (digitValues n.whole) : Nat) := by
  rcases n.hFirst with hZero | ⟨c, cs, hWhole, hNonzero⟩
  · rw [hZero]
    rfl
  · have hDigits := n.hWhole
    have hLength := hFits hInteger
    rw [hWhole] at hDigits hLength ⊢
    have hColon : ':' ∉ c :: cs := fun hMem => by
      cases hDigits ':' hMem
    unfold magnitude
    split
    next hCons => cases hCons
    next hCons => exact (hNonzero (List.cons.inj hCons).1).elim
    next hCons => exact (hNonzero (List.cons.inj hCons).1).elim
    next hCons => exact (hNonzero (List.cons.inj hCons).1).elim
    next hCons => exact (hNonzero (List.cons.inj hCons).1).elim
    next =>
      rw [if_neg hColon]
      exact number_digits hDigits hNonzero hLength

/- A sign is split off a number. -/
theorem splitSign_text
    {cs : List Char}
    {c : Char}
    (h : c.isDigit = true)
    (negative : Bool) :
    signedDigits ((if negative then ['-'] else []) ++ c :: cs) =
      .ok (negative, c :: cs) := by
  cases negative with
  | true => rfl
  | false =>
      change Except.ok (splitSign (c :: cs)) = _
      rw [splitSign_digit h]

theorem exists_unsigned (n : Numeral) :
    ∃ c cs, c.isDigit = true ∧ n.unsigned = c :: cs := by
  rcases n.text_cases with ⟨c, cs, hDigit, ⟨hSign, hText⟩ |
    ⟨hSign, hText⟩⟩
  · rw [Tag.text_eq, hSign] at hText
    exact ⟨c, cs, hDigit, hText⟩
  · rw [Tag.text_eq, hSign] at hText
    exact ⟨c, cs, hDigit, (List.cons.inj hText).2⟩

theorem filter_text (n : Numeral) :
    n.text.filter (· ≠ '_') = n.text := by
  refine List.filter_eq_self.2 fun c hC => decide_eq_true ?_
  rintro rfl
  cases isWordChar_of_mem_numeral hC

/- A JSON integer has the same value in YAML. -/
theorem int_numeral
    {n : Numeral}
    (hInteger : n.IsInteger)
    (hFits : n.Fits) :
    int n.text = .ok (.int (Double.signed n.negative
      (Json.ofDigits (digitValues n.whole)))) := by
  rcases exists_unsigned n with ⟨c, cs, hDigit, hUnsigned⟩
  have hWhole := Tag.unsigned_integer hInteger
  have hMagnitude := magnitude_whole hInteger hFits
  rw [← hWhole, hUnsigned] at hMagnitude ⊢
  unfold int
  rw [filter_text, Tag.text_eq, hUnsigned, splitSign_text hDigit]
  change (magnitude (c :: cs) >>= fun m =>
    Except.ok (Document.int (if n.negative then -m else m))) = _
  rw [hMagnitude]
  rfl

------------------------------------------------------------
-- Numbers with a point
------------------------------------------------------------

/- What the readers of numbers look for in a character. -/
theorem lower_of_isWordChar
    {c : Char}
    (h : Scalar.isWordChar c = true) :
    Text.isBlank c.toLower = false ∧ c.toLower ≠ ':' := by
  simp only [Scalar.isWordChar, Bool.or_eq_true,
    decide_eq_true_eq] at h
  rcases h with ((h | rfl) | rfl) | rfl
  · exact Text.forall_alphanum
      (P := fun c => Text.isBlank c.toLower = false ∧
        c.toLower ≠ ':') (by decide) h
  · decide
  · decide
  · decide

theorem lowered_digits
    {ds : List Char}
    (h : IsDigits ds) : lowered ds = ds := by
  refine (List.map_congr_left fun c hC => ?_).trans (List.map_id ds)
  exact (digit_value (h c hC)).2.2.1

/- The exponent of a shared number in small letters. -/
def smallExponent (n : Numeral) : List Char :=
  lowered (Numeral.exponentText n.exponent)

/- What is behind the sign of a number, in small letters. -/
theorem lowered_unsigned
    {n : Numeral}
    (h : n.fraction ≠ []) :
    lowered n.unsigned = n.whole ++ '.' ::
      (n.fraction ++ smallExponent n) := by
  have hText : n.unsigned = n.whole ++ ('.' :: n.fraction ++
      Numeral.exponentText n.exponent) := by
    rw [Numeral.unsigned, Numeral.fractionText, if_neg h]
  rw [hText]
  unfold lowered
  rw [List.map_append, List.map_append, List.map_cons]
  change lowered n.whole ++ (_ :: lowered n.fraction ++ _) = _
  rw [lowered_digits n.hWhole, lowered_digits n.hFraction]
  rfl

/- The exponent of a number, or zero. -/
def exponentValue (n : Numeral) : Int :=
  (n.exponent.map Json.Exponent.value).getD 0

/- An exponent with a sign in small letters. -/
theorem lowered_exponent
    (e : Json.Exponent)
    {s : Char}
    (h : e.sign = some s) :
    lowered (Numeral.exponentText (some e)) =
      'e' :: s :: e.digits := by
  have hMark : e.mark.toLower = 'e' := by
    rcases e.hMark with hMark | hMark
    · rw [hMark]
      rfl
    · rw [hMark]
      rfl
  have hLower : s.toLower = s := by
    rcases e.hSign s h with rfl | rfl
    · rfl
    · rfl
  change lowered (e.mark :: (e.sign.toList ++ e.digits)) = _
  rw [h]
  change e.mark.toLower :: s.toLower :: lowered e.digits = _
  rw [hMark, hLower, lowered_digits e.hDigits]

/- The digits of an exponent are read behind its sign. -/
theorem exponent_signed
    (e : Json.Exponent)
    {s : Char}
    {negative : Bool}
    (h : splitSign (s :: e.digits) = (negative, e.digits)) :
    exponent ('e' :: s :: e.digits) =
      .ok (Double.signed negative
        (Json.ofDigits (digitValues e.digits))) := by
  have hTake : takeDigits e.digits = (digitValues e.digits, []) := by
    have hAll := takeDigits_digits e.hDigits (rfl :
      takeDigits [] = ([], []))
    rwa [List.append_nil] at hAll
  unfold exponent
  dsimp only
  rw [if_pos (by decide), h]
  dsimp only
  rw [hTake]
  cases hDigits : e.digits with
  | nil => exact (e.hNonempty hDigits).elim
  | cons d ds => rfl

/- The exponent of a shared number is read. -/
theorem exponent_numeral
    {n : Numeral}
    (h : n.IsShared) :
    takeDigits (smallExponent n) = ([], smallExponent n) ∧
      exponent (smallExponent n) = .ok (exponentValue n) := by
  unfold smallExponent exponentValue
  cases hExponent : n.exponent with
  | none => exact ⟨rfl, rfl⟩
  | some e =>
      have hSigned := (h e hExponent).2
      rcases Option.isSome_iff_exists.1 hSigned with ⟨s, hSign⟩
      have hValue : Json.Exponent.value e = Double.signed
          (decide (some s = some '-'))
          (Json.ofDigits (digitValues e.digits)) := by
        rw [← hSign]
        rfl
      rw [lowered_exponent e hSign]
      refine ⟨rfl, ?_⟩
      change _ = Except.ok (Json.Exponent.value e)
      rw [hValue]
      rcases e.hSign s hSign with rfl | rfl
      · exact exponent_signed e rfl
      · exact exponent_signed e rfl

/- A number that starts with a digit is no word. -/
theorem ofList_ne_word
    {c : Char}
    (h : c.isDigit = true)
    (cs : List Char) :
    String.ofList (lowered (c :: cs)) ∉ ["inf", "infinity", "nan"] := by
  intro hMem
  have hWords : ∀ w ∈ ["inf", "infinity", "nan"],
      w.toList.head?.all (fun d => !d.isDigit) = true := by
    decide
  have hHead := hWords _ hMem
  rw [String.toList_ofList] at hHead
  change (!c.toLower.isDigit) = true at hHead
  rw [(digit_value h).2.2.1, h] at hHead
  cases hHead

theorem exists_lowered_unsigned (n : Numeral) :
    ∃ c cs, c.isDigit = true ∧
      lowered n.unsigned = c :: lowered cs := by
  rcases exists_unsigned n with ⟨c, cs, hDigit, hUnsigned⟩
  refine ⟨c, cs, hDigit, ?_⟩
  rw [hUnsigned]
  exact congrArg (· :: lowered cs) (digit_value hDigit).2.2.1

/- The digits of a shared number are read as they are meant. -/
theorem decimal_numeral
    {n : Numeral}
    (hShared : n.IsShared)
    (h : n.fraction ≠ []) :
    decimal false (lowered n.unsigned) =
      .ok (Double.ofDecimal false
        (Json.ofDigits (digitValues n.whole ++
          digitValues n.fraction))
        (exponentValue n - n.fraction.length)) := by
  rcases exponent_numeral hShared with ⟨hTake, hExponent⟩
  have hWhole : takeDigits (n.whole ++ '.' ::
      (n.fraction ++ smallExponent n)) = (digitValues n.whole,
        '.' :: (n.fraction ++ smallExponent n)) :=
    takeDigits_digits n.hWhole rfl
  have hNonempty : (digitValues n.fraction).isEmpty = false := by
    cases hDigits : n.fraction with
    | nil => exact (h hDigits).elim
    | cons d ds => rfl
  have hLength : (digitValues n.fraction).length =
      n.fraction.length := List.length_map _
  unfold decimal
  rw [lowered_unsigned h, hWhole]
  let found := takeDigits (n.fraction ++ smallExponent n)
  have hFound : found = (digitValues n.fraction, smallExponent n) :=
    takeDigits_digits n.hFraction hTake
  change (if ((digitValues n.whole).isEmpty && found.1.isEmpty) =
    true then _ else exponent found.2 >>= fun e =>
      Except.ok (Double.ofDecimal false
        (Json.ofDigits (digitValues n.whole ++ found.1))
        (e - found.1.length))) = _
  rw [hFound]
  dsimp only
  rw [hNonempty, Bool.and_false, if_neg Bool.false_ne_true,
    hExponent, hLength]
  rfl

/- A shared number without its sign is read. -/
theorem floatMagnitude_numeral
    {n : Numeral}
    (hShared : n.IsShared)
    (h : n.fraction ≠ []) :
    floatMagnitude (lowered n.unsigned) =
      .ok (Double.ofDecimal false
        (Json.ofDigits (digitValues n.whole ++
          digitValues n.fraction))
        (exponentValue n - n.fraction.length)) := by
  rcases exists_lowered_unsigned n with ⟨c, cs, hDigit, hFirst⟩
  have hChars : ∀ d ∈ lowered n.unsigned,
      Text.isBlank d = false ∧ d ≠ ':' := by
    intro d hD
    rcases List.mem_map.1 hD with ⟨b, hB, rfl⟩
    have hMem : b ∈ n.text := by
      rw [Tag.text_eq]
      exact List.mem_append_right _ hB
    exact lower_of_isWordChar (isWordChar_of_mem_numeral hMem)
  have hColon : ':' ∉ lowered n.unsigned := fun hMem =>
    (hChars ':' hMem).2 rfl
  have hTrimmed : trimmed (lowered n.unsigned) = lowered n.unsigned :=
    trimmed_of_not_blank fun d hD => (hChars d hD).1
  have hSplit : splitSign (lowered n.unsigned) =
      (false, lowered n.unsigned) := by
    rw [hFirst, splitSign_digit hDigit]
  have hWords := ofList_ne_word hDigit (lowered cs)
  rw [← hFirst] at hWords
  simp only [List.mem_cons, List.not_mem_nil, or_false, not_or]
    at hWords
  have hPoint : ∀ ds, lowered n.unsigned ≠ '.' :: ds := by
    intro ds hSame
    rw [hFirst] at hSame
    cases (List.cons.inj hSame).1
    cases hDigit
  unfold floatMagnitude
  rw [if_neg (hPoint _), if_neg (hPoint _), if_neg hColon, double,
    hTrimmed, hSplit]
  dsimp only
  rw [if_neg (not_or.2 ⟨hWords.1, hWords.2.1⟩),
    if_neg hWords.2.2, decimal_numeral hShared h]

/- A shared number with a point has the same value in YAML. -/
theorem float_numeral
    {n : Numeral}
    (hShared : n.IsShared)
    (h : n.fraction ≠ []) :
    float n.text = .ok (.double (n.double (exponentValue n))) := by
  rcases exists_lowered_unsigned n with ⟨c, cs, hDigit, hFirst⟩
  have hText : lowered n.text =
      (if n.negative then ['-'] else []) ++ c :: lowered cs := by
    rw [Tag.text_eq, ← hFirst]
    cases n.negative with
    | true => rfl
    | false => rfl
  have hMagnitude := floatMagnitude_numeral hShared h
  rw [hFirst] at hMagnitude
  unfold float
  rw [filter_text, hText, splitSign_text hDigit]
  change (floatMagnitude (c :: lowered cs) >>= fun x =>
    Except.ok (Document.double
      (if n.negative then x.neg else x))) = _
  rw [hMagnitude]
  change Except.ok (Document.double (if n.negative then
    (Double.ofDecimal false _ _).neg else _)) = _
  rw [Double.neg_ofDecimal, Numeral.double]
  cases n.negative with
  | true => rfl
  | false => rfl

end Value

------------------------------------------------------------
-- Scalars
------------------------------------------------------------

/- A shared number has the same value in YAML as in JSON. -/
theorem scalarValue_numeral
    {n : Json.Numeral}
    (hShared : n.IsShared)
    (hFits : n.Fits) :
    ∃ tag, Tag.ofPlain (RawText.ofChars n.text) = tag ∧
      isScalarTag tag = true ∧
        scalarValue tag (RawText.ofChars n.text) =
          .ok (Document.ofJson n.value) := by
  have hChars := RawText.toChars?_ofChars n.text
  by_cases hFraction : n.fraction = []
  · have hExponent : n.exponent = none := by
      cases hSome : n.exponent with
      | none => rfl
      | some e => exact ((hShared e hSome).1 hFraction).elim
    have hInteger : n.IsInteger := ⟨hFraction, hExponent⟩
    refine ⟨.int, Tag.ofPlain_integer hInteger, rfl, ?_⟩
    unfold scalarValue
    rw [hChars]
    dsimp only
    rw [Value.int_numeral hInteger hFits, Json.Numeral.value,
      hExponent]
    dsimp only
    rw [if_pos hFraction]
    rfl
  · refine ⟨.float, Tag.ofPlain_fraction hShared hFraction, rfl, ?_⟩
    unfold scalarValue
    rw [hChars]
    dsimp only
    rw [Value.float_numeral hShared hFraction, Json.Numeral.value,
      Value.exponentValue]
    cases n.exponent with
    | none =>
        dsimp only
        rw [if_neg hFraction]
        rfl
    | some e => rfl

/- A shared word has the same value in YAML as in JSON. -/
theorem scalarValue_word
    {w : String × Json}
    (hWord : w ∈ Json.words)
    (hShared : w.1 ∈ ["null", "true", "false"]) :
    ∃ tag, Tag.ofPlain (RawText.ofChars w.1.toList) = tag ∧
      isScalarTag tag = true ∧
        scalarValue tag (RawText.ofChars w.1.toList) =
          .ok (Document.ofJson w.2) := by
  rcases Tag.ofPlain_word with ⟨hNull, hTrue, hFalse⟩
  simp only [Json.words, List.mem_cons, List.not_mem_nil, or_false]
    at hWord
  rcases hWord with rfl | rfl | rfl | rfl | rfl | rfl
  · exact ⟨.null, hNull, rfl, rfl⟩
  · exact ⟨.bool, hTrue, rfl, rfl⟩
  · exact ⟨.bool, hFalse, rfl, rfl⟩
  · simp at hShared
  · simp at hShared
  · simp at hShared

end Yaml

end TypedClient
