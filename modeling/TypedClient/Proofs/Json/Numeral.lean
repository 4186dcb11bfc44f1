import TypedClient.Proofs.Json.Spelling

/-
  This file says how numbers are written in JSON, digit by digit,
  and which value they have.  The reader of numbers accepts
  exactly the numerals whose integers are not too long.

  Key definitions include:
    * `Json.Exponent`
    * `Json.Numeral`

  Key theorems include:
    * `Json.numberFrom_numeral`
    * `Json.exists_numeral`
-/

namespace TypedClient

namespace Json

------------------------------------------------------------
-- Digits
------------------------------------------------------------

/- Whether text has digits only. -/
def IsDigits (cs : List Char) : Prop :=
  ∀ c ∈ cs, c.isDigit = true

/- Whether text does not go on with a character of a class. -/
def Stops (p : Char → Bool) (rest : List Char) : Prop :=
  ∀ c ∈ rest.head?, p c = false

/- The values of digits. -/
def digitValues (ds : List Char) : List Nat :=
  ds.map fun c => c.toNat - 48

/- The digits at the start of a text are read. -/
theorem digitsFrom_ofChars
    (cs : List Char)
    (read : List Nat) :
    digitsFrom read (RawText.ofChars cs) =
      (read.reverse ++ digitValues (cs.takeWhile Char.isDigit),
        RawText.ofChars (cs.dropWhile Char.isDigit)) := by
  induction cs generalizing read with
  | nil => simp [RawText.ofChars, digitsFrom, digitValues]
  | cons c cs ih =>
      rw [ofChars_cons, digitsFrom]
      by_cases hDigit : c.isDigit = true
      · rw [if_pos hDigit, ih]
        simp [hDigit, digitValues]
      · rw [if_neg hDigit]
        simp [hDigit, digitValues, RawText.ofChars]

/- Digits are read up to the first other character. -/
theorem digitsFrom_digits
    {ds rest : List Char}
    (hDigits : IsDigits ds)
    (hRest : Stops Char.isDigit rest) :
    digitsFrom [] (RawText.ofChars (ds ++ rest)) =
      (digitValues ds, RawText.ofChars rest) := by
  have hTake : rest.takeWhile Char.isDigit = [] ∧
      rest.dropWhile Char.isDigit = rest := by
    cases rest with
    | nil => exact ⟨rfl, rfl⟩
    | cons c cs =>
        have hC : c.isDigit = false := hRest c rfl
        simp [hC]
  rw [digitsFrom_ofChars, List.takeWhile_append_of_pos hDigits,
    List.dropWhile_append_of_pos hDigits, hTake.1, hTake.2,
    List.append_nil]
  rfl

/- What is read as digits stands at the start of the text. -/
theorem exists_digits
    {cs : List Char}
    {ds : List Nat}
    {t : RawText}
    (h : digitsFrom [] (RawText.ofChars cs) = (ds, t)) :
    ∃ whole rest, cs = whole ++ rest ∧ IsDigits whole ∧
      ds = digitValues whole ∧ t = RawText.ofChars rest := by
  rw [digitsFrom_ofChars] at h
  cases h
  refine ⟨cs.takeWhile Char.isDigit, cs.dropWhile Char.isDigit,
    List.takeWhile_append_dropWhile.symm, ?_, rfl, rfl⟩
  exact List.all_eq_true.1 List.all_takeWhile

------------------------------------------------------------
-- Numerals
------------------------------------------------------------

/- An exponent: its mark, its sign if there is one, its digits. -/
structure Exponent where
  mark : Char
  sign : Option Char
  digits : List Char
  hMark : mark = 'e' ∨ mark = 'E'
  hSign : ∀ s ∈ sign, s = '+' ∨ s = '-'
  hDigits : IsDigits digits
  hNonempty : digits ≠ []

namespace Exponent

/- An exponent as it is written. -/
def text (e : Exponent) : List Char :=
  e.mark :: (e.sign.toList ++ e.digits)

/- The value of an exponent. -/
def value (e : Exponent) : Int :=
  Double.signed (e.sign = some '-')
    (ofDigits (digitValues e.digits))

end Exponent

/-
  A number as it is written: its digits before the point, where a
  zero stands alone, those behind it, and its exponent.
-/
structure Numeral where
  negative : Bool
  whole : List Char
  fraction : List Char
  exponent : Option Exponent
  hWhole : IsDigits whole
  hFirst : whole = ['0'] ∨
    ∃ c cs, whole = c :: cs ∧ c ≠ '0'
  hFraction : IsDigits fraction

namespace Numeral

/- The digits behind the point, with the point. -/
def fractionText (fraction : List Char) : List Char :=
  if fraction = [] then [] else '.' :: fraction

/- The exponent, if there is one. -/
def exponentText (exponent : Option Exponent) : List Char :=
  (exponent.map Exponent.text).getD []

/- A number as it is written behind its sign. -/
def unsigned (n : Numeral) : List Char :=
  n.whole ++ (fractionText n.fraction ++ exponentText n.exponent)

/- A number as it is written. -/
def text (n : Numeral) : List Char :=
  if n.negative then '-' :: n.unsigned else n.unsigned

/- Whether a number is written as an integer. -/
def IsInteger (n : Numeral) : Prop :=
  n.fraction = [] ∧ n.exponent = none

/- Whether an integer is not too long. -/
def Fits (n : Numeral) : Prop :=
  n.IsInteger → n.whole.length ≤ maxDigits

/- The double of a number with an exponent. -/
def double (n : Numeral) (exponent : Int) : Double :=
  Double.ofDecimal n.negative
    (ofDigits (digitValues n.whole ++ digitValues n.fraction))
    (exponent - n.fraction.length)

/- The value of a number. -/
def value (n : Numeral) : Json :=
  match n.exponent with
  | some e => .double (n.double e.value)
  | none =>
      if n.fraction = [] then
        .int (Double.signed n.negative
          (ofDigits (digitValues n.whole)))
      else .double (n.double 0)

end Numeral

------------------------------------------------------------
-- Reading numerals
------------------------------------------------------------

/- Whether a character may go on with a number. -/
def isNumberChar (c : Char) : Bool :=
  c.isDigit || c = '.' || c = 'e' || c = 'E'

theorem Stops.digits
    {rest : List Char}
    (h : Stops isNumberChar rest) : Stops Char.isDigit rest := by
  intro c hC
  have hAll := h c hC
  simp only [isNumberChar, Bool.or_eq_false_iff] at hAll
  exact hAll.1.1.1

/- Behind an exponent or none, no digit follows. -/
theorem stops_exponentText
    (exponent : Option Exponent)
    {rest : List Char}
    (h : Stops isNumberChar rest) :
    Stops Char.isDigit
      (Numeral.exponentText exponent ++ rest) := by
  cases exponent with
  | none => exact h.digits
  | some e =>
      intro c hC
      have hMark : c = e.mark := (Option.some.inj hC).symm
      rcases e.hMark with hE | hE
      · rw [hMark, hE]
        rfl
      · rw [hMark, hE]
        rfl

/- Behind the digits before the point, no digit follows. -/
theorem stops_fractionText
    (fraction : List Char)
    (exponent : Option Exponent)
    {rest : List Char}
    (h : Stops isNumberChar rest) :
    Stops Char.isDigit
      (Numeral.fractionText fraction ++
        (Numeral.exponentText exponent ++ rest)) := by
  unfold Numeral.fractionText
  split
  · exact stops_exponentText exponent h
  · intro c hC
    cases hC
    rfl

/- The digits before the point are read. -/
theorem wholePart_numeral
    (n : Numeral)
    {rest : List Char}
    (h : Stops Char.isDigit rest) :
    wholePart (RawText.ofChars (n.whole ++ rest)) =
      (digitValues n.whole, RawText.ofChars rest) := by
  rcases n.hFirst with hZero | ⟨c, cs, hCons, hC⟩
  · rw [hZero]
    rfl
  · have hDigits := digitsFrom_digits n.hWhole h
    rw [← hDigits, hCons, List.cons_append, ofChars_cons,
      wholePart]
    intro t hT
    cases hT
    exact hC rfl

/- The digits behind the point are read. -/
theorem fractionPart_numeral
    {fraction : List Char}
    (exponent : Option Exponent)
    {rest : List Char}
    (hFraction : IsDigits fraction)
    (h : Stops isNumberChar rest) :
    fractionPart (RawText.ofChars
        (Numeral.fractionText fraction ++
          (Numeral.exponentText exponent ++ rest))) =
      (digitValues fraction, RawText.ofChars
        (Numeral.exponentText exponent ++ rest)) := by
  have hStops := stops_exponentText exponent h
  cases fraction with
  | nil =>
      have hPoint : ∀ t, RawText.ofChars
          (Numeral.exponentText exponent ++ rest) ≠
            .scalar '.' :: t := by
        intro t hT
        rcases ofChars_eq_cons hT with ⟨c, cs, hText, hC, _⟩
        cases hC
        cases exponent with
        | none =>
            have hNot := h '.' (by
              change rest.head? = some '.'
              change rest = '.' :: cs at hText
              rw [hText]
              rfl)
            cases hNot
        | some e =>
            have hMark : e.mark = '.' := (List.cons.inj hText).1
            rcases e.hMark with hE | hE
            · rw [hE] at hMark
              cases hMark
            · rw [hE] at hMark
              cases hMark
      change fractionPart (RawText.ofChars
        (Numeral.exponentText exponent ++ rest)) = _
      rw [fractionPart]
      · rfl
      · exact hPoint
  | cons d ds =>
      change fractionPart (.scalar '.' :: RawText.ofChars
        (d :: ds ++ (Numeral.exponentText exponent ++ rest))) = _
      rw [fractionPart, digitsFrom_digits hFraction hStops]
      rfl

/- The digits of an exponent are read. -/
theorem exponentDigits_numeral
    {ds rest : List Char}
    (negative : Bool)
    (hDigits : IsDigits ds)
    (hNonempty : ds ≠ [])
    (h : Stops Char.isDigit rest) :
    exponentDigits negative (RawText.ofChars (ds ++ rest)) =
      some (Double.signed negative (ofDigits (digitValues ds)),
        RawText.ofChars rest) := by
  rw [exponentDigits, digitsFrom_digits hDigits h]
  cases ds with
  | nil => exact absurd rfl hNonempty
  | cons d ds => rfl

/- An exponent is read. -/
theorem exponentPart_exponent
    (e : Exponent)
    {rest : List Char}
    (h : Stops Char.isDigit rest) :
    exponentPart (RawText.ofChars (e.text ++ rest)) =
      some (e.value, RawText.ofChars rest) := by
  have hRead (negative : Bool) :=
    exponentDigits_numeral negative e.hDigits e.hNonempty h
  rw [Exponent.value, ← hRead, Exponent.text, List.cons_append,
    ofChars_cons]
  cases hSign : e.sign with
  | none =>
      have hFirst : ∀ s t, s.isDigit = false →
          RawText.ofChars (e.digits ++ rest) ≠
            .scalar s :: t := by
        intro s t hS hT
        cases hDigits : e.digits with
        | nil => exact e.hNonempty hDigits
        | cons d ds =>
            rw [hDigits] at hT
            cases hT
            rw [e.hDigits s (hDigits ▸ List.mem_cons_self)] at hS
            cases hS
      change exponentPart (.scalar e.mark ::
        RawText.ofChars (e.digits ++ rest)) = _
      rw [exponentPart, if_pos e.hMark]
      · rfl
      · exact fun t hT => hFirst '-' t rfl hT
      · exact fun t hT => hFirst '+' t rfl hT
  | some s =>
      rcases e.hSign s hSign with rfl | rfl
      · change exponentPart (.scalar e.mark :: .scalar '+' ::
          RawText.ofChars (e.digits ++ rest)) = _
        rw [exponentPart, if_pos e.hMark]
        rfl
      · change exponentPart (.scalar e.mark :: .scalar '-' ::
          RawText.ofChars (e.digits ++ rest)) = _
        rw [exponentPart, if_pos e.hMark]
        rfl

/- Nothing but a mark of an exponent is read as one. -/
theorem exponentPart_of_stops
    {rest : List Char}
    (h : Stops isNumberChar rest) :
    exponentPart (RawText.ofChars rest) = none := by
  cases rest with
  | nil => rfl
  | cons c cs =>
      have hC : isNumberChar c = false := h c rfl
      have hMark : ¬ (c = 'e' ∨ c = 'E') := by
        rintro (rfl | rfl)
        · cases hC
        · cases hC
      rw [ofChars_cons]
      unfold exponentPart
      exact if_neg hMark

theorem digitValues_whole_ne_nil (n : Numeral) :
    digitValues n.whole ≠ [] := by
  intro h
  have hNone : n.whole = [] := List.map_eq_nil_iff.1 h
  rcases n.hFirst with hZero | ⟨c, cs, hCons, _⟩
  · rw [hNone] at hZero
    cases hZero
  · rw [hNone] at hCons
    cases hCons

/- A numeral is read behind its sign. -/
theorem numberFrom_numeral
    (n : Numeral)
    {rest : List Char}
    (hFits : n.Fits)
    (h : Stops isNumberChar rest) :
    numberFrom n.negative
        (RawText.ofChars (n.unsigned ++ rest)) =
      .ok (n.value, RawText.ofChars rest) := by
  have hWhole := wholePart_numeral n
    (stops_fractionText n.fraction n.exponent h)
  have hFraction := fractionPart_numeral n.exponent n.hFraction h
  have hNonempty := digitValues_whole_ne_nil n
  have hLength : (digitValues n.fraction).length =
      n.fraction.length := List.length_map _
  have hWholeLength : (digitValues n.whole).length =
      n.whole.length := List.length_map _
  rw [numberFrom, Numeral.unsigned, List.append_assoc,
    List.append_assoc, hWhole]
  cases hDigits : digitValues n.whole with
  | nil => exact absurd hDigits hNonempty
  | cons d ds =>
      dsimp only
      rw [hFraction, ← hDigits]
      dsimp only
      cases hExponent : n.exponent with
      | some e =>
          have hRead := exponentPart_exponent e h.digits
          simp only [Numeral.exponentText, Option.map_some,
            Option.getD_some, hRead, Numeral.value, hExponent,
            Numeral.double, hLength]
      | none =>
          have hRead := exponentPart_of_stops h
          simp only [Numeral.exponentText, Option.map_none,
            Option.getD_none, List.nil_append, hRead,
            Numeral.value, hExponent, Numeral.double, hLength,
            hWholeLength]
          by_cases hPoint : n.fraction = []
          · have hFew := Nat.not_lt.2 (hFits ⟨hPoint, hExponent⟩)
            rw [hPoint, if_pos rfl, if_neg hFew]
            rfl
          · have hSome : (digitValues n.fraction).isEmpty =
                false := by
              simpa [digitValues] using hPoint
            simp [hSome, hPoint]

------------------------------------------------------------
-- Writing what is read
------------------------------------------------------------

/- What is read before the point is written there. -/
theorem exists_whole
    {cs : List Char}
    {ds : List Nat}
    {t : RawText}
    (h : wholePart (RawText.ofChars cs) = (ds, t))
    (hNonempty : ds ≠ []) :
    ∃ whole rest, cs = whole ++ rest ∧ IsDigits whole ∧
      (whole = ['0'] ∨ ∃ c cs, whole = c :: cs ∧ c ≠ '0') ∧
      ds = digitValues whole ∧ t = RawText.ofChars rest := by
  generalize hText : RawText.ofChars cs = text at h
  unfold wholePart at h
  split at h
  next =>
    rcases ofChars_eq_cons hText with ⟨c, rest, rfl, hC, rfl⟩
    cases hC
    cases h
    exact ⟨['0'], rest, rfl, by simp [IsDigits], Or.inl rfl,
      rfl, rfl⟩
  next hZero =>
    subst hText
    rcases exists_digits h with
      ⟨whole, rest, rfl, hDigits, rfl, rfl⟩
    refine ⟨whole, rest, rfl, hDigits, Or.inr ?_, rfl, rfl⟩
    cases whole with
    | nil => exact absurd rfl hNonempty
    | cons c whole =>
        refine ⟨c, whole, rfl, ?_⟩
        rintro rfl
        exact hZero _ rfl

/- What is read behind the point is written there. -/
theorem exists_fraction
    {cs : List Char}
    {ds : List Nat}
    {t : RawText}
    (h : fractionPart (RawText.ofChars cs) = (ds, t)) :
    ∃ fraction rest, cs = Numeral.fractionText fraction ++ rest ∧
      IsDigits fraction ∧ ds = digitValues fraction ∧
        t = RawText.ofChars rest := by
  generalize hText : RawText.ofChars cs = text at h
  unfold fractionPart at h
  split at h
  next =>
    rcases ofChars_eq_cons hText with ⟨c, rest, rfl, hC, rfl⟩
    cases hC
    split at h
    next =>
      cases h
      exact ⟨[], '.' :: rest, rfl, by simp [IsDigits], rfl, rfl⟩
    next found hNonempty =>
      rcases exists_digits h with
        ⟨fraction, rest, rfl, hDigits, rfl, rfl⟩
      refine ⟨fraction, rest, ?_, hDigits, rfl, rfl⟩
      cases fraction with
      | nil => exact (hNonempty _ h).elim
      | cons d ds => rfl
  next =>
    subst hText
    cases h
    exact ⟨[], cs, rfl, by simp [IsDigits], rfl, rfl⟩

/- What is read as digits of an exponent is written there. -/
theorem exists_exponentDigits
    {cs : List Char}
    {negative : Bool}
    {e : Int}
    {t : RawText}
    (h : exponentDigits negative (RawText.ofChars cs) =
      some (e, t)) :
    ∃ ds rest, cs = ds ++ rest ∧ IsDigits ds ∧ ds ≠ [] ∧
      e = Double.signed negative (ofDigits (digitValues ds)) ∧
        t = RawText.ofChars rest := by
  unfold exponentDigits at h
  split at h
  next => cases h
  next ds t' hNonempty hDigits =>
    cases h
    rcases exists_digits hDigits with
      ⟨ds, rest, rfl, hAll, rfl, rfl⟩
    refine ⟨ds, rest, rfl, hAll, ?_, rfl, rfl⟩
    rintro rfl
    exact hNonempty rfl

/- What is read as an exponent is written there. -/
theorem exists_exponent
    {cs : List Char}
    {v : Int}
    {t : RawText}
    (h : exponentPart (RawText.ofChars cs) = some (v, t)) :
    ∃ (e : Exponent) (rest : List Char),
      cs = e.text ++ rest ∧ v = e.value ∧
        t = RawText.ofChars rest := by
  cases cs with
  | nil => cases h
  | cons m cs =>
      rw [ofChars_cons] at h
      unfold exponentPart at h
      dsimp only at h
      split at h
      next hMark =>
        split at h
        next t' hText =>
          rcases ofChars_eq_cons hText with
            ⟨c, cs, rfl, hC, rfl⟩
          cases hC
          rcases exists_exponentDigits h with
            ⟨ds, rest, rfl, hDigits, hNonempty, rfl, rfl⟩
          exact ⟨⟨m, some '-', ds, hMark, by simp, hDigits,
            hNonempty⟩, rest, rfl, rfl, rfl⟩
        next t' hText =>
          rcases ofChars_eq_cons hText with
            ⟨c, cs, rfl, hC, rfl⟩
          cases hC
          rcases exists_exponentDigits h with
            ⟨ds, rest, rfl, hDigits, hNonempty, rfl, rfl⟩
          exact ⟨⟨m, some '+', ds, hMark, by simp, hDigits,
            hNonempty⟩, rest, rfl, rfl, rfl⟩
        next =>
          rcases exists_exponentDigits h with
            ⟨ds, rest, rfl, hDigits, hNonempty, rfl, rfl⟩
          exact ⟨⟨m, none, ds, hMark, by simp, hDigits,
            hNonempty⟩, rest, rfl, rfl, rfl⟩
      next => cases h

/- What is read as a number is a numeral. -/
theorem exists_numeral
    {cs : List Char}
    {negative : Bool}
    {v : Json}
    {t : RawText}
    (h : numberFrom negative (RawText.ofChars cs) =
      .ok (v, t)) :
    ∃ (n : Numeral) (rest : List Char),
      n.negative = negative ∧ cs = n.unsigned ++ rest ∧
        t = RawText.ofChars rest ∧ v = n.value ∧ n.Fits := by
  unfold numberFrom at h
  split at h
  next => cases h
  next whole t' hNonempty hWhole =>
    have hSome : whole ≠ [] := fun hNil =>
      hNonempty (hNil ▸ rfl)
    rcases exists_whole hWhole hSome with
      ⟨whole, cs, rfl, hDigits, hFirst, rfl, rfl⟩
    rcases hFound : fractionPart (RawText.ofChars cs) with
      ⟨fraction, t'⟩
    rcases exists_fraction hFound with
      ⟨fraction, cs, rfl, hFraction, rfl, rfl⟩
    rw [hFound] at h
    dsimp only at h
    split at h
    next v' t' hRead =>
      rcases exists_exponent hRead with ⟨e, rest, rfl, rfl, rfl⟩
      cases h
      refine ⟨⟨negative, whole, fraction, some e, hDigits, hFirst,
        hFraction⟩, rest, rfl, ?_, rfl, ?_, ?_⟩
      · simp [Numeral.unsigned, Numeral.exponentText]
      · simp [Numeral.value, Numeral.double, digitValues]
      · exact fun hInteger => by cases hInteger.2
    next =>
      refine ⟨⟨negative, whole, fraction, none, hDigits, hFirst,
        hFraction⟩, cs, rfl, ?_, ?_⟩
      · simp [Numeral.unsigned, Numeral.exponentText]
      · by_cases hPoint : fraction = []
        · rw [hPoint] at h
          rw [if_pos (by rfl)] at h
          split at h
          next => cases h
          next hFew =>
            cases h
            refine ⟨rfl, ?_, fun _ => ?_⟩
            · simp [Numeral.value, hPoint]
            · simpa [digitValues] using hFew
        · rw [if_neg (by simpa [digitValues] using hPoint)] at h
          cases h
          refine ⟨rfl, ?_, fun hInteger => ?_⟩
          · simp [Numeral.value, Numeral.double, digitValues,
              hPoint]
          · exact absurd hInteger.1 hPoint

end Json

end TypedClient
