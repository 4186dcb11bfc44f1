import TypedClient.Json.Decode

/-
  This file says how strings are spelled in JSON: what stands
  between the quotes, part by part, and the text that it means.
  The reader of strings accepts exactly the spellings.

  Key definitions include:
    * `Json.Part`
    * `Json.Spelling`

  Key theorems include:
    * `Json.stringFrom_spelling`
    * `Json.exists_spelling`
-/

namespace TypedClient

namespace Json

------------------------------------------------------------
-- Parts
------------------------------------------------------------

/-
  A part of a spelled string.

    * `plain`: a character that stands for itself
    * `letter`: an escape of one letter
    * `unit`: an escape of four hexadecimal digits
-/
inductive Part where
  | plain (c : Char)
      (hQuote : c ≠ '"')
      (hMark : c ≠ '\\')
      (hControl : 32 ≤ c.toNat)
  | letter (mark value : Char)
      (h : escape? mark = some value)
  | unit (a b c d : Char) (u : Nat)
      (h : hexUnit? (.scalar a) (.scalar b) (.scalar c)
        (.scalar d) = some u)

namespace Part

/- A part as it is written. -/
def text : Part → List Char
  | plain c _ _ _ => [c]
  | letter mark _ _ => ['\\', mark]
  | unit a b c d _ _ => ['\\', 'u', a, b, c, d]

/-
  What is read so far, backwards, with a part behind it, and
  whether the part is the first half of a pair.
-/
def push (state : RawText × Bool) : Part → RawText × Bool
  | plain c _ _ _ => (.scalar c :: state.1, false)
  | letter _ value _ => (.scalar value :: state.1, false)
  | unit _ _ _ _ u _ =>
      (pushUnit state.1 state.2 u, Text.isHighHalf u)

end Part

------------------------------------------------------------
-- Spellings
------------------------------------------------------------

/- A spelled string, without its quotes. -/
abbrev Spelling :=
  List Part

namespace Spelling

/- The text between the quotes. -/
def text (s : Spelling) : List Char :=
  s.flatMap Part.text

/- The spelling with its quotes. -/
def quoted (s : Spelling) : List Char :=
  '"' :: s.text ++ ['"']

/- What is read, backwards, behind what was read before. -/
def pushAll (s : Spelling) (state : RawText × Bool) : RawText × Bool :=
  s.foldl Part.push state

/- The text that a spelling means. -/
def value (s : Spelling) : RawText :=
  (s.pushAll ([], false)).1.reverse

theorem text_cons (p : Part) (s : Spelling) :
    text (p :: s) = p.text ++ s.text :=
  rfl

theorem quoted_append (s : Spelling) (rest : List Char) :
    s.quoted ++ rest = '"' :: (s.text ++ '"' :: rest) := by
  simp [quoted]

end Spelling

------------------------------------------------------------
-- Reading what is spelled
------------------------------------------------------------

theorem ofChars_cons (c : Char) (cs : List Char) :
    RawText.ofChars (c :: cs) = .scalar c :: RawText.ofChars cs :=
  rfl

/- A first part is read. -/
theorem stringFrom_part
    (p : Part)
    (read : RawText)
    (isOpen : Bool)
    (rest : List Char) :
    stringFrom read isOpen (RawText.ofChars (p.text ++ rest)) =
      stringFrom (p.push (read, isOpen)).1
        (p.push (read, isOpen)).2 (RawText.ofChars rest) := by
  cases p with
  | plain c hQuote hMark hControl =>
      have hNot : ¬ (CodePoint.scalar c).toNat < 32 :=
        Nat.not_lt.2 hControl
      change stringFrom read isOpen
        (.scalar c :: RawText.ofChars rest) = _
      rw [stringFrom, if_neg hNot]
      · rfl
      · simpa using hQuote
      · simp [hMark]
      · simp [hMark]
      · simp [hMark]
  | letter mark value h =>
      have hUnit : mark ≠ 'u' := by
        rintro rfl
        cases h
      change stringFrom read isOpen
        (.scalar '\\' :: .scalar mark :: RawText.ofChars rest) = _
      rw [stringFrom]
      · simp only [h]
        rfl
      · simp [hUnit]
  | unit a b c d u h =>
      change stringFrom read isOpen
        (.scalar '\\' :: .scalar 'u' :: .scalar a :: .scalar b ::
          .scalar c :: .scalar d :: RawText.ofChars rest) = _
      rw [stringFrom]
      simp only [h]
      rfl

/- A spelling is read up to the quote behind it. -/
theorem stringFrom_spelling
    (s : Spelling)
    (read : RawText)
    (isOpen : Bool)
    (rest : List Char) :
    stringFrom read isOpen
        (RawText.ofChars (s.text ++ '"' :: rest)) =
      .ok ((s.pushAll (read, isOpen)).1.reverse,
        RawText.ofChars rest) := by
  induction s generalizing read isOpen with
  | nil =>
      change stringFrom read isOpen
        (.scalar '"' :: RawText.ofChars rest) = _
      rw [stringFrom]
      rfl
  | cons p s ih =>
      rw [Spelling.text_cons, List.append_assoc, stringFrom_part,
        ih]
      rfl

------------------------------------------------------------
-- Spelling what is read
------------------------------------------------------------

/- Raw text of characters starts with a character. -/
theorem ofChars_eq_cons
    {p : CodePoint}
    {t : RawText}
    {cs : List Char}
    (h : RawText.ofChars cs = p :: t) :
    ∃ c cs', cs = c :: cs' ∧ p = .scalar c ∧
      t = RawText.ofChars cs' := by
  cases cs with
  | nil => cases h
  | cons c cs' =>
      cases h
      exact ⟨c, cs', rfl, rfl, rfl⟩

/-
  What is read of a text up to a quote is spelled there, in parts
  behind those that were read before.
-/
def IsSpelled
    (state : RawText × Bool)
    (cs : List Char)
    (v t : RawText) : Prop :=
  ∃ (s : Spelling) (rest : List Char),
    cs = s.text ++ '"' :: rest ∧ t = RawText.ofChars rest ∧
      v = (s.pushAll state).1.reverse

/- A part in front of what is spelled. -/
theorem IsSpelled.cons
    {p : Part}
    {state : RawText × Bool}
    {cs : List Char}
    {v t : RawText}
    (h : IsSpelled (p.push state) cs v t) :
    IsSpelled state (p.text ++ cs) v t := by
  rcases h with ⟨s, rest, hText, hRest, hValue⟩
  refine ⟨p :: s, rest, ?_, hRest, hValue⟩
  rw [hText, Spelling.text_cons, List.append_assoc]

/- What is read up to a quote is spelled there. -/
theorem isSpelled_of_stringFrom
    {cs : List Char}
    {read v t : RawText}
    {isOpen : Bool}
    (h : stringFrom read isOpen (RawText.ofChars cs) =
      .ok (v, t)) :
    IsSpelled (read, isOpen) cs v t := by
  generalize hText : RawText.ofChars cs = text at h
  fun_induction stringFrom read isOpen text generalizing cs with
  | case2 read isOpen text =>
      rcases ofChars_eq_cons hText with ⟨q, rest, rfl, hQ, rfl⟩
      cases hQ
      cases h
      exact ⟨[], rest, rfl, rfl, rfl⟩
  | case3 read isOpen a b c d text u hUnit ih =>
      rcases ofChars_eq_cons hText with ⟨m, cs, rfl, hM, h1⟩
      rcases ofChars_eq_cons h1.symm with ⟨l, cs, rfl, hL, h2⟩
      rcases ofChars_eq_cons h2.symm with ⟨a, cs, rfl, rfl, h3⟩
      rcases ofChars_eq_cons h3.symm with ⟨b, cs, rfl, rfl, h4⟩
      rcases ofChars_eq_cons h4.symm with ⟨c, cs, rfl, rfl, h5⟩
      rcases ofChars_eq_cons h5.symm with ⟨d, cs, rfl, rfl, h6⟩
      cases hM
      cases hL
      exact IsSpelled.cons (p := .unit a b c d u hUnit)
        (ih h6.symm h)
  | case5 read isOpen e text hShort c hLetter ih =>
      rcases ofChars_eq_cons hText with ⟨m, cs, rfl, hM, h1⟩
      rcases ofChars_eq_cons h1.symm with ⟨l, cs, rfl, hL, h2⟩
      cases hM
      cases hL
      exact IsSpelled.cons (p := .letter e c hLetter)
        (ih h2.symm h)
  | case9 read isOpen q text hQuote _ hPair hAlone hControl ih =>
      rcases ofChars_eq_cons hText with ⟨c, cs, rfl, rfl, h1⟩
      have hQuote' : c ≠ '"' := fun hC => hQuote (hC ▸ rfl)
      have hMark : c ≠ '\\' := fun hC => hAlone (hC ▸ rfl)
      exact IsSpelled.cons
        (p := .plain c hQuote' hMark (Nat.not_lt.1 hControl))
        (ih h1.symm h)
  | _ => cases h

/- What is read as a string is spelled. -/
theorem exists_spelling
    {cs : List Char}
    {v t : RawText}
    (h : stringFrom [] false (RawText.ofChars cs) = .ok (v, t)) :
    ∃ (s : Spelling) (rest : List Char),
      cs = s.text ++ '"' :: rest ∧ t = RawText.ofChars rest ∧
        v = s.value :=
  isSpelled_of_stringFrom h

end Json

end TypedClient
