import TypedClient.Proofs.Json.Shared
import TypedClient.Proofs.Yaml.Passing

/-
  This file reads quoted JSON strings as YAML scalars.  A shared
  spelling is read part by part as the text that it means; a run
  of blanks is read at once.

  Key theorems include:
    * `Yaml.Scalar.quotedFrom_spelling`
    * `Yaml.Scalar.quoted_spelling`
-/

namespace TypedClient

namespace Yaml

namespace Scalar

open Json (Part Spelling)

------------------------------------------------------------
-- Parts
------------------------------------------------------------

variable {c : Cursor}

/- A character of a JSON string that is no blank is no gap. -/
theorem isGap_of_plain
    {ch : Char}
    (hControl : 32 ≤ ch.toNat)
    (hBlank : ch ≠ ' ')
    (hBreak : isBreak ch = false) : isGap ch = false := by
  have hTab : ch ≠ '\t' := by
    rintro rfl
    exact absurd hControl (by decide)
  have hEnd : ch ≠ endMark := by
    rintro rfl
    exact absurd hControl (by decide)
  simp [isGap, isSpace, isBreakOrEnd, hBlank, hTab, hBreak, hEnd]

theorem quotedFrom_quote
    {rest : List Char}
    (h : c.rest = '"' :: rest)
    (fuel : Nat)
    (read : RawText) :
    quotedFrom true (fuel + 1) read c =
      .ok (read.reverse, c.next) := by
  rw [quotedFrom]
  simp [Cursor.atEnd_of_rest h, Cursor.head_of_rest h]

/- A character that means itself is read. -/
theorem quotedFrom_plain
    {ch : Char}
    {rest : List Char}
    (h : c.rest = ch :: rest)
    (hQuote : ch ≠ '"')
    (hMark : ch ≠ '\\')
    (hGap : isGap ch = false)
    (fuel : Nat)
    (read : RawText) :
    quotedFrom true (fuel + 1) read c =
      quotedFrom true fuel (.scalar ch :: read) c.next := by
  rw [quotedFrom]
  simp [Cursor.atEnd_of_rest h, Cursor.head_of_rest h, hQuote,
    hMark, hGap]

/- An escape of one letter is read. -/
theorem quotedFrom_letter
    {mark value : Char}
    {rest : List Char}
    (h : c.rest = '\\' :: mark :: rest)
    (hEscape : escape? mark = some value)
    (fuel : Nat)
    (read : RawText) :
    quotedFrom true (fuel + 1) read c =
      quotedFrom true fuel (.scalar value :: read)
        c.next.next := by
  have hNext : c.next.rest = mark :: rest := by
    rw [Cursor.rest_next, h]
    rfl
  have hGap : isGap '\\' = false := by decide
  rw [quotedFrom]
  simp [Cursor.atEnd_of_rest h, Cursor.head_of_rest h, hGap,
    Cursor.head_of_rest hNext, hEscape]

/- JSON and YAML give hexadecimal digits the same values. -/
theorem hexNumber?_of_hexUnit?
    {a b d e : Char}
    {u : Nat}
    (h : Json.hexUnit? (.scalar a) (.scalar b) (.scalar d)
      (.scalar e) = some u) :
    hexNumber? [a, b, d, e] = some u := by
  have hSame (ch : Char) :
      Json.hexValue? (.scalar ch) = hexValue? ch := rfl
  unfold Json.hexUnit? at h
  simp only [hSame] at h
  cases hA : hexValue? a with
  | none => simp [hA] at h
  | some i =>
      cases hB : hexValue? b with
      | none => simp [hA, hB] at h
      | some j =>
          cases hD : hexValue? d with
          | none => simp [hA, hB, hD] at h
          | some k =>
              cases hE : hexValue? e with
              | none => simp [hA, hB, hD, hE] at h
              | some l =>
                  simp only [hA, hB, hD, hE, Option.some.injEq]
                    at h
                  simp only [hexNumber?, List.mapM_cons,
                    List.mapM_nil, hA, hB, hD, hE]
                  simp
                  omega

/- An escape of four digits is read as its code point. -/
theorem quotedFrom_unit
    {a b d e : Char}
    {u : Nat}
    {p : CodePoint}
    {rest : List Char}
    (h : c.rest = '\\' :: 'u' :: a :: b :: d :: e :: rest)
    (hUnit : Json.hexUnit? (.scalar a) (.scalar b) (.scalar d)
      (.scalar e) = some u)
    (hPoint : CodePoint.ofNat? u = some p)
    (fuel : Nat)
    (read : RawText) :
    quotedFrom true (fuel + 1) read c =
      quotedFrom true fuel (p :: read)
        (c.next.next.advance 4) := by
  have hNext : c.next.rest = 'u' :: a :: b :: d :: e :: rest := by
    rw [Cursor.rest_next, h]
    rfl
  have hDigits : c.next.next.rest.take 4 = [a, b, d, e] := by
    rw [Cursor.rest_next, hNext]
    rfl
  have hGap : isGap '\\' = false := by decide
  have hLetter : escape? 'u' = none := by decide
  have hWidth : escapeWidth? 'u' = some 4 := by decide
  have hCode : codePoint [a, b, d, e] 4 = .ok p := by
    simp [codePoint, hexNumber?_of_hexUnit? hUnit, hPoint]
  rw [quotedFrom]
  simp [Cursor.atEnd_of_rest h, Cursor.head_of_rest h, hGap,
    Cursor.head_of_rest hNext, hLetter, hWidth, hDigits, hCode]

/- A run of blanks is read at once. -/
theorem quotedFrom_blanks
    {ch : Char}
    {rest : List Char}
    {n : Nat}
    (h : c.rest = List.replicate (n + 1) ' ' ++ ch :: rest)
    (hSpace : isSpace ch = false)
    (hBreak : isBreak ch = false)
    (fuel : Nat)
    (read : RawText) :
    quotedFrom true (fuel + 1) read c =
      quotedFrom true fuel
        (List.replicate (n + 1) (.scalar ' ') ++ read)
        (c.advance (n + 1)) := by
  have hSpan := Cursor.passes_span (p := isSpace) h
    (fun d hD => (List.mem_replicate.1 hD).2 ▸ rfl)
    (fun d hD => (Option.some.inj hD) ▸ hSpace)
  have hCursor : (c.span isSpace).2 = c.advance (n + 1) := by
    unfold Cursor.span at hSpan ⊢
    dsimp only at hSpan ⊢
    rw [hSpan.1, List.length_replicate]
  have hRest : (c.advance (n + 1)).rest = ch :: rest := by
    have hPasses := hSpan.2.rest
    rw [hCursor, h] at hPasses
    exact (List.append_cancel_left hPasses).symm
  have hQuoted : quotedSpace c =
      .ok (List.replicate (n + 1) ' ', c.advance (n + 1)) := by
    unfold quotedSpace
    dsimp only
    rw [hSpan.1, hCursor, Cursor.atEnd_of_rest hRest,
      Cursor.head_of_rest hRest, hBreak]
    rfl
  have hHead : c.rest = ' ' ::
      (List.replicate n ' ' ++ ch :: rest) := by
    rw [h, List.replicate_succ]
    rfl
  have hGap : isGap ' ' = true := by decide
  rw [quotedFrom]
  simp [Cursor.atEnd_of_rest hHead, Cursor.head_of_rest hHead, hGap,
    hQuoted, RawText.ofChars]

------------------------------------------------------------
-- What parts mean
------------------------------------------------------------

/- YAML knows the letters that JSON escapes. -/
theorem escape?_of_json
    {mark value : Char}
    (h : Json.escape? mark = some value) :
    escape? mark = some value := by
  unfold Json.escape? at h
  split at h
  next hMark =>
    cases h
    rcases hMark with rfl | rfl | rfl
    · rfl
    · rfl
    · rfl
  split at h
  next hMark =>
    cases h
    rw [hMark]
    rfl
  split at h
  next hMark =>
    cases h
    rw [hMark]
    rfl
  split at h
  next hMark =>
    cases h
    rw [hMark]
    rfl
  split at h
  next hMark =>
    cases h
    rw [hMark]
    rfl
  split at h
  next hMark =>
    cases h
    rw [hMark]
    rfl
  next => cases h

/- A hexadecimal digit is below sixteen. -/
theorem hexValue?_lt
    {p : CodePoint}
    {n : Nat}
    (h : Json.hexValue? p = some n) : n < 16 := by
  cases p with
  | surrogate k => cases h
  | scalar ch =>
      unfold Json.hexValue? at h
      dsimp only at h
      split at h
      next hDigit =>
        cases h
        have hLe : ch.toNat ≤ 57 := by
          simp only [Char.isDigit, Bool.and_eq_true,
            decide_eq_true_eq] at hDigit
          exact UInt32.le_iff_toNat_le.1 hDigit.2
        omega
      split at h
      next hLetter =>
        cases h
        have hLe : ch.toNat ≤ 102 :=
          UInt32.le_iff_toNat_le.1 hLetter.2
        omega
      split at h
      next hLetter =>
        cases h
        have hLe : ch.toNat ≤ 70 :=
          UInt32.le_iff_toNat_le.1 hLetter.2
        omega
      next => cases h

/- Four hexadecimal digits are below U+10000. -/
theorem hexUnit?_lt
    {a b d e : CodePoint}
    {u : Nat}
    (h : Json.hexUnit? a b d e = some u) : u < 0x10000 := by
  unfold Json.hexUnit? at h
  split at h
  next i j k l hA hB hD hE =>
    cases h
    have hI := hexValue?_lt hA
    have hJ := hexValue?_lt hB
    have hK := hexValue?_lt hD
    have hL := hexValue?_lt hE
    omega
  next => cases h

theorem exists_ofNat?
    {u : Nat}
    (hBound : u < 0x10000)
    (h : ¬ (0xD800 ≤ u ∧ u < 0xE000)) :
    ∃ p, CodePoint.ofNat? u = some p := by
  have hValid : u.isValidChar := by
    unfold Nat.isValidChar
    omega
  exact ⟨_, dif_pos hValid⟩

/-
  What a part means behind a text without an open half of a pair.
-/
def Means (p : Part) (q : CodePoint) : Prop :=
  ∀ read, p.push (read, false) = (q :: read, false)

/-
  How a shared part that is no blank is read: as the code point
  that it means, and the cursor passes it.
-/
theorem quotedFrom_part
    {p : Part}
    {rest : List Char}
    (hShared : p.IsShared)
    (hBlank : p.text ≠ [' '])
    (h : c.rest = p.text ++ rest) :
    ∃ q d, Means p q ∧ c.Passes p.text d ∧
      ∀ fuel read, quotedFrom true (fuel + 1) read c =
        quotedFrom true fuel (q :: read) d := by
  cases p with
  | plain ch hQuote hMark hControl =>
      have hNot : ch ≠ ' ' := by
        rintro rfl
        exact hBlank rfl
      have hGap := isGap_of_plain hControl hNot hShared.2
      exact ⟨.scalar ch, c.next, fun _ => rfl,
        Cursor.passes_next h,
        quotedFrom_plain h hQuote hMark hGap⟩
  | letter mark value hLetter =>
      have hFirst := Cursor.passes_next h
      have hNext : c.next.rest = mark :: rest :=
        (List.cons.inj (hFirst.rest.symm.trans h)).2
      exact ⟨.scalar value, c.next.next, fun _ => rfl,
        hFirst.trans (Cursor.passes_next hNext),
        quotedFrom_letter h (escape?_of_json hLetter)⟩
  | unit a b d e u hUnit =>
      rcases exists_ofNat? (hexUnit?_lt hUnit) hShared with
        ⟨q, hPoint⟩
      have hFirst := Cursor.passes_next h
      have hNext : c.next.rest = 'u' :: a :: b :: d :: e :: rest :=
        (List.cons.inj (hFirst.rest.symm.trans h)).2
      have hSecond := Cursor.passes_next hNext
      have hDigits : c.next.next.rest = [a, b, d, e] ++ rest :=
        (List.cons.inj (hSecond.rest.symm.trans hNext)).2
      have hHalf : Text.isHighHalf u = false := by
        simp only [Text.isHighHalf, Bool.and_eq_false_iff,
          decide_eq_false_iff_not]
        have hNot : ¬ (0xD800 ≤ u ∧ u < 0xE000) := hShared
        omega
      refine ⟨q, c.next.next.advance 4, fun read => ?_,
        (hFirst.trans hSecond).trans
          (Cursor.passes_advance hDigits),
        quotedFrom_unit h hUnit hPoint⟩
      simp [Part.push, Json.pushUnit, hPoint, hHalf]

------------------------------------------------------------
-- Spellings
------------------------------------------------------------

/-
  A spelling as the blanks that it starts with and what follows
  them, which is empty or starts with a part that is no blank.
-/
theorem exists_blanks (s : Spelling) :
    ∃ (n : Nat) (others : Spelling),
      s.length = n + others.length ∧
      s.text = List.replicate n ' ' ++ others.text ∧
      (∀ read, s.pushAll (read, false) =
        others.pushAll
          (List.replicate n (.scalar ' ') ++ read, false)) ∧
      (∀ p ∈ others, p ∈ s) ∧
      ∀ p ∈ others.head?, p.text ≠ [' '] := by
  induction s with
  | nil =>
      exact ⟨0, [], rfl, rfl, fun _ => rfl, fun _ h => h,
        fun _ h => nomatch h⟩
  | cons p s ih =>
      by_cases hBlank : p.text = [' ']
      · rcases ih with
          ⟨n, others, hLength, hText, hPush, hMem, hHead⟩
        have hPlain (read : RawText) : p.push (read, false) =
            (.scalar ' ' :: read, false) := by
          cases p with
          | plain ch hQuote hMark hControl =>
              cases hBlank
              rfl
          | letter mark value h => cases hBlank
          | unit a b d e u h => cases hBlank
        refine ⟨n + 1, others, by simp [hLength]; omega, ?_,
          fun read => ?_,
          fun q hQ => List.mem_cons_of_mem p (hMem q hQ), hHead⟩
        · rw [Spelling.text_cons, hBlank, hText,
            List.replicate_succ]
          rfl
        · rw [Spelling.pushAll, List.foldl_cons, hPlain]
          refine (hPush _).trans ?_
          rw [List.replicate_succ', List.append_assoc]
          rfl
      · refine ⟨0, p :: s, (Nat.zero_add _).symm, rfl,
          fun _ => rfl, fun _ h => h, fun q hQ => ?_⟩
        cases hQ
        exact hBlank

/- A part starts with no space and no line break, or is a blank. -/
theorem exists_first
    {p : Part}
    (hShared : p.IsShared)
    (hBlank : p.text ≠ [' ']) :
    ∃ ch cs, p.text = ch :: cs ∧ isSpace ch = false ∧
      isBreak ch = false := by
  cases p with
  | plain ch hQuote hMark hControl =>
      have hNot : ch ≠ ' ' := by
        rintro rfl
        exact hBlank rfl
      have hGap := isGap_of_plain hControl hNot hShared.2
      simp only [isGap, Bool.or_eq_false_iff] at hGap
      exact ⟨ch, [], rfl, hGap.1, hShared.2⟩
  | letter mark value h => exact ⟨'\\', [mark], rfl, rfl, rfl⟩
  | unit a b d e u h =>
      exact ⟨'\\', ['u', a, b, d, e], rfl, rfl, rfl⟩

/- Blanks in front of something else are read in one step, if any. -/
theorem quotedFrom_skipBlanks
    {ch : Char}
    {rest : List Char}
    {n : Nat}
    (h : c.rest = List.replicate n ' ' ++ ch :: rest)
    (hSpace : isSpace ch = false)
    (hBreak : isBreak ch = false) :
    ∃ d k, k ≤ n ∧ c.Passes (List.replicate n ' ') d ∧
      ∀ fuel read, quotedFrom true (fuel + k) read c =
        quotedFrom true fuel
          (List.replicate n (.scalar ' ') ++ read) d := by
  cases n with
  | zero =>
      exact ⟨c, 0, Nat.le_refl 0, .refl c, fun _ _ => rfl⟩
  | succ n =>
      have hPasses := Cursor.passes_advance h
      rw [List.length_replicate] at hPasses
      exact ⟨c.advance (n + 1), 1, Nat.le_add_left 1 n, hPasses,
        quotedFrom_blanks h hSpace hBreak⟩

/-
  A shared spelling is read up to its closing quote as the text
  that it means.  The induction is on the number of parts that are
  left; blanks at the front are read together with what follows.
-/
theorem quotedFrom_spelling
    (s : Spelling)
    (hShared : s.IsShared)
    {c : Cursor}
    {rest : List Char}
    (h : c.rest = s.text ++ '"' :: rest)
    {fuel : Nat}
    (hFuel : s.length < fuel)
    (read : RawText) :
    ∃ d, c.Passes (s.text ++ ['"']) d ∧
      quotedFrom true fuel read c =
        .ok ((s.pushAll (read, false)).1.reverse, d) := by
  rcases exists_blanks s with
    ⟨n, others, hLength, hText, hPush, hMem, hHead⟩
  have hOthers : Spelling.IsShared others :=
    fun p hP => hShared p (hMem p hP)
  rw [hText, List.append_assoc] at h
  cases others with
  | nil =>
      -- the closing quote is no blank either, so it ends the run
      rcases quotedFrom_skipBlanks h rfl rfl with
        ⟨d, k, hK, hBlanks, hRead⟩
      have hRest : d.rest = '"' :: rest :=
        (List.append_cancel_left (h.symm.trans hBlanks.rest)).symm
      rw [List.length_nil] at hLength
      obtain ⟨m, rfl⟩ : ∃ m, fuel = m + 1 + k :=
        ⟨fuel - k - 1, by omega⟩
      refine ⟨d.next, ?_, ?_⟩
      · rw [hText]
        exact (List.append_nil (List.replicate n ' ')).symm ▸
          hBlanks.trans (Cursor.passes_next hRest)
      · rw [hRead, quotedFrom_quote hRest, hPush]
        rfl
  | cons p more =>
      have hP : p.IsShared := hOthers p List.mem_cons_self
      have hBlank : p.text ≠ [' '] := hHead p rfl
      rcases exists_first hP hBlank with
        ⟨ch, cs, hFirst, hSpace, hBreak⟩
      rw [Spelling.text_cons, hFirst] at h
      rcases quotedFrom_skipBlanks h hSpace hBreak with
        ⟨d, k, hK, hBlanks, hRead⟩
      have hRest : d.rest = p.text ++ (Spelling.text more ++
          '"' :: rest) := by
        rw [hFirst, ← List.append_assoc]
        exact (List.append_cancel_left
          (h.symm.trans hBlanks.rest)).symm
      rcases quotedFrom_part hP hBlank hRest with
        ⟨q, e, hMeans, hPart, hStep⟩
      have hMore : e.rest = Spelling.text more ++ '"' :: rest :=
        (List.append_cancel_left
          (hRest.symm.trans hPart.rest)).symm
      rw [List.length_cons] at hLength
      obtain ⟨m, rfl⟩ : ∃ m, fuel = m + 1 + k :=
        ⟨fuel - k - 1, by omega⟩
      rcases quotedFrom_spelling more
        (fun r hR => hOthers r (List.mem_cons_of_mem p hR)) hMore
        (by omega : more.length < m)
        (q :: (List.replicate n (.scalar ' ') ++ read)) with
        ⟨f, hPasses, hEnd⟩
      refine ⟨f, ?_, ?_⟩
      · rw [hText, Spelling.text_cons]
        simpa only [List.append_assoc] using
          (hBlanks.trans hPart).trans hPasses
      · have hPushed := hMeans
          (List.replicate n (.scalar ' ') ++ read)
        rw [hRead, hStep, hEnd, hPush, ← hPushed]
        rfl
termination_by s.length
decreasing_by
  simp only [hLength, List.length_cons]
  omega

/- A shared string in quotes is read as its value. -/
theorem quoted_spelling
    {s : Spelling}
    (hShared : s.IsShared)
    {c : Cursor}
    {rest : List Char}
    (hSound : c.IsSound)
    (h : c.rest = s.quoted ++ rest) :
    ∃ d, c.Passes s.quoted d ∧
      quoted true c = .ok (s.value, d) := by
  rw [Spelling.quoted_append] at h
  have hNext := Cursor.passes_next h
  have hRest : c.next.rest = s.text ++ '"' :: rest :=
    (List.cons.inj (hNext.rest.symm.trans h)).2
  have hLength : s.length ≤ s.text.length := by
    clear h hNext hRest hShared
    induction s with
    | nil => exact Nat.le_refl 0
    | cons p s ih =>
        have hP : 0 < p.text.length := by cases p <;> simp [Part.text]
        rw [Spelling.text_cons, List.length_cons,
          List.length_append]
        omega
  have hFuel : s.length < c.left + 1 := by
    rw [hSound.left, h, List.length_cons, List.length_append]
    omega
  rcases quotedFrom_spelling s hShared hRest hFuel [] with
    ⟨d, hPasses, hRead⟩
  exact ⟨d, hNext.trans hPasses, hRead⟩

end Scalar

end Yaml

end TypedClient
