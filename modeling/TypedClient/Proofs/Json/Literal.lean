import TypedClient.Emit.Text
import TypedClient.Proofs.Json.Grammar
import TypedClient.Proofs.Text.Apart
import TypedClient.Proofs.Text.Whole

/-
  This file reads emitted literals as JSON: each of them is a
  string in quotes, and decodes to the text it was written for,
  unless the halves of a surrogate pair meet in the text.

  Key definitions include:
    * `Json.Spelling.Spells`

  Key theorems include:
    * `Json.exists_spelling_escapePoint`
    * `Json.decode_rawLiteral`
-/

namespace TypedClient

namespace Json

------------------------------------------------------------
-- Escapes of characters
------------------------------------------------------------

theorem hexValue?_hexDigit :
    ∀ n < 16, hexValue? (.scalar (Text.hexDigit n)) = some n := by
  decide

/- The escape of a UTF-16 unit is a part that reads as the unit. -/
theorem exists_part_escapeUnit
    {u : Nat}
    (h : u < 0x10000) :
    ∃ p : Part, p.text = Text.escapeUnit u ∧
      ∀ state, p.push state =
        (pushUnit state.1 state.2 u, Text.isHighHalf u) := by
  have hDigit (n : Nat) := hexValue?_hexDigit (n % 16)
    (Nat.mod_lt n (by decide))
  have hUnit : hexUnit?
      (.scalar (Text.hexDigit (u / 16 / 16 / 16 % 16)))
      (.scalar (Text.hexDigit (u / 16 / 16 % 16)))
      (.scalar (Text.hexDigit (u / 16 % 16)))
      (.scalar (Text.hexDigit (u % 16))) = some u := by
    simp only [hexUnit?, hDigit]
    congr 1
    omega
  exact ⟨.unit _ _ _ _ u hUnit, rfl, fun _ => rfl⟩

/- Two halves of a character above U+FFFF are joined again. -/
theorem joinPair_units
    {c : Char}
    (h : ¬ c.toNat < 0x10000) :
    Text.joinPair (0xD800 + (c.toNat - 0x10000) / 0x400)
      (0xDC00 + (c.toNat - 0x10000) % 0x400) = c.toNat := by
  unfold Text.joinPair
  omega

/-
  What is spelled is one code point, unless it is the second half
  of a pair that is open; it opens a pair if it is a first half.
-/
def Spelling.Spells (s : Spelling) (p : CodePoint) : Prop :=
  ∀ read isOpen,
    (isOpen = true → Text.isLowHalf p.toNat = false) →
      s.pushAll (read, isOpen) =
        (p :: read, Text.isHighHalf p.toNat)

/- A unit that is no second half is put behind what was read. -/
theorem pushUnit_of_isLowHalf
    {p : CodePoint}
    {isOpen : Bool}
    (h : isOpen = true → Text.isLowHalf p.toNat = false)
    (read : RawText) :
    pushUnit read isOpen p.toNat = p :: read := by
  have hPoint := CodePoint.ofNat?_toNat p
  cases isOpen with
  | false => simp [pushUnit, hPoint]
  | true =>
      cases read with
      | nil => simp [pushUnit, hPoint]
      | cons q t => simp [pushUnit, hPoint, h rfl]

theorem exists_spelling_unit
    {p : CodePoint}
    (h : p.IsBasic) :
    ∃ s : Spelling, s.text = Text.escapeUnit p.toNat ∧
      s.Spells p := by
  rcases exists_part_escapeUnit h with ⟨part, hText, hPush⟩
  refine ⟨[part], ?_, fun read isOpen hOpen => ?_⟩
  · simp [Spelling.text, hText]
  · simp [Spelling.pushAll, hPush, pushUnit_of_isLowHalf hOpen]

/- A character above U+FFFF is spelled by both its units. -/
theorem exists_spelling_pair
    {c : Char}
    (h : ¬ c.toNat < 0x10000) :
    ∃ s : Spelling,
      s.text = (Text.units c).flatMap Text.escapeUnit ∧
        s.Spells (.scalar c) := by
  have hPoint : CodePoint.ofNat? c.toNat = some (.scalar c) :=
    CodePoint.ofNat?_toNat (.scalar c)
  have hJoined := joinPair_units h
  have hUnits := Text.units.eq_1 c
  rw [if_neg h] at hUnits
  have hValid : c.toNat < 0xD800 ∨
      0xDFFF < c.toNat ∧ c.toNat < 0x110000 :=
    c.valid
  generalize hHigh : (c.toNat - 0x10000) / 0x400 = j at hJoined hUnits
  generalize hLow : (c.toNat - 0x10000) % 0x400 = k at hJoined hUnits
  have hJ : j < 0x400 := by omega
  have hK : k < 0x400 := by omega
  rcases exists_part_escapeUnit
    (by omega : 0xD800 + j < 0x10000) with ⟨p, hText, hPush⟩
  rcases exists_part_escapeUnit
    (by omega : 0xDC00 + k < 0x10000) with ⟨q, hText', hPush'⟩
  have hNumber : (CodePoint.surrogate ⟨j, by omega⟩).toNat =
      0xD800 + j := rfl
  have hNotLow : Text.isLowHalf (0xD800 + j) = false := by
    simp only [Text.isLowHalf, Bool.and_eq_false_iff,
      decide_eq_false_iff_not]
    omega
  have hFirst (read : RawText) (isOpen : Bool) :
      pushUnit read isOpen (0xD800 + j) =
        .surrogate ⟨j, by omega⟩ :: read :=
    pushUnit_of_isLowHalf (p := .surrogate ⟨j, by omega⟩)
      (fun _ => hNotLow) read
  have hIsHigh : Text.isHighHalf (0xD800 + j) = true := by
    simp only [Text.isHighHalf, Bool.and_eq_true, decide_eq_true_eq]
    omega
  have hIsLow : Text.isLowHalf (0xDC00 + k) = true := by
    simp only [Text.isLowHalf, Bool.and_eq_true, decide_eq_true_eq]
    omega
  have hNotHigh : Text.isHighHalf (0xDC00 + k) = false := by
    simp only [Text.isHighHalf, Bool.and_eq_false_iff,
      decide_eq_false_iff_not]
    omega
  refine ⟨[p, q], ?_, fun read isOpen _ => ?_⟩
  · rw [hUnits]
    simp [Spelling.text, hText, hText']
  · have hSecond : pushUnit (.surrogate ⟨j, by omega⟩ :: read)
        true (0xDC00 + k) = .scalar c :: read := by
      simp [pushUnit, hIsLow, hNumber, hJoined, hPoint]
    simp [Spelling.pushAll, hPush, hPush', hFirst, hSecond,
      hIsHigh, hNotHigh, (CodePoint.isHalf_scalar c).1]

/- An escaped character is spelled. -/
theorem exists_spelling_escapeChar (c : Char) :
    ∃ s : Spelling, s.text = Text.escapeChar c ∧
      s.Spells (.scalar c) := by
  have hHalf := (CodePoint.isHalf_scalar c).1
  have hLetter (mark : Char) (h : escape? mark = some c)
      (hText : Text.escapeChar c = ['\\', mark]) :
      ∃ s : Spelling, s.text = Text.escapeChar c ∧
        s.Spells (.scalar c) := by
    refine ⟨[.letter mark c h], hText.symm ▸ rfl, ?_⟩
    intro read isOpen _
    rw [hHalf]
    rfl
  by_cases hQuote : c = '"'
  · exact hLetter '"' (by rw [hQuote]; rfl) (by rw [hQuote]; rfl)
  by_cases hMark : c = '\\'
  · exact hLetter '\\' (by rw [hMark]; rfl) (by rw [hMark]; rfl)
  by_cases hLine : c = '\n'
  · exact hLetter 'n' (hLine ▸ rfl) (hLine ▸ rfl)
  by_cases hReturn : c = '\r'
  · exact hLetter 'r' (hReturn ▸ rfl) (hReturn ▸ rfl)
  by_cases hTab : c = '\t'
  · exact hLetter 't' (hTab ▸ rfl) (hTab ▸ rfl)
  by_cases hBack : c = '\x08'
  · exact hLetter 'b' (hBack ▸ rfl) (hBack ▸ rfl)
  by_cases hFeed : c = '\x0c'
  · exact hLetter 'f' (hFeed ▸ rfl) (hFeed ▸ rfl)
  have hEscape : Text.escapeChar c =
      if 32 ≤ c.toNat ∧ c.toNat < 127 then [c]
      else (Text.units c).flatMap Text.escapeUnit := by
    simp only [Text.escapeChar, hQuote, hMark, hLine, hReturn, hTab,
      hBack, hFeed, if_false]
  rw [hEscape]
  by_cases hVisible : 32 ≤ c.toNat ∧ c.toNat < 127
  · rw [if_pos hVisible]
    refine ⟨[.plain c hQuote hMark hVisible.1], rfl, ?_⟩
    intro read isOpen _
    rw [hHalf]
    rfl
  rw [if_neg hVisible]
  by_cases hBasic : c.toNat < 0x10000
  · have hUnit : (CodePoint.scalar c).IsBasic := hBasic
    rcases exists_spelling_unit hUnit with ⟨s, hText, hSpells⟩
    refine ⟨s, ?_, hSpells⟩
    rw [hText, Text.units, if_pos hBasic, List.flatMap_singleton]
    rfl
  · exact exists_spelling_pair hBasic

/- An escaped code point is spelled. -/
theorem exists_spelling_escapePoint (p : CodePoint) :
    ∃ s : Spelling, s.text = Text.escapePoint p ∧ s.Spells p := by
  cases p with
  | surrogate k =>
      exact exists_spelling_unit (CodePoint.isBasic_surrogate k)
  | scalar c => exact exists_spelling_escapeChar c

------------------------------------------------------------
-- Literals
------------------------------------------------------------

/- The escaped code points of a text are spelled, one by one. -/
theorem exists_spelling_text
    {t : RawText}
    (h : t.IsWhole) :
    ∃ s : Spelling, s.text = t.flatMap Text.escapePoint ∧
      ∀ read isOpen,
        (isOpen = true → ∀ p ∈ t.head?,
          Text.isLowHalf p.toNat = false) →
        (s.pushAll (read, isOpen)).1 = t.reverse ++ read := by
  induction t with
  | nil => exact ⟨[], rfl, fun _ _ _ => rfl⟩
  | cons p ps ih =>
      rcases exists_spelling_escapePoint p with
        ⟨s, hText, hSpells⟩
      rcases ih h.tail with ⟨others, hOthers, hRest⟩
      refine ⟨s ++ others, ?_, fun read isOpen hOpen => ?_⟩
      · rw [Spelling.text, List.flatMap_append, List.flatMap_cons,
          ← hText, ← hOthers]
        rfl
      · have hFirst := hSpells read isOpen
          fun hIsOpen => hOpen hIsOpen p rfl
        -- a pair that `p` opens is not closed by what follows it
        have hNext := hRest (p :: read) (Text.isHighHalf p.toNat)
          fun hHigh q hq => by
            cases ps with
            | nil => cases hq
            | cons r rs =>
                cases hq
                have hPair := (List.isChain_cons_cons.1 h).1
                exact Bool.eq_false_iff.2 fun hLow =>
                  hPair ⟨hHigh, hLow⟩
        unfold Spelling.pushAll at hFirst hNext ⊢
        rw [List.foldl_append, hFirst, hNext]
        simp

/- The literal of a whole text decodes to the text. -/
theorem decode_rawLiteral
    {t : RawText}
    (h : t.IsWhole) :
    decode (Emit.rawLiteral t) = .ok (.string t) := by
  rcases exists_spelling_text h with ⟨spelling, hText, hValue⟩
  have hRead : spelling.value = t := by
    rw [Spelling.value, hValue [] false fun hOpen => by cases hOpen]
    simp
  have hWritten := decode_written
    (w := ⟨⟨[], by simp⟩, .string spelling, ⟨[], by simp⟩⟩)
    ⟨trivial, Nat.zero_le _⟩
  simp only [Written.text, List.nil_append, List.append_nil,
    Source.text, Source.value, Spelling.quoted, hText, hRead]
    at hWritten
  rw [Emit.rawLiteral, RawText.ofString_ofList]
  exact hWritten

end Json

end TypedClient
