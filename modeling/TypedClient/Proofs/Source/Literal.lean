import Mathlib.Algebra.Group.Nat.Defs
import Mathlib.Data.List.TakeWhile
import Mathlib.Tactic.SplitIfs
import TypedClient.Proofs.Text.Apart
import TypedClient.Source.Literal.Basic
import TypedClient.Source.Token.Scan

/-
  This file reads the value of a string literal of the source, and
  shows what becomes of a text that is written as a literal: the
  scan takes the literal as one token, and the value of the token
  is the text, with characters above U+FFFF taken apart.  Each of
  their units has an escape of its own, and escapes are not
  joined when they are read.

  Key definitions include:
    * `Source.Escape.read?`
    * `Source.Quoted.value?`
    * `Source.Spells`
    * `Source.StringAt`

  Key theorems include:
    * `Source.hexNumber_hexDigits`
    * `Source.spells_escapePoint`
    * `Source.literal_append_inj`
    * `Source.stringAt_literal`
-/

namespace TypedClient

namespace Source

------------------------------------------------------------
-- Values
------------------------------------------------------------

namespace Escape

/- The letters of escapes and the characters they stand for. -/
def letters : List (Char × Char) :=
  [('\\', '\\'), ('\x27', '\x27'), ('"', '"'), ('a', '\x07'),
    ('b', '\x08'), ('f', '\x0c'), ('n', '\n'), ('r', '\r'),
    ('t', '\t'), ('v', '\x0b')]

/- Whether a character is an octal digit. -/
def isOctalDigit (c : Char) : Bool :=
  '0' ≤ c && c ≤ '7'

/- The number that octal digits write. -/
def octalNumber (cs : List Char) : Nat :=
  cs.foldl (fun n c => n * 8 + (c.toNat - 48)) 0

/- The code point that a number of hexadecimal digits write. -/
def numericPoint?
    (count : Nat)
    (cs : List Char) : Option CodePoint :=
  let digits := (cs.take count).takeWhile isHexDigit
  if digits.length < count then none
  else CodePoint.ofNat? (hexNumber digits)

/-
  What an escape stands for and how many characters it has, both
  from the character behind its backslash on.  A line break
  stands for nothing, and a backslash that starts no escape for
  itself.  Names of characters are not looked up.
-/
def read? : List Char → Option (RawText × Nat)
  | [] => none
  | c :: cs =>
      if c = '\n' then some ([], 1)
      else if c = 'N' then none
      else if isOctalDigit c then
        let digits := ((c :: cs).take 3).takeWhile isOctalDigit
        (CodePoint.ofNat? (octalNumber digits)).map fun p =>
          ([p], digits.length)
      else
        match letters.lookup c, numeric.lookup c with
        | some d, _ => some ([.scalar d], 1)
        | none, some count =>
            (numericPoint? count cs).map fun p =>
              ([p], count + 1)
        | none, none => some ([.scalar '\\', .scalar c], 1)

/-
  What a text between quotes stands for, if as many characters as
  given at its start belong to an escape that has been read.
-/
def valueFrom? : Nat → List Char → Option RawText
  | _, [] => some []
  | n + 1, _ :: cs => valueFrom? n cs
  | 0, c :: cs =>
      if c = '\\' then
        (read? cs).bind fun found =>
          (valueFrom? found.2 cs).map (found.1 ++ ·)
      else (valueFrom? 0 cs).map (.scalar c :: ·)

end Escape

/- The text that a literal stands for, if it is one of text. -/
def Quoted.value? (q : Quoted) : Option RawText :=
  if q.isBytes || q.isTemplate then none
  else if q.isRaw then some (RawText.ofChars q.body)
  else Escape.valueFrom? 0 q.body

/-
  Source with a string of a value right behind a text: a scan that
  is there takes the string as its next token.
-/
def StringAt
    (code front : List Char)
    (value : RawText) : Prop :=
  ∃ rest, code = front ++ rest ∧
    ∀ s : Scan, s.isFresh = false → s.rest = rest →
      ∃ q behind,
        s.step = .more (s.push (.string q) behind) ∧
          q.value? = some value

/- Only one string is right behind a text. -/
theorem StringAt.unique
    {code front : List Char}
    {value other : RawText}
    (h : StringAt code front value)
    (hOther : StringAt code front other) : value = other := by
  rcases h with ⟨rest, hCode, hScan⟩
  rcases hOther with ⟨rest', hCode', hScan'⟩
  have hRest : rest' = rest :=
    List.append_cancel_left (hCode'.symm.trans hCode)
  let s : Scan := ⟨rest, 1, false, [], [], []⟩
  rcases hScan s rfl rfl with ⟨q, behind, hStep, hValue⟩
  rcases hScan' s rfl hRest.symm with
    ⟨q', behind', hStep', hValue'⟩
  rw [hStep] at hStep'
  cases hStep'
  exact Option.some.inj (hValue.symm.trans hValue')

------------------------------------------------------------
-- Hexadecimal digits
------------------------------------------------------------

theorem hexDigit_reads :
    ∀ n < 16, Escape.isHexDigit (Text.hexDigit n) = true ∧
      Escape.hexValue (Text.hexDigit n) = n := by
  decide

theorem length_hexDigits (width n : Nat) :
    (Text.hexDigits width n).length = width := by
  induction width generalizing n with
  | zero => rfl
  | succ w ih => simp [Text.hexDigits, ih]

/- Only digits are written. -/
theorem isHexDigit_of_mem_hexDigits
    {width n : Nat}
    {c : Char}
    (h : c ∈ Text.hexDigits width n) :
    Escape.isHexDigit c = true := by
  induction width generalizing n with
  | zero => cases h
  | succ w ih =>
      rw [Text.hexDigits, List.mem_append] at h
      rcases h with h | h
      · exact ih h
      · rw [List.mem_singleton.1 h]
        exact (hexDigit_reads _ (Nat.mod_lt n (by decide))).1

/- Digits read as the number, up to their width. -/
theorem hexNumber_hexDigits (width n : Nat) :
    Escape.hexNumber (Text.hexDigits width n) =
      n % 16 ^ width := by
  induction width generalizing n with
  | zero => simp [Text.hexDigits, Escape.hexNumber, Nat.mod_one]
  | succ w ih =>
      have hLast := hexDigit_reads _
        (Nat.mod_lt n (by decide : 0 < 16))
      have hFront := ih (n / 16)
      unfold Escape.hexNumber at hFront ⊢
      rw [Text.hexDigits, List.foldl_append, hFront,
        List.foldl_cons, List.foldl_nil, hLast.2, Nat.pow_succ,
        Nat.mul_comm (16 ^ w) 16, Nat.mod_mul]
      omega

/- An escape of four digits reads as its code point. -/
theorem numericPoint?_hexDigits
    {p : CodePoint}
    (h : p.IsBasic)
    (rest : List Char) :
    Escape.numericPoint? 4 (Text.hexDigits 4 p.toNat ++ rest) =
      some p := by
  have hTake : ((Text.hexDigits 4 p.toNat ++ rest).take 4) =
      Text.hexDigits 4 p.toNat :=
    List.take_left' (length_hexDigits 4 _)
  have hDigits : (Text.hexDigits 4 p.toNat).takeWhile
      Escape.isHexDigit = Text.hexDigits 4 p.toNat :=
    List.takeWhile_eq_self_iff.2 fun _ hc =>
      isHexDigit_of_mem_hexDigits hc
  have hNumber : p.toNat % 16 ^ 4 = p.toNat := Nat.mod_eq_of_lt h
  simp only [Escape.numericPoint?, hTake, hDigits,
    length_hexDigits, Nat.lt_irrefl, if_false,
    hexNumber_hexDigits, hNumber, CodePoint.ofNat?_toNat]

------------------------------------------------------------
-- Spellings
------------------------------------------------------------

/-
  Characters between the quotes of a literal that spell a value:
  they do not start with a quote, the scan takes them as they
  are, and the value is read from them.
-/
structure Spells (cs : List Char) (value : RawText) : Prop where
  start : cs.head? ≠ some '"'
  scan : ∀ read line rest,
    Scan.shortBody '"' read line (cs ++ rest) =
      Scan.shortBody '"' (cs.reverse ++ read) line rest
  reads : ∀ rest,
    Escape.valueFrom? 0 (cs ++ rest) =
      (Escape.valueFrom? 0 rest).map (value ++ ·)

namespace Spells

theorem nil : Spells [] [] where
  start := by simp
  scan _ _ _ := rfl
  reads rest := by simp

/- Spellings are joined as their values are. -/
theorem append
    {cs ds : List Char}
    {value other : RawText}
    (h : Spells cs value)
    (hOther : Spells ds other) :
    Spells (cs ++ ds) (value ++ other) where
  start := by
    cases cs with
    | nil => exact hOther.start
    | cons c cs => exact h.start
  scan read line rest := by
    rw [List.append_assoc, h.scan, hOther.scan,
      List.reverse_append, List.append_assoc]
  reads rest := by
    rw [List.append_assoc, h.reads, hOther.reads, Option.map_map]
    congr 1
    funext found
    exact (List.append_assoc value other found).symm

/- Spellings of parts make a spelling of the whole. -/
theorem flatMap
    {α : Type}
    {f : α → List Char}
    {g : α → RawText}
    {xs : List α}
    (h : ∀ x ∈ xs, Spells (f x) (g x)) :
    Spells (xs.flatMap f) (xs.flatMap g) := by
  induction xs with
  | nil => exact nil
  | cons x xs ih =>
      rw [List.flatMap_cons, List.flatMap_cons]
      exact (h x List.mem_cons_self).append
        (ih fun y hy => h y (List.mem_cons_of_mem x hy))

end Spells

/- A character that stands for itself between quotes. -/
def IsVerbatim (c : Char) : Prop :=
  c ≠ '"' ∧ c ≠ '\\' ∧ c ≠ '\n'

/- The scan takes such characters as they are. -/
theorem shortBody_of_isVerbatim
    {cs : List Char}
    (h : ∀ c ∈ cs, IsVerbatim c)
    (read : List Char)
    (line : Nat)
    (rest : List Char) :
    Scan.shortBody '"' read line (cs ++ rest) =
      Scan.shortBody '"' (cs.reverse ++ read) line rest := by
  induction cs generalizing read with
  | nil => rfl
  | cons c cs ih =>
      rcases h c List.mem_cons_self with ⟨hQuote, hSlash, hBreak⟩
      rw [List.cons_append, Scan.shortBody, if_neg hQuote, ih,
        List.reverse_cons, List.append_assoc]
      · rfl
      · exact fun d hd => h d (List.mem_cons_of_mem c hd)
      · exact hBreak
      · exact fun _ _ hEq => (hSlash hEq).elim

/- A hexadecimal digit stands for itself. -/
theorem isVerbatim_of_isHexDigit
    {c : Char}
    (h : Escape.isHexDigit c = true) : IsVerbatim c := by
  refine ⟨?_, ?_, ?_⟩
  · rintro rfl
    exact absurd h (by decide)
  · rintro rfl
    exact absurd h (by decide)
  · rintro rfl
    exact absurd h (by decide)

theorem valueFrom?_append (cs rest : List Char) :
    Escape.valueFrom? cs.length (cs ++ rest) =
      Escape.valueFrom? 0 rest := by
  induction cs with
  | nil => rfl
  | cons c cs ih =>
      rw [List.cons_append, List.length_cons, Escape.valueFrom?,
        ih]

/- An escape that reads in full spells what it is read as. -/
theorem spells_escape
    {c : Char}
    {cs : List Char}
    {value : RawText}
    (hBreak : c ≠ '\n')
    (hVerbatim : ∀ d ∈ cs, IsVerbatim d)
    (hRead : ∀ rest, Escape.read? (c :: cs ++ rest) =
      some (value, (c :: cs).length)) :
    Spells ('\\' :: c :: cs) value where
  start := by simp
  scan read line rest := by
    rw [List.cons_append, List.cons_append, Scan.shortBody,
      if_neg hBreak, shortBody_of_isVerbatim hVerbatim,
      List.reverse_cons, List.reverse_cons, List.append_assoc,
      List.append_assoc]
    rfl
  reads rest := by
    rw [List.cons_append, Escape.valueFrom?, if_pos rfl, hRead,
      Option.bind_some, valueFrom?_append]

theorem spells_of_isVerbatim
    {c : Char}
    (h : IsVerbatim c) : Spells [c] [.scalar c] where
  start hStart := h.1 (Option.some.inj hStart)
  scan := shortBody_of_isVerbatim fun d hd =>
    List.mem_singleton.1 hd ▸ h
  reads rest := by
    rw [List.singleton_append, Escape.valueFrom?, if_neg h.2.1]
    rfl

------------------------------------------------------------
-- Literals
------------------------------------------------------------

/- The escape of a unit spells the code point of the unit. -/
theorem spells_escapeUnit
    {p : CodePoint}
    (h : p.IsBasic) : Spells (Text.escapeUnit p.toNat) [p] := by
  refine spells_escape (by decide) ?_ fun rest => ?_
  · exact fun d hd =>
      isVerbatim_of_isHexDigit (isHexDigit_of_mem_hexDigits hd)
  · have hRead : Escape.read?
        ('u' :: (Text.hexDigits 4 p.toNat ++ rest)) =
          (Escape.numericPoint? 4
            (Text.hexDigits 4 p.toNat ++ rest)).map
              fun q => ([q], 5) :=
      rfl
    rw [List.cons_append, hRead, numericPoint?_hexDigits h,
      List.length_cons, length_hexDigits]
    rfl

/- The escapes of the units of a code point spell its parts. -/
theorem spells_units (p : CodePoint) :
    Spells (p.units.flatMap Text.escapeUnit) p.apart := by
  have hParts : p.apart =
      p.units.flatMap fun u => (CodePoint.ofNat? u).toList := by
    rw [CodePoint.apart, List.filterMap_eq_flatMap_toList]
  rw [hParts]
  refine Spells.flatMap fun u hu => ?_
  rcases CodePoint.exists_of_mem_units hu with ⟨q, hBasic, rfl⟩
  rw [CodePoint.ofNat?_toNat]
  exact spells_escapeUnit hBasic

/- An escape of one letter spells a character below U+10000. -/
theorem spells_letter
    {letter c : Char}
    (hBreak : letter ≠ '\n')
    (hRead : ∀ rest, Escape.read? (letter :: rest) =
      some ([.scalar c], 1))
    (hBasic : c.toNat < 0x10000) :
    Spells ['\\', letter] (CodePoint.scalar c).apart := by
  have hApart : (CodePoint.scalar c).apart = [.scalar c] :=
    CodePoint.apart_of_isBasic hBasic
  rw [hApart]
  exact spells_escape hBreak (fun _ hd => by cases hd) hRead

/- A character is spelled by how it stands in a literal. -/
theorem spells_escapeChar (c : Char) :
    Spells (Text.escapeChar c) (CodePoint.scalar c).apart := by
  unfold Text.escapeChar
  split_ifs with hQuote hSlash hLine hReturn hTab hBack hFeed
    hVisible
  · subst hQuote
    exact spells_letter (by decide) (fun _ => rfl) (by decide)
  · subst hSlash
    exact spells_letter (by decide) (fun _ => rfl) (by decide)
  · subst hLine
    exact spells_letter (by decide) (fun _ => rfl) (by decide)
  · subst hReturn
    exact spells_letter (by decide) (fun _ => rfl) (by decide)
  · subst hTab
    exact spells_letter (by decide) (fun _ => rfl) (by decide)
  · subst hBack
    exact spells_letter (by decide) (fun _ => rfl) (by decide)
  · subst hFeed
    exact spells_letter (by decide) (fun _ => rfl) (by decide)
  · have hBasic : (CodePoint.scalar c).IsBasic :=
      Nat.lt_of_lt_of_le hVisible.2 (by decide)
    rw [CodePoint.apart_of_isBasic hBasic]
    exact spells_of_isVerbatim ⟨hQuote, hSlash, hLine⟩
  · exact spells_units (.scalar c)

/- A code point is spelled by how it stands in a literal. -/
theorem spells_escapePoint (p : CodePoint) :
    Spells (Text.escapePoint p) p.apart := by
  cases p with
  | scalar c => exact spells_escapeChar c
  | surrogate k =>
      have hBasic := CodePoint.isBasic_surrogate k
      rw [CodePoint.apart_of_isBasic hBasic]
      exact spells_escapeUnit hBasic

theorem spells_literal (t : RawText) :
    Spells (t.flatMap Text.escapePoint) t.apart :=
  Spells.flatMap fun p _ => spells_escapePoint p

theorem Spells.value?
    {cs : List Char}
    {value : RawText}
    (h : Spells cs value) :
    Quoted.value? ⟨[], cs⟩ = some value := by
  have hReads := h.reads []
  rw [List.append_nil] at hReads
  simpa [Quoted.value?, Quoted.isBytes, Quoted.isTemplate,
    Quoted.isRaw, Escape.valueFrom?] using hReads

/- The scan of a string ends at the quote behind what is spelled. -/
theorem Spells.shortBody
    {cs : List Char}
    {value : RawText}
    (h : Spells cs value)
    (line : Nat)
    (behind : List Char) :
    Scan.shortBody '"' [] line (cs ++ '"' :: behind) =
      .closed cs behind line := by
  rw [h.scan, Scan.shortBody, if_pos rfl, List.append_nil,
    List.reverse_reverse]
  · decide
  · intro _ _ hEq
    cases hEq

/- A scan that is at a quote reads a string. -/
theorem step_of_quote
    {s : Scan}
    {cs : List Char}
    (hFresh : s.isFresh = false)
    (hRest : s.rest = '"' :: cs) :
    s.step = s.string [] '"' cs := by
  have hSkip : Scan.skipBlanks s.rest = '"' :: cs := by
    rw [hRest]
    rfl
  have hSame :
      { s with rest := '"' :: cs, isFresh := false } = s := by
    rw [← hRest, ← hFresh]
  rw [Scan.step, hFresh, hSkip]
  exact congrArg (fun s => Scan.string s [] '"' cs) hSame

/-
  A scan that is at a quote takes what is spelled behind it as a
  string, unless the quotes could be those of a longer form.
-/
theorem Spells.step
    {cs : List Char}
    {value : RawText}
    (h : Spells cs value)
    {behind : List Char}
    (hBehind : behind.head? ≠ some '"')
    {s : Scan}
    (hFresh : s.isFresh = false)
    (hRest : s.rest = '"' :: (cs ++ '"' :: behind)) :
    s.step = .more (s.push (.string ⟨[], cs⟩) behind) := by
  -- a second quote means an empty text, and no third one follows
  have hShort :
      ['"', '"'].isPrefixOf (cs ++ '"' :: behind) = false := by
    cases cs with
    | nil =>
        cases behind with
        | nil => rfl
        | cons b bs =>
            have hNe : b ≠ '"' := fun hEq =>
              hBehind (congrArg some hEq)
            simp [List.isPrefixOf, Ne.symm hNe]
    | cons c cs =>
        have hNe : c ≠ '"' := fun hEq =>
          h.start (congrArg some hEq)
        simp [List.isPrefixOf, Ne.symm hNe]
  rw [step_of_quote hFresh hRest]
  simp only [Scan.string, hShort, Bool.false_eq_true, if_false,
    h.shortBody, Scan.push]

/- Behind a literal, what is left of a text is known. -/
theorem literal_append_inj
    {s t : RawText}
    {a b : List Char}
    (h : Text.literal s ++ a = Text.literal t ++ b) :
    s.apart = t.apart ∧ a = b := by
  have hQuotes (u : RawText) (rest : List Char) :
      Text.literal u ++ rest =
        '"' :: (u.flatMap Text.escapePoint ++ '"' :: rest) := by
    simp [Text.literal]
  rw [hQuotes, hQuotes] at h
  have hScan := (spells_literal s).shortBody 1 a
  rw [(List.cons.inj h).2, (spells_literal t).shortBody 1 b]
    at hScan
  injection hScan with hBody hRest _
  have hValue := (spells_literal s).value?
  rw [← hBody, (spells_literal t).value?] at hValue
  exact ⟨(Option.some.inj hValue).symm, hRest.symm⟩

/-
  A text that is written as a literal is right behind what stands
  in front of it, with characters above U+FFFF taken apart.
-/
theorem stringAt_literal
    {code front behind : List Char}
    {t : RawText}
    (hBehind : behind.head? ≠ some '"')
    (hCode : code = front ++ (Text.literal t ++ behind)) :
    StringAt code front t.apart := by
  refine ⟨_, hCode, fun s hFresh hRest => ?_⟩
  have hSpells := spells_literal t
  have hQuotes : Text.literal t ++ behind =
      '"' :: (t.flatMap Text.escapePoint ++ '"' :: behind) := by
    simp [Text.literal]
  rw [hQuotes] at hRest
  exact ⟨_, behind, hSpells.step hBehind hFresh hRest,
    hSpells.value?⟩

end Source

end TypedClient
