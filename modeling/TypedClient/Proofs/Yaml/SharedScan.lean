import TypedClient.Proofs.Yaml.Lexeme

/-
  This file shows which tokens the scanner finds in a shared JSON
  text: those that its tree says, one after another.

  Key definitions include:
    * `Json.Source.tokens`
    * `Yaml.Scanner.ScansValue`

  Key theorems include:
    * `Yaml.Scanner.leads_source`
    * `Yaml.scan_written`
-/

namespace TypedClient

open Yaml (Token)

------------------------------------------------------------
-- The tokens of a tree
------------------------------------------------------------

namespace Json

/- The tokens of a key: its marks and its text. -/
def Key.tokens (k : Key) : List Token :=
  [.key, .scalar false k.spelling.value, .value]

mutual

/- The tokens of a value. -/
def Source.tokens : Source → List Token
  | .word w _ => [.scalar true (RawText.ofChars w.1.toList)]
  | .number n => [.scalar true (RawText.ofChars n.text)]
  | .string s => [.scalar false s.value]
  | .emptyArray _ => [.flowSequenceStart, .flowSequenceEnd]
  | .array _ v others =>
      .flowSequenceStart :: (v.tokens ++ others.tokens)
  | .emptyObject _ => [.flowMappingStart, .flowMappingEnd]
  | .object _ k v others =>
      .flowMappingStart ::
        (k.tokens ++ (v.tokens ++ others.tokens))

/- The tokens of the rest of an array. -/
def Items.tokens : Items → List Token
  | .nil _ => [.flowSequenceEnd]
  | .cons _ _ v others => .flowEntry :: (v.tokens ++ others.tokens)

/- The tokens of the rest of an object. -/
def Members.tokens : Members → List Token
  | .nil _ => [.flowMappingEnd]
  | .cons _ _ k v others =>
      .flowEntry :: (k.tokens ++ (v.tokens ++ others.tokens))

end

------------------------------------------------------------
-- What follows a value
------------------------------------------------------------

/- The white space in front of the rest of an array. -/
def Items.gap : Items → Gap
  | .nil g => g
  | .cons g _ _ _ => g

/- The rest of an array from its comma or bracket on. -/
def Items.tail : Items → List Char
  | .nil _ => [']']
  | .cons _ a v others =>
      ',' :: (a.chars ++ (v.text ++ others.text))

/- The white space in front of the rest of an object. -/
def Members.gap : Members → Gap
  | .nil g => g
  | .cons g _ _ _ _ => g

/- The rest of an object from its comma or bracket on. -/
def Members.tail : Members → List Char
  | .nil _ => ['}']
  | .cons _ a k v others =>
      ',' :: (a.chars ++ (k.text ++ (v.text ++ others.text)))

theorem Items.text_eq (i : Items) :
    i.text = i.gap.chars ++ i.tail := by
  cases i with
  | nil g => rfl
  | cons g a v others => rfl

theorem Members.text_eq (m : Members) :
    m.text = m.gap.chars ++ m.tail := by
  cases m with
  | nil g => rfl
  | cons g a k v others => rfl

end Json

namespace Yaml

open Json (Source Items Members Numeral Written)

theorem isFolded_items
    {i : Items}
    (h : i.IsShared) : IsFolded i.gap.chars := by
  cases i with
  | nil g => exact isFolded_gap h
  | cons g a v others => exact isFolded_gap h.1

theorem isFolded_members
    {m : Members}
    (h : m.IsShared) : IsFolded m.gap.chars := by
  cases m with
  | nil g => exact isFolded_gap h
  | cons g a k v others => exact isFolded_gap h.1

/- A word ends in front of the rest of an array. -/
theorem endsWord_items (i : Items) (rest : List Char) :
    Scalar.EndsWord (i.tail ++ rest) := by
  intro ch hCh
  cases i with
  | nil g =>
      cases hCh
      exact Or.inr (Or.inl rfl)
  | cons g a v others =>
      cases hCh
      exact Or.inl rfl

/- A word ends in front of the rest of an object. -/
theorem endsWord_members (m : Members) (rest : List Char) :
    Scalar.EndsWord (m.tail ++ rest) := by
  intro ch hCh
  cases m with
  | nil g =>
      cases hCh
      exact Or.inr (Or.inr rfl)
  | cons g a k v others =>
      cases hCh
      exact Or.inl rfl

namespace Scanner

theorem startsWord_numeral (n : Numeral) : StartsWord n.text := by
  rcases n.text_cases with ⟨ch, more, hDigit, hText⟩
  refine ⟨ch, more, Text.isAlphanum_of_isDigit hDigit, ?_⟩
  rcases hText with ⟨-, hText⟩ | ⟨-, hText⟩
  · exact Or.inl hText
  · exact Or.inr hText

theorem startsWord_word
    {w : String}
    (h : w ∈ ["null", "true", "false"]) :
    StartsWord w.toList := by
  simp only [List.mem_cons, List.not_mem_nil, or_false] at h
  rcases h with rfl | rfl | rfl
  · exact ⟨'n', _, by decide, Or.inl rfl⟩
  · exact ⟨'t', _, by decide, Or.inl rfl⟩
  · exact ⟨'f', _, by decide, Or.inl rfl⟩

------------------------------------------------------------
-- Trees
------------------------------------------------------------

/-
  The scan of a value gives its tokens.  Behind it come white
  space and a comma or a bracket, or nothing.
-/
def ScansValue (v : Source) : Prop :=
  ∀ {s : Scanner} {level : Nat} {g rest : List Char} {ts : List Token},
    IsFolded g → Scalar.EndsWord rest → (level ≠ 0 ∨ rest = []) →
    s.Near level (v.text ++ (g ++ rest)) ts →
    ∃ u : Scanner, s.Leads u ∧
      u.Near level rest (v.tokens.reverse ++ ts)

/- The scan of the rest of an array gives its tokens. -/
def ScansItems (i : Items) : Prop :=
  ∀ {s : Scanner} {level : Nat} {rest : List Char} {ts : List Token},
    s.Near (level + 1) (i.tail ++ rest) ts →
    ∃ u : Scanner, s.Leads u ∧
      u.At level rest (i.tokens.reverse ++ ts)

/- The scan of the rest of an object gives its tokens. -/
def ScansMembers (m : Members) : Prop :=
  ∀ {s : Scanner} {level : Nat} {rest : List Char} {ts : List Token},
    s.Near (level + 1) (m.tail ++ rest) ts →
    ∃ u : Scanner, s.Leads u ∧
      u.At level rest (m.tokens.reverse ++ ts)

/- An item is scanned, and then the items behind it. -/
theorem leads_item
    {v : Source}
    {others : Items}
    (hValue : ScansValue v)
    (hItems : ScansItems others)
    (hShared : others.IsShared)
    {s : Scanner}
    {level : Nat}
    {rest : List Char}
    {ts : List Token}
    (h : s.Near (level + 1) (v.text ++ (others.text ++ rest)) ts) :
    ∃ u : Scanner, s.Leads u ∧
      u.At level rest
        (others.tokens.reverse ++ (v.tokens.reverse ++ ts)) := by
  rw [Items.text_eq, List.append_assoc] at h
  rcases hValue (isFolded_items hShared) (endsWord_items others _)
    (Or.inl (Nat.succ_ne_zero level)) h with ⟨u, hItem, hU⟩
  rcases hItems hU with ⟨w, hBehind, hW⟩
  exact ⟨w, hItem.trans hBehind, hW⟩

/- A member is scanned, and then the members behind it. -/
theorem leads_member
    {k : Json.Key}
    {v : Source}
    {others : Members}
    (hKey : k.IsShared)
    (hValue : ScansValue v)
    (hMembers : ScansMembers others)
    (hShared : others.IsShared)
    {s : Scanner}
    {level : Nat}
    {rest : List Char}
    {ts : List Token}
    (hAllow : s.allowKey = true)
    (h : s.Near (level + 1)
      (k.text ++ (v.text ++ (others.text ++ rest))) ts) :
    ∃ u : Scanner, s.Leads u ∧
      u.At level rest (others.tokens.reverse ++
        (v.tokens.reverse ++ (k.tokens.reverse ++ ts))) := by
  rw [Members.text_eq, List.append_assoc] at h
  rcases leads_key hKey hAllow h with ⟨u, hName, hU⟩
  rcases hValue (isFolded_members hShared)
    (endsWord_members others _) (Or.inl (Nat.succ_ne_zero level))
    (hU.near (isFolded_gap hKey.after)) with ⟨w, hItem, hW⟩
  rcases hMembers hW with ⟨x, hBehind, hX⟩
  exact ⟨x, hName.trans (hItem.trans hBehind), hX⟩

mutual

/- Shared values are scanned to their tokens. -/
theorem leads_source
    {v : Source}
    (hShared : v.IsShared) : ScansValue v := by
  intro s level g rest ts hGap hEnds hFlow h
  cases v with
  | word w hWord =>
      rcases leads_word (startsWord_word hShared)
        (fun ch => isWordChar_of_mem_word hShared) hGap hEnds hFlow
        h with ⟨u, hLeads, hU⟩
      exact ⟨u, hLeads, [], fun ch hCh => (nomatch hCh), hU⟩
  | number n =>
      rcases leads_word (startsWord_numeral n)
        (fun ch => isWordChar_of_mem_numeral) hGap hEnds hFlow h
        with ⟨u, hLeads, hU⟩
      exact ⟨u, hLeads, [], fun ch hCh => (nomatch hCh), hU⟩
  | string s =>
      rcases leads_string hShared h with ⟨u, hLeads, hU, -⟩
      exact ⟨u, hLeads, hU.near hGap⟩
  | emptyArray f =>
      rcases leads_open (Or.inl ⟨rfl, rfl⟩) h with
        ⟨u, hOpen, hU, -⟩
      have hInside : u.Near (level + 1) (']' :: (g ++ rest))
          (.flowSequenceStart :: ts) :=
        At.near (isFolded_gap hShared)
          (by simpa [Source.text] using hU)
      rcases leads_close (Or.inl ⟨rfl, rfl⟩) hInside with
        ⟨w, hClose, hW⟩
      exact ⟨w, hOpen.trans hClose, hW.near hGap⟩
  | array f v others =>
      rcases hShared with ⟨hF, hV, hOthers⟩
      rcases leads_open (Or.inl ⟨rfl, rfl⟩) h with
        ⟨u, hOpen, hU, -⟩
      have hInside : u.Near (level + 1)
          (v.text ++ (others.text ++ (g ++ rest)))
          (.flowSequenceStart :: ts) :=
        At.near (isFolded_gap hF)
          (by simpa [Source.text] using hU)
      rcases leads_item (leads_source hV) (leads_items hOthers)
        hOthers hInside with ⟨w, hItems, hW⟩
      refine ⟨w, hOpen.trans hItems, ?_⟩
      simpa [Source.tokens] using hW.near hGap
  | emptyObject f =>
      rcases leads_open (Or.inr ⟨rfl, rfl⟩) h with
        ⟨u, hOpen, hU, -⟩
      have hInside : u.Near (level + 1) ('}' :: (g ++ rest))
          (.flowMappingStart :: ts) :=
        At.near (isFolded_gap hShared)
          (by simpa [Source.text] using hU)
      rcases leads_close (Or.inr ⟨rfl, rfl⟩) hInside with
        ⟨w, hClose, hW⟩
      exact ⟨w, hOpen.trans hClose, hW.near hGap⟩
  | object f k v others =>
      rcases hShared with ⟨hF, hK, hV, hOthers⟩
      rcases leads_open (Or.inr ⟨rfl, rfl⟩) h with
        ⟨u, hOpen, hU, hAllow⟩
      have hInside : u.Near (level + 1)
          (k.text ++ (v.text ++ (others.text ++ (g ++ rest))))
          (.flowMappingStart :: ts) :=
        At.near (isFolded_gap hF)
          (by simpa [Source.text] using hU)
      rcases leads_member hK (leads_source hV)
        (leads_members hOthers) hOthers hAllow hInside with
        ⟨w, hMembers, hW⟩
      refine ⟨w, hOpen.trans hMembers, ?_⟩
      simpa [Source.tokens] using hW.near hGap

/- So is the rest of a shared array. -/
theorem leads_items
    {i : Items}
    (hShared : i.IsShared) : ScansItems i := by
  intro s level rest ts h
  cases i with
  | nil g => exact leads_close (Or.inl ⟨rfl, rfl⟩) h
  | cons g a v others =>
      rcases hShared with ⟨-, hA, hV, hOthers⟩
      rcases leads_comma h with ⟨u, hComma, hU, -⟩
      have hInside : u.Near (level + 1)
          (v.text ++ (others.text ++ rest)) (.flowEntry :: ts) :=
        At.near (isFolded_gap hA) (by simpa using hU)
      rcases leads_item (leads_source hV) (leads_items hOthers)
        hOthers hInside with ⟨w, hItems, hW⟩
      refine ⟨w, hComma.trans hItems, ?_⟩
      simpa [Items.tokens] using hW

/- So is the rest of a shared object. -/
theorem leads_members
    {m : Members}
    (hShared : m.IsShared) : ScansMembers m := by
  intro s level rest ts h
  cases m with
  | nil g => exact leads_close (Or.inr ⟨rfl, rfl⟩) h
  | cons g a k v others =>
      rcases hShared with ⟨-, hA, hK, hV, hOthers⟩
      rcases leads_comma h with ⟨u, hComma, hU, hAllow⟩
      have hInside : u.Near (level + 1)
          (k.text ++ (v.text ++ (others.text ++ rest)))
          (.flowEntry :: ts) :=
        At.near (isFolded_gap hA) (by simpa using hU)
      rcases leads_member hK (leads_source hV)
        (leads_members hOthers) hOthers hAllow hInside with
        ⟨w, hMembers, hW⟩
      refine ⟨w, hComma.trans hMembers, ?_⟩
      simpa [Members.tokens] using hW

end

end Scanner

------------------------------------------------------------
-- Whole texts
------------------------------------------------------------

/- The scan of a shared text gives the tokens of its tree. -/
theorem scan_written
    {w : Written}
    (h : w.IsShared) :
    Token.scan w.text = (w.source.tokens ++ [.streamEnd], none) := by
  have hStart : (Scanner.start w.text).Near 0
      (w.source.text ++ (w.after.chars ++ [])) [] :=
    Scanner.At.near (isFolded_gap h.before)
      (by simpa [Written.text] using Scanner.at_start w.text)
  have hEnds : Scalar.EndsWord [] := by
    intro ch hCh
    cases hCh
  rcases Scanner.leads_source h.source (isFolded_gap h.after)
    hEnds (Or.inr rfl) hStart with
    ⟨u, ⟨n, hN, hLeads⟩, hU⟩
  have hLength : (Scanner.start w.text).cursor.rest.length =
      w.text.length := rfl
  rcases Nat.exists_eq_add_of_le
    (show n + 1 ≤ w.text.length + 2 by omega) with ⟨fuel, hFuel⟩
  have hScan : Token.scanFrom (Scanner.start w.text)
      (w.text.length + 2) =
        (.streamEnd :: (w.source.tokens.reverse ++ []), none) := by
    rw [hFuel, Nat.add_assoc, Nat.add_comm 1, hLeads]
    exact Scanner.scanFrom_end hU fuel
  rw [Token.scan, if_pos (all_isAllowed_written h)]
  dsimp only
  rw [hScan]
  simp

end Yaml

end TypedClient
