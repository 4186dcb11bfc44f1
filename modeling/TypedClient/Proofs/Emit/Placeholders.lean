import TypedClient.Proofs.Emit.Template
import TypedClient.Proofs.Source.Literal

/-
  This file follows placeholders with any names through the
  expression of a path.  A name of word characters is a slot;
  every other one stays in the path as literal text, and an
  argument for it is lost.

  Key definitions include:
    * `Emit.NamedPath`
    * `Emit.NamedPath.Substitutes`
    * `Emit.NamedPath.Outcome`

  Key theorems include:
    * `Emit.NamedPath.ofPath_path`
    * `Emit.NamedPath.placeholders_account`
-/

namespace TypedClient

namespace Emit

------------------------------------------------------------
-- Paths of named placeholders
------------------------------------------------------------

/- Text without braces and parentheses. -/
def IsBare (t : RawText) : Prop :=
  ∀ p ∈ t, p ≠ .scalar '{' ∧ p ≠ .scalar '}' ∧
    p ≠ .scalar '(' ∧ p ≠ .scalar ')'

/-
  A path with placeholders: each with the text in front of it and
  its name, and the text behind the last one.
-/
structure NamedPath where
  parts : List (RawText × RawText)
  last : RawText
  hText : ∀ p ∈ parts, IsBare p.1
  hName : ∀ p ∈ parts, p.2 ≠ [] ∧ IsBare p.2 ∧
    .scalar '/' ∉ p.2
  hLast : IsBare last
  hNonempty : parts ≠ []

/- A placeholder as it stands in a path. -/
def placeholder (name : RawText) : RawText :=
  .scalar '{' :: (name ++ [.scalar '}'])

/- Whether a name has word characters only. -/
def isWordName (name : RawText) : Bool :=
  name.all Path.isNamePoint

/- Placeholders and what is behind them, as a path. -/
def namedText
    (last : RawText)
    (parts : List (RawText × RawText)) : RawText :=
  parts.flatMap (fun p => p.1 ++ placeholder p.2) ++ last

/- The template where the names of word characters are slots. -/
def wordTemplate
    (last : RawText)
    (parts : List (RawText × RawText)) : RawText :=
  parts.flatMap (fun p => p.1 ++
    if isWordName p.2 then emptySlot
    else doubleBraces (placeholder p.2)) ++ last

/- The template where every placeholder is a slot. -/
def slotTemplate
    (last : RawText)
    (parts : List (RawText × RawText)) : RawText :=
  parts.flatMap (fun p => p.1 ++ emptySlot) ++ last

/- The number of names that have word characters only. -/
def wordCount (parts : List (RawText × RawText)) : Nat :=
  (parts.filter fun p => isWordName p.2).length

namespace NamedPath

/- The path itself. -/
def path (p : NamedPath) : RawText :=
  namedText p.last p.parts

/-
  Whether all arguments reach the path: its template has a slot
  for every placeholder, and is filled with all of them.
-/
def Substitutes (p : NamedPath) (args : List String) : Prop :=
  pathExpression p.path args =
    rawLiteral (slotTemplate p.last p.parts) ++
      ".format(" ++ commaList args ++ ")"

end NamedPath

------------------------------------------------------------
-- Reading the pieces
------------------------------------------------------------

/- No slot starts in bare text. -/
theorem piecesFrom_bare
    {cs : RawText}
    (h : IsBare cs)
    (read rest : RawText) :
    Path.piecesFrom read none (cs ++ rest) =
      Path.piecesFrom (cs.reverse ++ read) none rest := by
  induction cs generalizing read with
  | nil => rfl
  | cons c cs ih =>
      have hC := h c List.mem_cons_self
      have hLength : Path.slotLength? c (cs ++ rest) = none := by
        rw [Path.slotLength?, if_neg hC.1, if_neg hC.2.2.1]
      rw [List.cons_append, Path.piecesFrom, hLength]
      dsimp only
      rw [ih fun d hD => h d (List.mem_cons_of_mem c hD)]
      simp

/- A placeholder whose name is a word is a slot. -/
theorem slotLength?_word
    {name : RawText}
    (hNonempty : name ≠ [])
    (hWord : isWordName name = true)
    (rest : RawText) :
    Path.slotLength? (.scalar '{') (name ++ .scalar '}' :: rest) =
      some (name.length + 1) := by
  have hLength := Path.placeholderLength?_eq_some_iff.2
    ⟨name, rest, rfl, hNonempty, List.all_eq_true.1 hWord, rfl⟩
  rw [Path.slotLength?, if_pos rfl, hLength]

/- A placeholder with any other name is none. -/
theorem slotLength?_other
    {name : RawText}
    (hBare : IsBare name)
    (hWord : isWordName name = false)
    (rest : RawText) :
    Path.slotLength? (.scalar '{')
      (name ++ .scalar '}' :: rest) = none := by
  rw [Path.slotLength?, if_pos rfl]
  cases hLength : Path.placeholderLength?
      (name ++ .scalar '}' :: rest) with
  | none => rfl
  | some n =>
      rcases Path.placeholderLength?_eq_some_iff.1 hLength with
        ⟨found, after, hText, -, hFound, -⟩
      have hClosing {cs : RawText}
          (hNo : ∀ c ∈ cs, c ≠ .scalar '}')
          (tail : RawText) :
          (cs ++ .scalar '}' :: tail).takeWhile
            (· ≠ .scalar '}') = cs := by
        rw [List.takeWhile_append_of_pos (by simpa using hNo),
          List.takeWhile_cons_of_neg (by simp), List.append_nil]
      have hNo : ∀ c ∈ found, c ≠ .scalar '}' := by
        rintro c hC rfl
        exact absurd (hFound _ hC) (by simp [Path.isNamePoint_closing])
      have hSame : name = found := by
        rw [← hClosing (fun c hC => (hBare c hC).2.1) rest, hText,
          hClosing hNo]
      rw [hSame, isWordName, List.all_eq_true.2 hFound] at hWord
      cases hWord

/- Bare text has no braces to double. -/
theorem doubleBraces_bare
    {cs : RawText}
    (h : IsBare cs) : doubleBraces cs = cs := by
  induction cs with
  | nil => rfl
  | cons c cs ih =>
      have hC := h c List.mem_cons_self
      have hNot : ¬ (c = .scalar '{' ∨ c = .scalar '}') :=
        not_or.2 ⟨hC.1, hC.2.1⟩
      have hRest := ih fun d hD => h d (List.mem_cons_of_mem c hD)
      unfold doubleBraces at hRest ⊢
      rw [List.flatMap_cons, hRest, templatePoint, if_neg hNot]
      rfl

theorem doubleBraces_append (cs ds : RawText) :
    doubleBraces (cs ++ ds) = doubleBraces cs ++ doubleBraces ds :=
  List.flatMap_append

/-
  The template of a path of placeholders, behind the text that is
  read already.  The induction is on the placeholders; a word ends
  the text that is open, any other name goes on with it.
-/
theorem ofPieces_named
    {last : RawText}
    (hLast : IsBare last)
    (parts : List (RawText × RawText))
    (hText : ∀ p ∈ parts, IsBare p.1)
    (hName : ∀ p ∈ parts, p.2 ≠ [] ∧ IsBare p.2)
    (read : RawText)
    (limit : Nat)
    (hLimit : wordCount parts ≤ limit) :
    Template.ofPieces limit
        (Path.piecesFrom read none (namedText last parts)) =
      ⟨doubleBraces read.reverse ++ wordTemplate last parts,
        wordCount parts⟩ := by
  have hNil : doubleBraces [] = [] := rfl
  induction parts generalizing read limit with
  | nil =>
      have hPieces := piecesFrom_bare hLast read []
      rw [List.append_nil] at hPieces
      rw [namedText, List.flatMap_nil, List.nil_append, hPieces,
        Path.piecesFrom, Template.ofPieces]
      simp [Template.ofPieces, doubleBraces_append,
        doubleBraces_bare hLast, wordTemplate, wordCount]
  | cons p parts ih =>
      have hBare := hText p List.mem_cons_self
      have hP := hName p List.mem_cons_self
      have hRest := ih
        (fun q hQ => hText q (List.mem_cons_of_mem p hQ))
        (fun q hQ => hName q (List.mem_cons_of_mem p hQ))
      have hNamed : namedText last (p :: parts) =
          p.1 ++ .scalar '{' ::
            (p.2 ++ .scalar '}' :: namedText last parts) := by
        simp [namedText, placeholder]
      rw [hNamed, piecesFrom_bare hBare, Path.piecesFrom]
      cases hWord : isWordName p.2 with
      | true =>
          -- the name takes one of the arguments that are left
          have hCount : wordCount (p :: parts) =
              wordCount parts + 1 := by
            simp [wordCount, hWord]
          have hOpen := Path.piecesFrom_open [.scalar '{']
            (p.2 ++ [.scalar '}']) (namedText last parts)
          rw [List.append_assoc, List.singleton_append,
            List.length_append, List.length_singleton] at hOpen
          cases limit with
          | zero => omega
          | succ k =>
              rw [slotLength?_word hP.1 hWord]
              dsimp only
              rw [hOpen, Template.ofPieces, Template.ofPieces,
                hRest [] k (by omega)]
              simp [doubleBraces_append, doubleBraces_bare hBare,
                wordTemplate, hWord, hCount, hNil]
      | false =>
          -- its brackets are text, and the text that is open goes on
          have hCount : wordCount (p :: parts) =
              wordCount parts := by
            simp [wordCount, hWord]
          rw [slotLength?_other hP.2 hWord]
          dsimp only
          rw [piecesFrom_bare hP.2, Path.piecesFrom]
          change Template.ofPieces limit (Path.piecesFrom
            (.scalar '}' :: (p.2.reverse ++
              .scalar '{' :: (p.1.reverse ++ read)))
            none (namedText last parts)) = _
          rw [hRest _ limit (hCount ▸ hLimit)]
          simp [doubleBraces_append, doubleBraces_bare hBare,
            wordTemplate, hWord, hCount, placeholder]

------------------------------------------------------------
-- Which arguments reach the path
------------------------------------------------------------

theorem apart_append (s t : RawText) :
    (s ++ t).apart = s.apart ++ t.apart :=
  List.flatMap_append

theorem length_apart_emptySlot : emptySlot.apart.length = 2 := by
  decide

/- A placeholder that is left has four units at least. -/
theorem length_apart_placeholder (name : RawText) :
    4 ≤ (doubleBraces (placeholder name)).apart.length := by
  have hEnds : doubleBraces (placeholder name) =
      doubleBraces [.scalar '{'] ++
        (doubleBraces name ++ doubleBraces [.scalar '}']) := by
    rw [← doubleBraces_append, ← doubleBraces_append]
    rfl
  have hOpen :
      (doubleBraces [.scalar '{']).apart.length = 2 := by
    decide
  have hClose :
      (doubleBraces [.scalar '}']).apart.length = 2 := by
    decide
  rw [hEnds, apart_append, apart_append, List.length_append,
    List.length_append, hOpen, hClose]
  omega

/- A placeholder that is left takes more room than a slot. -/
theorem length_slotTemplate_le
    (last : RawText)
    (parts : List (RawText × RawText)) :
    (slotTemplate last parts).apart.length ≤
        (wordTemplate last parts).apart.length ∧
      ((slotTemplate last parts).apart.length =
          (wordTemplate last parts).apart.length →
        ∀ p ∈ parts, isWordName p.2 = true) := by
  induction parts with
  | nil => exact ⟨Nat.le_refl _, fun _ p hP => nomatch hP⟩
  | cons p parts ih =>
      have hSlot : (slotTemplate last (p :: parts)).apart.length =
          p.1.apart.length + 2 +
            (slotTemplate last parts).apart.length := by
        rw [slotTemplate, List.flatMap_cons, List.append_assoc,
          apart_append, apart_append, List.length_append,
          List.length_append, length_apart_emptySlot]
        rfl
      cases hWord : isWordName p.2 with
      | true =>
          have hLength :
              (wordTemplate last (p :: parts)).apart.length =
                p.1.apart.length + 2 +
                  (wordTemplate last parts).apart.length := by
            rw [wordTemplate, List.flatMap_cons, if_pos hWord,
              List.append_assoc, apart_append, apart_append,
              List.length_append, List.length_append,
              length_apart_emptySlot]
            rfl
          refine ⟨by omega, fun hSame q hQ => ?_⟩
          rcases List.mem_cons.1 hQ with rfl | hQ
          · exact hWord
          · exact ih.2 (by omega) q hQ
      | false =>
          have hLeft := length_apart_placeholder p.2
          have hLength :
              (wordTemplate last (p :: parts)).apart.length =
                p.1.apart.length +
                  (doubleBraces
                    (placeholder p.2)).apart.length +
                  (wordTemplate last parts).apart.length := by
            rw [wordTemplate, List.flatMap_cons, hWord,
              List.append_assoc, apart_append, apart_append,
              List.length_append, List.length_append]
            rfl
          exact ⟨by omega, fun hSame => by omega⟩

/- If all names are words, every placeholder is a slot. -/
theorem wordTemplate_of_words
    {parts : List (RawText × RawText)}
    (h : ∀ p ∈ parts, isWordName p.2 = true)
    (last : RawText) :
    wordTemplate last parts = slotTemplate last parts ∧
      wordCount parts = parts.length := by
  constructor
  · unfold wordTemplate slotTemplate
    congr 1
    refine List.flatMap_congr fun p hP => ?_
    rw [if_pos (h p hP)]
  · rw [wordCount, List.filter_eq_self.2 h]

namespace NamedPath

/- The template of a path has a slot for every word. -/
theorem ofPath_path
    (p : NamedPath)
    {limit : Nat}
    (h : p.parts.length ≤ limit) :
    Template.ofPath p.path limit =
      ⟨wordTemplate p.last p.parts, wordCount p.parts⟩ := by
  have hCount : wordCount p.parts ≤ limit :=
    Nat.le_trans (List.length_filter_le _ _) h
  rw [Template.ofPath, path]
  exact ofPieces_named p.hLast p.parts p.hText
    (fun q hQ => ⟨(p.hName q hQ).1, (p.hName q hQ).2.1⟩) [] limit
    hCount

/- All arguments reach the path if and only if all names are words. -/
theorem substitutes_iff
    (p : NamedPath)
    {args : List String}
    (h : args.length = p.parts.length) :
    p.Substitutes args ↔
      ∀ q ∈ p.parts, isWordName q.2 = true := by
  have hTemplate := p.ofPath_path (Nat.le_of_eq h.symm)
  unfold Substitutes pathExpression
  rw [hTemplate]
  dsimp only
  constructor
  · intro hSame
    split at hSame
    next =>
      have hChars := congrArg String.toList hSame
      simp only [rawLiteral, String.toList_append,
        List.append_assoc, String.toList_ofList] at hChars
      rw [← List.append_nil (Text.literal p.path)] at hChars
      have hBehind := (Source.literal_append_inj hChars).2
      have hCall : ".format(".toList ≠ [] := by decide
      exact (List.append_ne_nil_of_left_ne_nil hCall _
        hBehind.symm).elim
    next =>
      have hChars := congrArg String.toList hSame
      simp only [rawLiteral, String.toList_append,
        List.append_assoc, String.toList_ofList] at hChars
      have hText := (Source.literal_append_inj hChars).1
      exact (length_slotTemplate_le p.last p.parts).2
        (by rw [hText])
  · intro hWords
    rcases wordTemplate_of_words hWords p.last with ⟨hText, hCount⟩
    have hPositive : wordCount p.parts ≠ 0 := by
      rw [hCount]
      exact fun hZero =>
        p.hNonempty (List.length_eq_zero_iff.1 hZero)
    rw [if_neg hPositive, hText, hCount, ← h, List.take_length]

/-
  What becomes of the placeholders of a path: the path counts as
  variable, its expression fills the names that are words and
  leaves the others as text, and all arguments reach it if and
  only if there are no others.
-/
structure Outcome (p : NamedPath) (args : List String) : Prop where
  isVariable : Path.isVariable p.path = true
  literal : wordCount p.parts = 0 →
    pathExpression p.path args = rawLiteral p.path
  template : wordCount p.parts ≠ 0 →
    pathExpression p.path args =
      rawLiteral (wordTemplate p.last p.parts) ++
        ".format(" ++
          commaList (args.take (wordCount p.parts)) ++ ")"
  substitutes : p.Substitutes args ↔
    ∀ q ∈ p.parts, isWordName q.2 = true

/- Every placeholder is accounted for. -/
theorem placeholders_account
    (p : NamedPath)
    {args : List String}
    (h : args.length = p.parts.length) : p.Outcome args := by
  have hTemplate := p.ofPath_path (Nat.le_of_eq h.symm)
  refine ⟨?_, ?_, ?_, p.substitutes_iff h⟩
  · have hMem : .scalar '{' ∈ p.path := by
      rw [path]
      cases hParts : p.parts with
      | nil => exact (p.hNonempty hParts).elim
      | cons q qs => simp [namedText, placeholder]
    simp [Path.isVariable, hMem]
  · intro hCount
    unfold pathExpression
    rw [hTemplate]
    exact if_pos hCount
  · intro hCount
    unfold pathExpression
    rw [hTemplate]
    exact if_neg hCount

/- The path of a user, under a name for the placeholder. -/
def ofUser
    (name : RawText)
    (hName : name ≠ [] ∧ IsBare name ∧ .scalar '/' ∉ name) :
    NamedPath where
  parts := [("/u/", name)]
  last := []
  hText := by simp [IsBare, RawText.mem_ofString]
  hName := by simpa using hName
  hLast := by simp [IsBare]
  hNonempty := by simp

/- The path with a name of letters and an underscore. -/
def wordUser : NamedPath :=
  ofUser "user_id"
    ⟨by decide, by simp [IsBare, RawText.mem_ofString], by simp⟩

/- The path with a name that has a hyphen in it. -/
def hyphenUser : NamedPath :=
  ofUser "user-id"
    ⟨by decide, by simp [IsBare, RawText.mem_ofString], by simp⟩

/- With a word as its name, the argument reaches the path. -/
theorem placeholders_account_word :
    wordUser.Outcome ["user_id"] ∧
      wordUser.Substitutes ["user_id"] := by
  have hLength : ["user_id"].length = wordUser.parts.length := rfl
  have hOutcome := placeholders_account wordUser hLength
  have hWord : ∀ q ∈ wordUser.parts, isWordName q.2 = true := by
    decide
  exact ⟨hOutcome, hOutcome.substitutes.2 hWord⟩

/- With a hyphen in the name, the argument is lost. -/
theorem not_alwaysSubstitutes :
    ¬ ∀ (p : NamedPath) (args : List String),
      args.length = p.parts.length → p.Substitutes args := by
  intro h
  have hLength : ["user_id"].length = hyphenUser.parts.length := rfl
  have hWords := (hyphenUser.substitutes_iff hLength).1
    (h hyphenUser ["user_id"] hLength)
  have hNot : ¬ ∀ q ∈ hyphenUser.parts, isWordName q.2 = true := by
    decide
  exact hNot hWords

end NamedPath

end Emit

end TypedClient
