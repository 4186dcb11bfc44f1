import TypedClient.Proofs.Json.Numeral

/-
  This file defines JSON texts as trees that keep everything that
  is written: the white space between the tokens, the spelling of
  strings and numbers, and members whose key comes again.

  Key definitions include:
    * `Json.Gap`
    * `Json.Source`
    * `Json.Source.text`
    * `Json.Source.value`
    * `Json.Source.nesting`
-/

namespace TypedClient

namespace Json

------------------------------------------------------------
-- White space
------------------------------------------------------------

/- Whether a character is white space of JSON. -/
def isBlank (c : Char) : Bool :=
  c = ' ' || c = '\n' || c = '\r' || c = '\t'

/- White space between two tokens. -/
structure Gap where
  chars : List Char
  hBlank : ∀ c ∈ chars, isBlank c = true

/- White space is passed over. -/
theorem skipBlanks_ofChars (cs : List Char) :
    skipBlanks (RawText.ofChars cs) =
      RawText.ofChars (cs.dropWhile isBlank) := by
  induction cs with
  | nil => rfl
  | cons c cs ih =>
      rw [ofChars_cons, skipBlanks]
      by_cases hBlank : isBlank c = true
      · have hCases : c = ' ' ∨ c = '\n' ∨ c = '\r' ∨ c = '\t' := by
          simpa [isBlank, or_assoc] using hBlank
        rw [if_pos hCases, ih, List.dropWhile_cons_of_pos hBlank]
      · have hCases :
            ¬ (c = ' ' ∨ c = '\n' ∨ c = '\r' ∨ c = '\t') := by
          simpa [isBlank, or_assoc] using hBlank
        rw [if_neg hCases, List.dropWhile_cons_of_neg hBlank]
        rfl

/- A gap is passed over, up to what is no white space. -/
theorem skipBlanks_gap
    (g : Gap)
    {rest : List Char}
    (h : Stops isBlank rest) :
    skipBlanks (RawText.ofChars (g.chars ++ rest)) =
      RawText.ofChars rest := by
  have hRest : rest.dropWhile isBlank = rest := by
    cases rest with
    | nil => rfl
    | cons c cs =>
        have hC : ¬ isBlank c = true := by simp [h c rfl]
        exact List.dropWhile_cons_of_neg hC
  rw [skipBlanks_ofChars, List.dropWhile_append_of_pos g.hBlank,
    hRest]

theorem exists_gap (cs : List Char) :
    ∃ (g : Gap) (rest : List Char),
      cs = g.chars ++ rest ∧
        skipBlanks (RawText.ofChars cs) = RawText.ofChars rest :=
  ⟨⟨cs.takeWhile isBlank, List.all_eq_true.1 List.all_takeWhile⟩,
    cs.dropWhile isBlank, List.takeWhile_append_dropWhile.symm,
    skipBlanks_ofChars cs⟩

------------------------------------------------------------
-- Trees
------------------------------------------------------------

/- The key of a member, with the gaps around its colon. -/
structure Key where
  spelling : Spelling
  before : Gap
  after : Gap

mutual

/-
  A value as it is written.  A collection that is not empty has a
  first part, and others behind it.
-/
inductive Source where
  | word (w : String × Json) (h : w ∈ words)
  | number (n : Numeral)
  | string (s : Spelling)
  | emptyArray (inside : Gap)
  | array (before : Gap) (item : Source) (others : Items)
  | emptyObject (inside : Gap)
  | object (before : Gap) (key : Key) (value : Source)
      (others : Members)

/- The rest of an array behind one of its items. -/
inductive Items where
  | nil (before : Gap)
  | cons (before after : Gap) (item : Source) (others : Items)

/- The rest of an object behind one of its members. -/
inductive Members where
  | nil (before : Gap)
  | cons (before after : Gap) (key : Key) (value : Source)
      (others : Members)

end

/- A key as it is written, up to its value. -/
def Key.text (k : Key) : List Char :=
  k.spelling.quoted ++ (k.before.chars ++ ':' :: k.after.chars)

mutual

/- A value as it is written. -/
def Source.text : Source → List Char
  | .word w _ => w.1.toList
  | .number n => n.text
  | .string s => s.quoted
  | .emptyArray g => '[' :: (g.chars ++ [']'])
  | .array g v others => '[' :: (g.chars ++ (v.text ++ others.text))
  | .emptyObject g => '{' :: (g.chars ++ ['}'])
  | .object g k v others =>
      '{' :: (g.chars ++ (k.text ++ (v.text ++ others.text)))

/- The rest of an array as it is written. -/
def Items.text : Items → List Char
  | .nil g => g.chars ++ [']']
  | .cons g a v others =>
      g.chars ++ ',' :: (a.chars ++ (v.text ++ others.text))

/- The rest of an object as it is written. -/
def Members.text : Members → List Char
  | .nil g => g.chars ++ ['}']
  | .cons g a k v others =>
      g.chars ++
        ',' :: (a.chars ++ (k.text ++ (v.text ++ others.text)))

end

mutual

/- The value that is written. -/
def Source.value : Source → Json
  | .word w _ => w.2
  | .number n => n.value
  | .string s => .string s.value
  | .emptyArray _ => .array []
  | .array _ v others => .array (v.value :: others.values)
  | .emptyObject _ => .object []
  | .object _ k v others =>
      .object (ofPairs ((k.spelling.value, v.value) :: others.pairs))

/- The values of the rest of an array. -/
def Items.values : Items → List Json
  | .nil _ => []
  | .cons _ _ v others => v.value :: others.values

/- The keys and values of the rest of an object. -/
def Members.pairs : Members → List (RawText × Json)
  | .nil _ => []
  | .cons _ _ k v others =>
      (k.spelling.value, v.value) :: others.pairs

end

mutual

/- The number of collections around the innermost value. -/
def Source.nesting : Source → Nat
  | .word _ _ => 0
  | .number _ => 0
  | .string _ => 0
  | .emptyArray _ => 1
  | .array _ v others => max v.nesting others.nesting + 1
  | .emptyObject _ => 1
  | .object _ _ v others => max v.nesting others.nesting + 1

/- The same number in the rest of an array. -/
def Items.nesting : Items → Nat
  | .nil _ => 0
  | .cons _ _ v others => max v.nesting others.nesting

/- The same number in the rest of an object. -/
def Members.nesting : Members → Nat
  | .nil _ => 0
  | .cons _ _ _ v others => max v.nesting others.nesting

end

mutual

/- Whether no integer is too long. -/
def Source.Fits : Source → Prop
  | .word _ _ => True
  | .number n => n.Fits
  | .string _ => True
  | .emptyArray _ => True
  | .array _ v others => v.Fits ∧ others.Fits
  | .emptyObject _ => True
  | .object _ _ v others => v.Fits ∧ others.Fits

/- Whether no integer in the rest of an array is too long. -/
def Items.Fits : Items → Prop
  | .nil _ => True
  | .cons _ _ v others => v.Fits ∧ others.Fits

/- Whether no integer in the rest of an object is too long. -/
def Members.Fits : Members → Prop
  | .nil _ => True
  | .cons _ _ _ v others => v.Fits ∧ others.Fits

end

/- A whole text: a value and the white space around it. -/
structure Written where
  before : Gap
  source : Source
  after : Gap

/- The characters of a whole text. -/
def Written.text (w : Written) : List Char :=
  w.before.chars ++ (w.source.text ++ w.after.chars)

end Json

end TypedClient
