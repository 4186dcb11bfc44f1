import TypedClient.Proofs.Json.Source

/-
  This file shows that the JSON reader reads exactly the texts
  that are written as trees: each of them as the value of its
  tree, as long as no integer in it is too long and its
  collections are not nested too deeply.

  Key definitions include:
    * `Json.Written.IsReadable`

  Key theorems include:
    * `Json.decode_written`
    * `Json.exists_written`
-/

namespace TypedClient

namespace Json

------------------------------------------------------------
-- Scalars
------------------------------------------------------------

/- A word at the start of a text is found there. -/
theorem wordFrom?_word
    {w : String × Json}
    (h : w ∈ words)
    (rest : List Char) :
    wordFrom? (RawText.ofChars (w.1.toList ++ rest)) =
      some (w.2, RawText.ofChars rest) := by
  simp only [words, List.mem_cons, List.not_mem_nil, or_false]
    at h
  rcases h with rfl | rfl | rfl | rfl | rfl | rfl
  · rfl
  · rfl
  · rfl
  · rfl
  · rfl
  · rfl

/- A number starts with a digit, perhaps behind a hyphen. -/
theorem Numeral.text_cases (n : Numeral) :
    ∃ c cs, c.isDigit = true ∧
      (n.negative = false ∧ n.text = c :: cs ∨
        n.negative = true ∧ n.text = '-' :: c :: cs) := by
  have hNonempty : n.whole ≠ [] := fun h =>
    digitValues_whole_ne_nil n (by rw [h]; rfl)
  cases hWhole : n.whole with
  | nil => exact absurd hWhole hNonempty
  | cons c cs =>
      refine ⟨c, cs ++ (fractionText n.fraction ++
          exponentText n.exponent),
        n.hWhole c (hWhole ▸ List.mem_cons_self), ?_⟩
      unfold text unsigned
      cases hNegative : n.negative with
      | false =>
          left
          refine ⟨rfl, ?_⟩
          rw [hWhole]
          rfl
      | true =>
          right
          refine ⟨rfl, ?_⟩
          rw [hWhole]
          rfl

/- No word is found where a number is. -/
theorem wordFrom?_numeral (n : Numeral) (rest : List Char) :
    wordFrom? (RawText.ofChars (n.text ++ rest)) = none := by
  have hNot (w : String × Json) (hW : w ∈ words) :
      behind? w.1 (RawText.ofChars (n.text ++ rest)) = none := by
    refine if_neg fun hTake => ?_
    rcases n.text_cases with ⟨c, cs, hDigit, ⟨_, h⟩ | ⟨_, h⟩⟩
    · rw [h] at hTake
      simp only [words, List.mem_cons, List.not_mem_nil,
        or_false] at hW
      rcases hW with rfl | rfl | rfl | rfl | rfl | rfl
      all_goals
        have hC := CodePoint.scalar.inj (List.cons.inj hTake).1
        rw [hC] at hDigit
        cases hDigit
    · rw [h] at hTake
      simp only [words, List.mem_cons, List.not_mem_nil,
        or_false] at hW
      rcases hW with rfl | rfl | rfl | rfl | rfl | rfl
      case inr.inr.inr.inr.inr =>
        have hTail := (List.cons.inj hTake).2
        have hC := CodePoint.scalar.inj (List.cons.inj hTail).1
        rw [hC] at hDigit
        cases hDigit
      all_goals
        have hC := CodePoint.scalar.inj (List.cons.inj hTake).1
        cases hC
  refine List.findSome?_eq_none_iff.2 fun w hW => ?_
  rw [hNot w hW]
  rfl

/- A number is read as a scalar. -/
theorem scalarFrom_numeral
    (n : Numeral)
    {rest : List Char}
    (hFits : n.Fits)
    (h : Stops isNumberChar rest) :
    scalarFrom (RawText.ofChars (n.text ++ rest)) =
      .ok (n.value, RawText.ofChars rest) := by
  have hRead := numberFrom_numeral n hFits h
  unfold scalarFrom
  simp only [wordFrom?_numeral n rest]
  rcases n.text_cases with ⟨c, cs, hDigit, ⟨hSign, hText⟩ |
    ⟨hSign, hText⟩⟩
  · have hUnsigned : n.unsigned = n.text := by
      rw [Numeral.text, hSign]
      rfl
    rw [hSign, hUnsigned, hText] at hRead
    rw [hText, ← hRead]
    split
    next t hT =>
      cases hT
      cases hDigit
    next => rfl
  · have hUnsigned : '-' :: n.unsigned = n.text := by
      rw [Numeral.text, hSign]
      rfl
    rw [hSign] at hRead
    rw [← hUnsigned, ← hRead]
    rfl

theorem scalarFrom_word
    {w : String × Json}
    (h : w ∈ words)
    (rest : List Char) :
    scalarFrom (RawText.ofChars (w.1.toList ++ rest)) =
      .ok (w.2, RawText.ofChars rest) := by
  unfold scalarFrom
  simp only [wordFrom?_word h]

/- What is found behind a word has the word in front of it. -/
theorem exists_behind
    {word : String}
    {cs : List Char}
    {t : RawText}
    (h : behind? word (RawText.ofChars cs) = some t) :
    ∃ rest, cs = word.toList ++ rest ∧
      t = RawText.ofChars rest := by
  have hLength : (RawText.ofString word).length =
      word.toList.length := List.length_map _
  unfold behind? at h
  dsimp only at h
  split at h
  next hTake =>
    cases h
    rw [hLength] at hTake ⊢
    have hWord : cs.take word.toList.length = word.toList := by
      refine (List.map_inj_right
        fun _ _ => CodePoint.scalar.inj).1 ?_
      rw [List.map_take]
      exact hTake
    refine ⟨cs.drop word.toList.length, ?_, List.map_drop.symm⟩
    calc
      cs = cs.take word.toList.length ++
          cs.drop word.toList.length :=
        (List.take_append_drop _ cs).symm
      _ = word.toList ++ cs.drop word.toList.length := by
        rw [hWord]
  next => cases h

/- What is read as a number, with its sign in front, is a tree. -/
theorem exists_number
    {negative : Bool}
    {cs : List Char}
    {v : Json}
    {t : RawText}
    (h : numberFrom negative (RawText.ofChars cs) = .ok (v, t)) :
    ∃ (s : Source) (rest : List Char),
      (if negative then '-' :: cs else cs) = s.text ++ rest ∧
        t = RawText.ofChars rest ∧
          v = s.value ∧ s.Fits ∧ s.nesting = 0 := by
  rcases exists_numeral h with
    ⟨n, rest, rfl, rfl, rfl, rfl, hFits⟩
  refine ⟨.number n, rest, ?_, rfl, rfl, hFits, rfl⟩
  rw [Source.text, Numeral.text]
  cases n.negative with
  | false => rfl
  | true => rfl

/- What is read as a scalar is a word or a numeral. -/
theorem exists_scalar
    {cs : List Char}
    {v : Json}
    {t : RawText}
    (h : scalarFrom (RawText.ofChars cs) = .ok (v, t)) :
    ∃ (s : Source) (rest : List Char),
      cs = s.text ++ rest ∧ t = RawText.ofChars rest ∧
        v = s.value ∧ s.Fits ∧ s.nesting = 0 := by
  unfold scalarFrom at h
  split at h
  next found hWord =>
    cases h
    rcases List.exists_of_findSome?_eq_some hWord with
      ⟨w, hW, hFound⟩
    rcases Option.map_eq_some_iff.1 hFound with
      ⟨t', hBehind, hSame⟩
    cases hSame
    rcases exists_behind hBehind with ⟨rest, rfl, rfl⟩
    exact ⟨.word w hW, rest, rfl, rfl, rfl, trivial, rfl⟩
  next =>
    split at h
    next t' hText =>
      rcases ofChars_eq_cons hText with ⟨c, cs', rfl, hC, rfl⟩
      cases hC
      exact exists_number h
    next => exact exists_number h

------------------------------------------------------------
-- What follows
------------------------------------------------------------

theorem stops_cons
    {p : Char → Bool}
    {c : Char}
    (h : p c = false)
    (cs : List Char) : Stops p (c :: cs) := by
  intro d hD
  cases hD
  exact h

/- White space does not go on with a number. -/
theorem Gap.stops_number
    (g : Gap)
    {rest : List Char}
    (h : Stops isNumberChar rest) :
    Stops isNumberChar (g.chars ++ rest) := by
  cases hChars : g.chars with
  | nil => exact h
  | cons c cs =>
      refine stops_cons ?_ _
      have hBlank := g.hBlank c (hChars ▸ List.mem_cons_self)
      have hCases : c = ' ' ∨ c = '\n' ∨ c = '\r' ∨ c = '\t' := by
        simpa [isBlank, or_assoc] using hBlank
      rcases hCases with rfl | rfl | rfl | rfl
      · rfl
      · rfl
      · rfl
      · rfl

/-
  The characters that values start with are neither white space
  nor brackets that close.
-/
theorem Source.starts (s : Source) (rest : List Char) :
    Stops (fun c => isBlank c || c = ']' || c = '}')
      (s.text ++ rest) := by
  cases s with
  | word w h =>
      simp only [words, List.mem_cons, List.not_mem_nil, or_false]
        at h
      rcases h with rfl | rfl | rfl | rfl | rfl | rfl
      all_goals exact stops_cons rfl _
  | number n =>
      rcases n.text_cases with
        ⟨c, cs, hDigit, ⟨_, hText⟩ | ⟨_, hText⟩⟩
      · rw [text, hText]
        refine stops_cons ?_ _
        have hNot (d : Char) (hD : d.isDigit = false) : c ≠ d :=
          fun h => by rw [h, hD] at hDigit; cases hDigit
        simp [isBlank, hNot ' ' rfl, hNot '\n' rfl, hNot '\r' rfl,
          hNot '\t' rfl, hNot ']' rfl, hNot '}' rfl]
      · rw [text, hText]
        exact stops_cons rfl _
  | string s => exact stops_cons rfl _
  | emptyArray g => exact stops_cons rfl _
  | array g v others => exact stops_cons rfl _
  | emptyObject g => exact stops_cons rfl _
  | object g k v others => exact stops_cons rfl _

theorem Source.stops_blank (s : Source) (rest : List Char) :
    Stops isBlank (s.text ++ rest) := by
  intro c hC
  have hStarts := s.starts rest c hC
  simp only [Bool.or_eq_false_iff] at hStarts
  exact hStarts.1.1

/- Behind an item no number goes on. -/
theorem Items.stops_number (others : Items) (rest : List Char) :
    Stops isNumberChar (others.text ++ rest) := by
  cases others with
  | nil g =>
      rw [text, List.append_assoc]
      exact g.stops_number (stops_cons rfl _)
  | cons g a v others =>
      rw [text, List.append_assoc]
      exact g.stops_number (stops_cons rfl _)

/- Behind a member no number goes on. -/
theorem Members.stops_number
    (others : Members)
    (rest : List Char) :
    Stops isNumberChar (others.text ++ rest) := by
  cases others with
  | nil g =>
      rw [text, List.append_assoc]
      exact g.stops_number (stops_cons rfl _)
  | cons g a k v others =>
      rw [text, List.append_assoc]
      exact g.stops_number (stops_cons rfl _)

------------------------------------------------------------
-- Every tree is read
------------------------------------------------------------

/- Whether a value is read, whatever follows. -/
def Source.Reads (s : Source) : Prop :=
  ∀ fuel depth rest, s.Fits → s.nesting ≤ depth →
    2 * s.text.length ≤ fuel → Stops isNumberChar rest →
      valueFrom fuel depth (RawText.ofChars (s.text ++ rest)) =
        .ok (s.value, RawText.ofChars rest)

/- Whether the rest of an array is read behind any item. -/
def Items.Reads (others : Items) : Prop :=
  ∀ (v : Source) fuel depth read rest, v.Reads →
    v.Fits → others.Fits →
    v.nesting ≤ depth → others.nesting ≤ depth →
    2 * (v.text.length + others.text.length) ≤ fuel →
      itemsFrom fuel depth read
          (RawText.ofChars (v.text ++ (others.text ++ rest))) =
        .ok (.array (read.reverse ++ v.value :: others.values),
          RawText.ofChars rest)

/- Whether the rest of an object is read behind any member. -/
def Members.Reads (others : Members) : Prop :=
  ∀ (k : Key) (v : Source) fuel depth read rest, v.Reads →
    v.Fits → others.Fits →
    v.nesting ≤ depth → others.nesting ≤ depth →
    2 * (v.text.length + others.text.length) < fuel →
      membersFrom fuel depth read (RawText.ofChars
          (k.text ++ (v.text ++ (others.text ++ rest)))) =
        .ok (.object (ofPairs (read.reverse ++
          (k.spelling.value, v.value) :: others.pairs)),
          RawText.ofChars rest)

/- The end of an array is read. -/
theorem Items.reads_nil (g : Gap) : (Items.nil g).Reads := by
  intro v fuel depth read rest hReads hFits _ hDepth _ hFuel
  have hLength : 0 < (Items.nil g).text.length := by
    simp [text]
  obtain ⟨fuel, rfl⟩ : ∃ n, fuel = n + 1 :=
    ⟨fuel - 1, by omega⟩
  have hValue := hReads fuel depth ((Items.nil g).text ++ rest)
    hFits hDepth (by omega) ((Items.nil g).stops_number rest)
  have hBlanks : skipBlanks
      (RawText.ofChars ((Items.nil g).text ++ rest)) =
      RawText.ofChars (']' :: rest) := by
    rw [text, List.append_assoc]
    exact skipBlanks_gap g (stops_cons rfl _)
  unfold itemsFrom
  rw [hValue]
  dsimp only
  rw [hBlanks]
  simp [ofChars_cons, values]

/- A further item is read, and what is behind it. -/
theorem Items.reads_cons
    (g a : Gap)
    {w : Source}
    {others : Items}
    (hItem : w.Reads)
    (hOthers : others.Reads) : (Items.cons g a w others).Reads := by
  intro v fuel depth read rest hReads hFits hFitsAll hDepth
    hDepthAll hFuel
  have hLength : (Items.cons g a w others).text.length =
      g.chars.length + (a.chars.length +
        (w.text.length + others.text.length) + 1) := by
    simp [text]
  obtain ⟨fuel, rfl⟩ : ∃ n, fuel = n + 1 :=
    ⟨fuel - 1, by omega⟩
  have hValue := hReads fuel depth
    ((Items.cons g a w others).text ++ rest)
    hFits hDepth (by omega)
    ((Items.cons g a w others).stops_number rest)
  have hBlanks : skipBlanks
      (RawText.ofChars ((Items.cons g a w others).text ++ rest)) =
      RawText.ofChars (',' :: (a.chars ++
        (w.text ++ (others.text ++ rest)))) := by
    rw [text, List.append_assoc, List.cons_append,
      List.append_assoc, List.append_assoc]
    exact skipBlanks_gap g (stops_cons rfl _)
  have hNext := hOthers w fuel depth (v.value :: read) rest hItem
    hFitsAll.1 hFitsAll.2
    (Nat.le_trans (Nat.le_max_left _ _) hDepthAll)
    (Nat.le_trans (Nat.le_max_right _ _) hDepthAll) (by omega)
  unfold itemsFrom
  rw [hValue]
  dsimp only
  rw [hBlanks]
  change itemsFrom fuel depth (v.value :: read)
    (skipBlanks (RawText.ofChars _)) = _
  rw [skipBlanks_gap a (w.stops_blank _), hNext]
  simp [values]

/-
  A key is read, and the value behind it; what is behind the value
  ends the object or goes on with it.
-/
theorem membersFrom_key
    (k : Key)
    {v : Source}
    {fuel depth : Nat}
    (read : List (RawText × Json))
    {rest : List Char}
    (hReads : v.Reads)
    (hFits : v.Fits)
    (hDepth : v.nesting ≤ depth)
    (hFuel : 2 * v.text.length ≤ fuel)
    (hRest : Stops isNumberChar rest) :
    (∀ t, skipBlanks (RawText.ofChars rest) = .scalar '}' :: t →
      membersFrom (fuel + 1) depth read
          (RawText.ofChars (k.text ++ (v.text ++ rest))) =
        .ok (.object (ofPairs
          ((k.spelling.value, v.value) :: read).reverse), t)) ∧
    (∀ t, skipBlanks (RawText.ofChars rest) = .scalar ',' :: t →
      membersFrom (fuel + 1) depth read
          (RawText.ofChars (k.text ++ (v.text ++ rest))) =
        membersFrom fuel depth
          ((k.spelling.value, v.value) :: read)
          (skipBlanks t)) := by
  have hString := stringFrom_spelling k.spelling [] false
    (k.before.chars ++ ':' :: (k.after.chars ++ (v.text ++ rest)))
  have hColon := skipBlanks_gap k.before (stops_cons (by rfl)
    (k.after.chars ++ (v.text ++ rest)) :
      Stops isBlank (':' :: (k.after.chars ++ (v.text ++ rest))))
  have hAfter := skipBlanks_gap k.after (v.stops_blank rest)
  have hValue := hReads fuel depth rest hFits hDepth hFuel hRest
  have hText : k.text ++ (v.text ++ rest) =
      '"' :: (k.spelling.text ++ '"' :: (k.before.chars ++
        ':' :: (k.after.chars ++ (v.text ++ rest)))) := by
    simp [Key.text, Spelling.quoted]
  rw [hText, ofChars_cons]
  refine ⟨fun t hEnd => ?_, fun t hComma => ?_⟩
  · conv =>
      lhs
      unfold membersFrom
    simp only [hString, hColon, ofChars_cons, hAfter, hValue, hEnd]
    rfl
  · conv =>
      lhs
      unfold membersFrom
    simp only [hString, hColon, ofChars_cons, hAfter, hValue,
      hComma]
    rfl

/- The end of an object is read. -/
theorem Members.reads_nil (g : Gap) : (Members.nil g).Reads := by
  intro k v fuel depth read rest hReads hFits _ hDepth _ hFuel
  obtain ⟨fuel, rfl⟩ : ∃ n, fuel = n + 1 :=
    ⟨fuel - 1, by omega⟩
  have hBlanks : skipBlanks
      (RawText.ofChars ((Members.nil g).text ++ rest)) =
      RawText.ofChars ('}' :: rest) := by
    rw [text, List.append_assoc]
    exact skipBlanks_gap g (stops_cons rfl _)
  rw [(membersFrom_key k read hReads hFits hDepth (by omega)
    ((Members.nil g).stops_number rest)).1
      (RawText.ofChars rest) hBlanks]
  simp [pairs]

/- A further member is read, and what is behind it. -/
theorem Members.reads_cons
    (g a : Gap)
    (j : Key)
    {w : Source}
    {others : Members}
    (hItem : w.Reads)
    (hOthers : others.Reads) :
    (Members.cons g a j w others).Reads := by
  intro k v fuel depth read rest hReads hFits hFitsAll hDepth
    hDepthAll hFuel
  have hLength : w.text.length + others.text.length + 1 ≤
      (Members.cons g a j w others).text.length := by
    simp only [text, List.length_append, List.length_cons]
    omega
  obtain ⟨fuel, rfl⟩ : ∃ n, fuel = n + 1 :=
    ⟨fuel - 1, by omega⟩
  have hBlanks : skipBlanks (RawText.ofChars
      ((Members.cons g a j w others).text ++ rest)) =
      RawText.ofChars (',' :: (a.chars ++
        (j.text ++ (w.text ++ (others.text ++ rest))))) := by
    rw [text, List.append_assoc, List.cons_append,
      List.append_assoc, List.append_assoc, List.append_assoc]
    exact skipBlanks_gap g (stops_cons rfl _)
  have hNext := hOthers j w fuel depth
    ((k.spelling.value, v.value) :: read) rest hItem
    hFitsAll.1 hFitsAll.2
    (Nat.le_trans (Nat.le_max_left _ _) hDepthAll)
    (Nat.le_trans (Nat.le_max_right _ _) hDepthAll) (by omega)
  have hKey : Stops isBlank
      (j.text ++ (w.text ++ (others.text ++ rest))) :=
    stops_cons rfl _
  rw [(membersFrom_key k read hReads hFits hDepth (by omega)
    ((Members.cons g a j w others).stops_number rest)).2 _ hBlanks]
  change membersFrom fuel depth _
    (skipBlanks (RawText.ofChars _)) = _
  rw [skipBlanks_gap a hKey, hNext]
  simp [pairs]

/- A scalar other than a string is read by its own reader. -/
theorem valueFrom_scalar
    {t : RawText}
    {v : Json × RawText}
    (fuel depth : Nat)
    (h : scalarFrom t = .ok v) :
    valueFrom (fuel + 1) depth t = .ok v := by
  unfold valueFrom
  split
  next => cases h
  next => cases h
  next => cases h
  next => exact h

theorem Source.text_ne_nil (s : Source) : s.text ≠ [] := by
  intro h
  have hStarts := s.starts [']'] ']' (by rw [h]; rfl)
  cases hStarts

theorem exists_fuel
    {fuel : Nat}
    {cs : List Char}
    (hNonempty : cs ≠ [])
    (hFuel : 2 * cs.length ≤ fuel) :
    ∃ n, fuel = n + 1 ∧ 2 * cs.length ≤ n + 1 := by
  have hLength := List.length_pos_iff.2 hNonempty
  exact ⟨fuel - 1, by omega, by omega⟩

theorem exists_depth
    {n depth : Nat}
    (hDepth : n + 1 ≤ depth) : ∃ d, depth = d + 1 ∧ n ≤ d :=
  ⟨depth - 1, by omega, by omega⟩

/- An empty array is read. -/
theorem Source.reads_emptyArray (g : Gap) :
    (Source.emptyArray g).Reads := by
  intro fuel depth rest _ hDepth hFuel _
  obtain ⟨fuel, rfl, -⟩ := exists_fuel (text_ne_nil _) hFuel
  obtain ⟨depth, rfl, -⟩ := exists_depth hDepth
  have hBlanks := skipBlanks_gap g (stops_cons rfl rest :
    Stops isBlank (']' :: rest))
  unfold valueFrom
  simp only [text, List.cons_append, List.append_assoc,
    ofChars_cons, List.nil_append, hBlanks, value]

/- An empty object is read. -/
theorem Source.reads_emptyObject (g : Gap) :
    (Source.emptyObject g).Reads := by
  intro fuel depth rest _ hDepth hFuel _
  obtain ⟨fuel, rfl, -⟩ := exists_fuel (text_ne_nil _) hFuel
  obtain ⟨depth, rfl, -⟩ := exists_depth hDepth
  have hBlanks := skipBlanks_gap g (stops_cons rfl rest :
    Stops isBlank ('}' :: rest))
  unfold valueFrom
  simp only [text, List.cons_append, List.append_assoc,
    ofChars_cons, List.nil_append, hBlanks, value]

/- An array is read if its items are. -/
theorem Source.reads_array
    (g : Gap)
    {v : Source}
    {others : Items}
    (hItem : v.Reads)
    (hOthers : others.Reads) : (Source.array g v others).Reads := by
  intro fuel depth rest hFits hDepth hFuel _
  obtain ⟨fuel, rfl, hFuel⟩ :=
    exists_fuel (text_ne_nil _) hFuel
  obtain ⟨depth, rfl, hInside⟩ := exists_depth hDepth
  have hDepth := Nat.max_le.1 hInside
  simp only [text, List.length_cons, List.length_append] at hFuel
  have hBlanks := skipBlanks_gap g
    (v.stops_blank (others.text ++ rest))
  have hItems := hOthers v fuel depth [] rest hItem hFits.1
    hFits.2 hDepth.1 hDepth.2 (by omega)
  have hText : (Source.array g v others).text ++ rest =
      '[' :: (g.chars ++ (v.text ++ (others.text ++ rest))) := by
    simp [text]
  rw [hText, ofChars_cons]
  unfold valueFrom
  simp only [hBlanks]
  split
  next t hT =>
    rcases ofChars_eq_cons hT with ⟨c, cs, hCs, hC, -⟩
    cases hC
    have hStarts := v.starts (others.text ++ rest) ']'
      (by rw [hCs]; rfl)
    cases hStarts
  next => exact hItems

/- An object is read if its values are. -/
theorem Source.reads_object
    (g : Gap)
    (k : Key)
    {v : Source}
    {others : Members}
    (hValue : v.Reads)
    (hOthers : others.Reads) :
    (Source.object g k v others).Reads := by
  intro fuel depth rest hFits hDepth hFuel _
  obtain ⟨fuel, rfl, hFuel⟩ :=
    exists_fuel (text_ne_nil _) hFuel
  obtain ⟨depth, rfl, hInside⟩ := exists_depth hDepth
  have hDepth := Nat.max_le.1 hInside
  simp only [text, List.length_cons, List.length_append] at hFuel
  have hKey : Stops isBlank
      (k.text ++ (v.text ++ (others.text ++ rest))) :=
    stops_cons rfl _
  have hBlanks := skipBlanks_gap g hKey
  have hMembers := hOthers k v fuel depth [] rest hValue hFits.1
    hFits.2 hDepth.1 hDepth.2 (by omega)
  have hText : (Source.object g k v others).text ++ rest =
      '{' :: (g.chars ++
        (k.text ++ (v.text ++ (others.text ++ rest)))) := by
    simp [text]
  rw [hText, ofChars_cons]
  unfold valueFrom
  simp only [hBlanks]
  exact hMembers

/- A string is read. -/
theorem Source.reads_string (s : Spelling) :
    (Source.string s).Reads := by
  intro fuel depth rest _ _ hFuel _
  obtain ⟨fuel, rfl, -⟩ := exists_fuel (text_ne_nil _) hFuel
  have hString := stringFrom_spelling s [] false rest
  have hText : (Source.string s).text ++ rest =
      '"' :: (s.text ++ '"' :: rest) := by
    simp [text, Spelling.quoted]
  rw [hText, ofChars_cons]
  unfold valueFrom
  simp only [hString]
  rfl

mutual

/- Every value is read. -/
theorem Source.reads (s : Source) : s.Reads := by
  cases s with
  | word w h =>
      intro fuel depth rest _ _ hFuel _
      obtain ⟨fuel, rfl, -⟩ := exists_fuel (Source.text_ne_nil _) hFuel
      exact valueFrom_scalar fuel depth (scalarFrom_word h rest)
  | number n =>
      intro fuel depth rest hFits _ hFuel hRest
      obtain ⟨fuel, rfl, -⟩ := exists_fuel (Source.text_ne_nil _) hFuel
      exact valueFrom_scalar fuel depth
        (scalarFrom_numeral n hFits hRest)
  | string s => exact Source.reads_string s
  | emptyArray g => exact Source.reads_emptyArray g
  | array g v others =>
      exact Source.reads_array g v.reads others.reads
  | emptyObject g => exact Source.reads_emptyObject g
  | object g k v others =>
      exact Source.reads_object g k v.reads others.reads

theorem Items.reads (others : Items) : others.Reads := by
  cases others with
  | nil g => exact Items.reads_nil g
  | cons g a v others =>
      exact Items.reads_cons g a v.reads others.reads

theorem Members.reads (others : Members) : others.Reads := by
  cases others with
  | nil g => exact Members.reads_nil g
  | cons g a k v others =>
      exact Members.reads_cons g a k v.reads others.reads

end

/-
  Whether a text is within the limits of the reader: on the digits
  of its integers and on its nesting.
-/
structure Written.IsReadable (w : Written) : Prop where
  fits : w.source.Fits
  nesting : w.source.nesting ≤ maxDepth

/- Every text within the limits is read as its value. -/
theorem decode_written
    {w : Written}
    (h : w.IsReadable) :
    decode (RawText.ofChars w.text) = .ok w.source.value := by
  have hAfter : Stops isNumberChar w.after.chars := by
    have hEnd : Stops isNumberChar [] := fun _ hC => nomatch hC
    have hStops := w.after.stops_number hEnd
    rwa [List.append_nil] at hStops
  have hBlanks := skipBlanks_gap w.before
    (w.source.stops_blank w.after.chars)
  have hLength : 2 * w.source.text.length ≤
      2 * (RawText.ofChars w.text).length + 2 := by
    simp only [RawText.ofChars, List.length_map, Written.text,
      List.length_append]
    omega
  have hValue := w.source.reads _ maxDepth w.after.chars h.fits
    h.nesting hLength hAfter
  have hEnd : skipBlanks (RawText.ofChars w.after.chars) = [] := by
    have hNil : Stops isBlank [] := fun _ hC => nomatch hC
    have hGap := skipBlanks_gap w.after hNil
    rwa [List.append_nil] at hGap
  unfold decode
  simp only [Written.text] at hValue ⊢
  rw [hBlanks, hValue]
  simp only [hEnd]
  rfl

------------------------------------------------------------
-- Nothing else is read
------------------------------------------------------------

/-
  Whether what a reader of values accepts is a tree, within the
  limit on its nesting.
-/
def ReadsSources (fuel depth : Nat) : Prop :=
  ∀ cs v t,
    valueFrom fuel depth (RawText.ofChars cs) = .ok (v, t) →
      ∃ (s : Source) (rest : List Char), cs = s.text ++ rest ∧
        t = RawText.ofChars rest ∧ v = s.value ∧ s.Fits ∧
          s.nesting ≤ depth

/- Whether what a reader of items accepts are items. -/
def ReadsItems (fuel depth : Nat) : Prop :=
  ∀ read cs v t,
    itemsFrom fuel depth read (RawText.ofChars cs) = .ok (v, t) →
      ∃ (s : Source) (others : Items) (rest : List Char),
        cs = s.text ++ (others.text ++ rest) ∧
        t = RawText.ofChars rest ∧
        v = .array (read.reverse ++ s.value :: others.values) ∧
        (s.Fits ∧ others.Fits) ∧
        max s.nesting others.nesting ≤ depth

/- Whether what a reader of members accepts are members. -/
def ReadsMembers (fuel depth : Nat) : Prop :=
  ∀ read cs v t,
    membersFrom fuel depth read (RawText.ofChars cs) =
        .ok (v, t) →
      ∃ (k : Key) (s : Source) (others : Members)
        (rest : List Char),
        cs = k.text ++ (s.text ++ (others.text ++ rest)) ∧
        t = RawText.ofChars rest ∧
        v = .object (ofPairs (read.reverse ++
          (k.spelling.value, s.value) :: others.pairs)) ∧
        (s.Fits ∧ others.Fits) ∧
        max s.nesting others.nesting ≤ depth

/- Text that starts with a character behind white space. -/
theorem exists_gap_cons
    {cs : List Char}
    {c : Char}
    {t : RawText}
    (h : skipBlanks (RawText.ofChars cs) = .scalar c :: t) :
    ∃ (g : Gap) (rest : List Char), cs = g.chars ++ c :: rest ∧
      t = RawText.ofChars rest := by
  rcases exists_gap cs with ⟨g, rest, rfl, hRest⟩
  rcases ofChars_eq_cons (hRest.symm.trans h) with
    ⟨d, rest, rfl, hD, rfl⟩
  cases hD
  exact ⟨g, rest, rfl, rfl⟩

/- A value is a tree if the collections in it are. -/
theorem readsSources_succ
    {fuel depth : Nat}
    (hItems : ∀ d, ReadsItems fuel d)
    (hMembers : ∀ d, ReadsMembers fuel d) :
    ReadsSources (fuel + 1) depth := by
  intro cs v t h
  unfold valueFrom at h
  split at h
  next u hText =>
    rcases ofChars_eq_cons hText with ⟨c, cs, rfl, hC, rfl⟩
    cases hC
    split at h
    next => cases h
    next s u hString =>
      cases h
      rcases exists_spelling hString with
        ⟨s, rest, rfl, rfl, rfl⟩
      refine ⟨.string s, rest, ?_, rfl, rfl, trivial,
        Nat.zero_le _⟩
      simp [Source.text, Spelling.quoted]
  next u hText =>
    rcases ofChars_eq_cons hText with ⟨c, cs, rfl, hC, rfl⟩
    cases hC
    split at h
    next => cases h
    next depth =>
      split at h
      next u hBlanks =>
        cases h
        rcases exists_gap_cons hBlanks with ⟨g, rest, rfl, rfl⟩
        refine ⟨.emptyArray g, rest, ?_, rfl, rfl, trivial,
          Nat.succ_le_succ (Nat.zero_le _)⟩
        simp [Source.text]
      next u _ =>
        rcases exists_gap cs with ⟨g, rest, rfl, hRest⟩
        rw [hRest] at h
        rcases hItems depth _ _ _ _ h with
          ⟨s, others, rest, rfl, rfl, rfl, hFits, hNesting⟩
        refine ⟨.array g s others, rest, ?_, rfl, rfl, hFits,
          Nat.succ_le_succ hNesting⟩
        simp [Source.text]
  next u hText =>
    rcases ofChars_eq_cons hText with ⟨c, cs, rfl, hC, rfl⟩
    cases hC
    split at h
    next => cases h
    next depth =>
      split at h
      next u hBlanks =>
        cases h
        rcases exists_gap_cons hBlanks with ⟨g, rest, rfl, rfl⟩
        refine ⟨.emptyObject g, rest, ?_, rfl, rfl, trivial,
          Nat.succ_le_succ (Nat.zero_le _)⟩
        simp [Source.text]
      next u _ =>
        rcases exists_gap cs with ⟨g, rest, rfl, hRest⟩
        rw [hRest] at h
        rcases hMembers depth _ _ _ _ h with
          ⟨k, s, others, rest, rfl, rfl, rfl, hFits, hNesting⟩
        refine ⟨.object g k s others, rest, ?_, rfl, rfl, hFits,
          Nat.succ_le_succ hNesting⟩
        simp [Source.text]
  next =>
    -- a scalar has no depth, so any that is left will do
    rcases exists_scalar h with
      ⟨s, rest, rfl, rfl, rfl, hFits, hNesting⟩
    exact ⟨s, rest, rfl, rfl, rfl, hFits, by omega⟩

/- Items are trees if values are. -/
theorem readsItems_succ
    {fuel depth : Nat}
    (hValue : ReadsSources fuel depth)
    (hItems : ReadsItems fuel depth) :
    ReadsItems (fuel + 1) depth := by
  intro read cs v t h
  unfold itemsFrom at h
  split at h
  next => cases h
  next w u hItem =>
    rcases hValue _ _ _ hItem with
      ⟨s, cs, rfl, rfl, rfl, hFits, hNesting⟩
    split at h
    next u hBlanks =>
      cases h
      rcases exists_gap_cons hBlanks with ⟨g, rest, rfl, rfl⟩
      refine ⟨s, .nil g, rest, ?_, rfl, ?_, ⟨hFits, trivial⟩,
        Nat.max_le.2 ⟨hNesting, Nat.zero_le _⟩⟩
      · simp [Items.text]
      · simp [Items.values]
    next u hBlanks =>
      rcases exists_gap_cons hBlanks with ⟨g, cs, rfl, rfl⟩
      rcases exists_gap cs with ⟨a, cs, rfl, hRest⟩
      rw [hRest] at h
      rcases hItems _ _ _ _ h with
        ⟨w, others, rest, rfl, rfl, rfl, hOthers, hDeep⟩
      refine ⟨s, .cons g a w others, rest, ?_, rfl, ?_,
        ⟨hFits, hOthers⟩, Nat.max_le.2 ⟨hNesting, hDeep⟩⟩
      · simp [Items.text]
      · simp [Items.values]
    next => cases h

/- Members are trees if values are. -/
theorem readsMembers_succ
    {fuel depth : Nat}
    (hValue : ReadsSources fuel depth)
    (hMembers : ReadsMembers fuel depth) :
    ReadsMembers (fuel + 1) depth := by
  intro read cs v t h
  unfold membersFrom at h
  split at h
  next u hText =>
    rcases ofChars_eq_cons hText with ⟨c, cs, rfl, hC, rfl⟩
    cases hC
    split at h
    next => cases h
    next key u hString =>
      rcases exists_spelling hString with ⟨k, cs, rfl, rfl, rfl⟩
      split at h
      next u hColon =>
        rcases exists_gap_cons hColon with ⟨b, cs, rfl, rfl⟩
        rcases exists_gap cs with ⟨a, cs, rfl, hRest⟩
        rw [hRest] at h
        split at h
        next => cases h
        next w u hMember =>
          rcases hValue _ _ _ hMember with
            ⟨s, cs, rfl, rfl, rfl, hFits, hNesting⟩
          split at h
          next u hBlanks =>
            cases h
            rcases exists_gap_cons hBlanks with
              ⟨g, rest, rfl, rfl⟩
            refine ⟨⟨k, b, a⟩, s, .nil g, rest, ?_, rfl, ?_,
              ⟨hFits, trivial⟩,
              Nat.max_le.2 ⟨hNesting, Nat.zero_le _⟩⟩
            · simp [Key.text, Spelling.quoted, Members.text]
            · simp [Members.pairs]
          next u hBlanks =>
            rcases exists_gap_cons hBlanks with ⟨g, cs, rfl, rfl⟩
            rcases exists_gap cs with ⟨e, cs, rfl, hRest⟩
            rw [hRest] at h
            rcases hMembers _ _ _ _ h with
              ⟨j, w, others, rest, rfl, rfl, rfl, hOthers, hDeep⟩
            refine ⟨⟨k, b, a⟩, s, .cons g e j w others, rest, ?_,
              rfl, ?_, ⟨hFits, hOthers⟩,
              Nat.max_le.2 ⟨hNesting, hDeep⟩⟩
            · simp [Key.text, Spelling.quoted, Members.text]
            · simp [Members.pairs]
          next => cases h
      next => cases h
  next => cases h

/-
  What the readers accept are trees.  The induction is on the
  number of calls that is left.
-/
theorem readsSources (fuel : Nat) :
    (∀ depth, ReadsSources fuel depth) ∧
    (∀ depth, ReadsItems fuel depth) ∧
    (∀ depth, ReadsMembers fuel depth) := by
  induction fuel with
  | zero =>
      refine ⟨fun depth cs v t h => ?_,
        fun depth read cs v t h => ?_,
        fun depth read cs v t h => ?_⟩
      · simp [valueFrom] at h
      · simp [itemsFrom] at h
      · simp [membersFrom] at h
  | succ fuel ih =>
      rcases ih with ⟨ihValue, ihItems, ihMembers⟩
      exact ⟨fun depth => readsSources_succ ihItems ihMembers,
        fun depth => readsItems_succ (ihValue depth)
          (ihItems depth),
        fun depth => readsMembers_succ (ihValue depth)
          (ihMembers depth)⟩

/- What is read is written as a tree within the limits. -/
theorem exists_written
    {cs : List Char}
    {v : Json}
    (h : decode (RawText.ofChars cs) = .ok v) :
    ∃ w : Written,
      w.IsReadable ∧ cs = w.text ∧ v = w.source.value := by
  unfold decode at h
  split at h
  next => cases h
  next u t hValue =>
    rcases exists_gap cs with ⟨b, cs, rfl, hRest⟩
    rw [hRest] at hValue
    rcases (readsSources _).1 _ _ _ _ hValue with
      ⟨s, cs, rfl, rfl, rfl, hFits, hNesting⟩
    split at h
    next hEnd =>
      cases h
      rcases exists_gap cs with ⟨a, cs, rfl, hRest⟩
      rw [hRest] at hEnd
      have hNil : cs = [] := by
        cases cs with
        | nil => rfl
        | cons c cs => cases hEnd
      cases hNil
      refine ⟨⟨b, s, a⟩, ⟨hFits, hNesting⟩, ?_, rfl⟩
      simp [Written.text]
    next => cases h

end Json

end TypedClient
