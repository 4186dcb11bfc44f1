import TypedClient.Proofs.Yaml.Inline
import TypedClient.Proofs.Yaml.Stepping

/-
  This file follows the scanner over strings, words and keys as
  shared JSON writes them, and over the end of the stream.

  Key definitions include:
    * `Yaml.Scanner.MayBeKey`

  Key theorems include:
    * `Yaml.Scanner.leads_string`
    * `Yaml.Scanner.leads_word`
    * `Yaml.Scanner.leads_key`
    * `Yaml.Scanner.scanFrom_end`
-/

namespace TypedClient

namespace Yaml

namespace Scanner

open Json (Spelling Key)

variable {s : Scanner}
variable {level : Nat}
variable {ts : List Token}

------------------------------------------------------------
-- Scalars
------------------------------------------------------------

/-
  A step to a scalar leads behind its text, where a key may have
  been remembered.
-/
theorem leads_scalar
    {r : Scanner}
    {ks : List (Nat × PossibleKey)}
    {allow isPlain : Bool}
    {value : RawText}
    {text rest : List Char}
    {d : Cursor}
    (hStep : s.step = .ok ((((r.keyed ks).allowing allow).push
      (.scalar isPlain value)).moved d))
    (hAt : r.At level (text ++ rest) ts)
    (hKeys : ∀ k ∈ ks, k.2.required = false)
    (hPassed : r.cursor.rest.length ≤ s.cursor.rest.length)
    (hText : r.cursor.Passes text d)
    (hNonempty : text ≠ []) :
    s.Leads ((((r.keyed ks).allowing allow).push
        (.scalar isPlain value)).moved d) ∧
      ((((r.keyed ks).allowing allow).push
        (.scalar isPlain value)).moved d).At level rest
          (.scalar isPlain value :: ts) := by
  have hRest : d.rest = rest := hText.rest_of_append hAt.rest
  constructor
  · refine leads_of_step hStep ?_ ?_
    · exact fun hSame => Token.noConfusion (Option.some.inj hSame)
    · have hLength := congrArg List.length hAt.rest
      have hPositive := List.length_pos_iff.2 hNonempty
      rw [List.length_append] at hLength
      change d.rest.length < _
      rw [hRest]
      omega
  · exact {
      sound := hAt.sound.passes hText
      rest := hRest
      level := hAt.level
      indent := hAt.indent
      keys := hKeys
      tokens := congrArg (Token.scalar isPlain value :: ·) hAt.tokens
      count := congrArg (· + 1) hAt.count }

------------------------------------------------------------
-- Strings
------------------------------------------------------------

/-
  The last token may be a key of its level: it started a number
  of characters before, on the same line.
-/
def MayBeKey (s : Scanner) (level n : Nat) : Prop :=
  ∃ k others, s.keys = (level, k) :: others ∧
    k.number + 1 = s.count ∧
    k.index + n = s.cursor.index ∧
    k.line = s.cursor.line

/- A string in quotes is one token, which may be a key. -/
theorem leads_string
    {sp : Spelling}
    (hShared : sp.IsShared)
    {rest : List Char}
    (h : s.Near level (sp.quoted ++ rest) ts) :
    ∃ u : Scanner, s.Leads u ∧
      u.At level rest (.scalar false sp.value :: ts) ∧
      (level ≠ 0 → s.allowKey = true →
        u.MayBeKey level sp.quoted.length) := by
  rcases h with ⟨g, hFolded, h⟩
  have hStarts : StartsToken (sp.quoted ++ rest) := by
    rw [Spelling.quoted_append]
    intro ch hCh
    cases hCh
    decide
  rcases exists_step hFolded hStarts h with
    ⟨r, hStep, hR, hAllow, hPasses, -⟩
  rcases exists_saveKey hR with ⟨ks, hSave, hKs, hFirst⟩
  rcases Scalar.quoted_spelling hShared hR.sound hR.rest with
    ⟨d, hString, hQuoted⟩
  have hToken : r.token = r.quotedScalar true := by
    have hRest := hR.rest
    rw [Spelling.quoted_append] at hRest
    unfold token
    simp [Cursor.atEnd_of_rest hRest, Cursor.head_of_rest hRest,
      atSeparator_of_head hRest (by decide) (by decide)]
  let u : Scanner := (((r.keyed ks).allowing false).push
    (.scalar false sp.value)).moved d
  have hRead : s.step = .ok u := by
    rw [hStep, hToken, quotedScalar, content, hSave]
    change (do
      let p ← (do
        let p ← Scalar.quoted true r.cursor
        return (Token.scalar false p.1, p.2))
      return (((r.keyed ks).allowing false).push p.1).moved p.2 :
        Step) = _
    rw [hQuoted]
    rfl
  rcases leads_scalar hRead hR hKs (length_le_of_passes hPasses)
    hString (List.cons_ne_nil _ _) with ⟨hLeads, hU⟩
  refine ⟨u, hLeads, hU, fun hLevel hAllowed => ?_⟩
  rcases hFirst ((hAllow hLevel).trans hAllowed) with
    ⟨others, rfl⟩
  refine ⟨r.possibleKey, others, rfl, rfl, hString.index.symm,
    (hString.line fun ch hCh => ?_).symm⟩
  exact (isInline_quoted hShared ch hCh).2

------------------------------------------------------------
-- Words and numbers
------------------------------------------------------------

/-
  A word of letters, digits and some marks starts with a letter
  or a digit, perhaps behind a hyphen.
-/
def StartsWord (cs : List Char) : Prop :=
  ∃ ch more, ch.isAlphanum = true ∧
    (cs = ch :: more ∨ cs = '-' :: ch :: more)

/- Letters and digits are no marks of YAML. -/
theorem plain_of_isAlphanum
    {ch : Char}
    (h : ch.isAlphanum = true) :
    isGap ch = false ∧
      ch ∉ ['%', '[', '\x7b', ']', '\x7d', ',', '-', '.', '?', ':',
        '*', '&', '!', '|', '>', '\x27', '"', '#', '@', '\x60',
        ' ', '\uFEFF'] :=
  Text.forall_alphanum
    (P := fun c => isGap c = false ∧
      c ∉ ['%', '[', '\x7b', ']', '\x7d', ',', '-', '.', '?', ':',
        '*', '&', '!', '|', '>', '\x27', '"', '#', '@', '\x60',
        ' ', '\uFEFF'])
    (by decide) h

/- Where a word starts a plain scalar comes next. -/
theorem token_word
    {cs rest : List Char}
    (hStarts : StartsWord cs)
    (h : s.cursor.rest = cs ++ rest) :
    s.token = s.plainScalar := by
  rcases hStarts with ⟨ch, more, hCh, rfl | rfl⟩
  · rcases plain_of_isAlphanum hCh with ⟨hGap, hMarks⟩
    simp only [List.mem_cons, List.not_mem_nil, or_false, not_or]
      at hMarks
    have hHead := Cursor.head_of_rest h
    have hStart : s.startsPlain = true := by
      simp [startsPlain, hHead, hGap, hMarks]
    have hSeparator : s.cursor.atSeparator = false :=
      atSeparator_of_head h (by simp [hMarks]) (by simp [hMarks])
    unfold token
    simp [Cursor.atEnd_of_rest h, hHead, hSeparator, hMarks,
      hStart]
  · rcases plain_of_isAlphanum hCh with ⟨hGap, hMarks⟩
    simp only [List.mem_cons, List.not_mem_nil, or_false, not_or]
      at hMarks
    have hHead := Cursor.head_of_rest h
    have hPeek : s.cursor.peek 1 = ch := Cursor.peek_of_rest h
    have hStart : s.startsPlain = true := by
      simp [startsPlain, hHead, hPeek, hGap]
    have hSeparator : s.cursor.atSeparator = false := by
      simp [Cursor.atSeparator, h, hMarks]
    unfold token
    simp [Cursor.atEnd_of_rest h, hHead, hPeek, hGap, hSeparator,
      hStart]

theorem StartsWord.ne_nil
    {cs : List Char}
    (h : StartsWord cs) : cs ≠ [] := by
  rcases h with ⟨ch, more, -, rfl | rfl⟩
  · exact List.cons_ne_nil _ _
  · exact List.cons_ne_nil _ _

/- A word starts a token. -/
theorem StartsWord.startsToken
    {cs : List Char}
    (h : StartsWord cs)
    (rest : List Char) : StartsToken (cs ++ rest) := by
  rcases h with ⟨ch, more, hCh, rfl | rfl⟩
  · intro d hD
    cases hD
    have hMarks := (plain_of_isAlphanum hCh).2
    simp only [List.mem_cons, List.not_mem_nil, or_false, not_or]
      at hMarks
    exact ⟨by simp [hMarks], (inline_of_isAlphanum hCh).1.2,
      by simp [hMarks], by simp [hMarks]⟩
  · intro d hD
    cases hD
    decide

/-
  A word or a number is one token.  What follows it is a comma or
  a bracket, or nothing.
-/
theorem leads_word
    {cs g rest : List Char}
    (hStarts : StartsWord cs)
    (hWord : ∀ ch ∈ cs, Scalar.isWordChar ch = true)
    (hGap : IsFolded g)
    (hEnds : Scalar.EndsWord rest)
    (hFlow : level ≠ 0 ∨ rest = [])
    (h : s.Near level (cs ++ (g ++ rest)) ts) :
    ∃ u : Scanner, s.Leads u ∧
      u.At level rest (.scalar true (RawText.ofChars cs) :: ts) := by
  rcases h with ⟨f, hFolded, h⟩
  rcases exists_step hFolded (hStarts.startsToken (g ++ rest)) h
    with ⟨r, hStep, hR, -, hPasses, -⟩
  rcases exists_saveKey hR with ⟨ks, hSave, hKs, -⟩
  have hIn : (!r.inBlock) = true ∨ rest = [] := by
    refine hFlow.imp_left fun hLevel => ?_
    rw [hR.inBlock hLevel]
    rfl
  rcases Scalar.plain_word hR.sound hStarts.ne_nil hWord hGap hEnds
    hIn r.indent hR.rest with ⟨broken, d, hPlain, hPassed⟩
  let u : Scanner := (((r.keyed ks).allowing broken).push
    (.scalar true (RawText.ofChars cs))).moved d
  have hKeyed : Scalar.plain (!(r.keyed ks).inBlock)
      (r.keyed ks).indent (r.keyed ks).cursor = (cs, broken, d) :=
    hPlain
  have hRead : s.step = .ok u := by
    rw [hStep, token_word hStarts hR.rest, plainScalar, hSave]
    simp only [bind, Except.bind, hKeyed]
    rfl
  have hAt : r.At level ((cs ++ g) ++ rest) ts := by
    rw [List.append_assoc]
    exact hR
  exact ⟨u, leads_scalar hRead hAt hKs
    (length_le_of_passes hPasses) hPassed
    (List.append_ne_nil_of_left_ne_nil hStarts.ne_nil g)⟩

------------------------------------------------------------
-- Keys
------------------------------------------------------------

/- Behind blanks on the same line it may still be a key. -/
theorem MayBeKey.lookup
    {r : Scanner}
    {before : List Char}
    {n : Nat}
    (h : s.MayBeKey level n)
    (hBlank : ∀ ch ∈ before, ch = ' ')
    (hNear : n + before.length ≤ 1024)
    (hPasses : s.cursor.Passes before r.cursor)
    (hKeys : r.keys = s.keys.filter fun k => !r.isStale k.2)
    (hLevel : r.flowLevel = level) :
    ∃ k, r.keys.lookup r.flowLevel = some k ∧
      k.number + 1 = s.count := by
  rcases h with ⟨k, others, hFirst, hNumber, hIndex, hLine⟩
  have hSameLine : r.cursor.line = s.cursor.line := by
    refine hPasses.line fun ch hCh => ?_
    rw [hBlank ch hCh]
    rfl
  have hDistance : ¬ 1024 < r.cursor.index - k.index := by
    rw [hPasses.index]
    omega
  have hStale : r.isStale k = false := by
    simp [isStale, hSameLine, hLine, hDistance]
  refine ⟨k, ?_, hNumber⟩
  rw [hKeys, hFirst, hLevel,
    List.filter_cons_of_pos (by simp [hStale])]
  exact List.lookup_cons_self

/- In a flow collection the possible key of a colon is marked. -/
theorem value_of_lookup
    {k : PossibleKey}
    (hFlow : s.inBlock = false)
    (h : s.keys.lookup s.flowLevel = some k) :
    s.value = .ok ((((s.keyed
      (s.keys.filter fun p => p.1 ≠ s.flowLevel)).insert
        k.number .key).allowing false).emit 1 .value) := by
  have hKeyed : ((s.keyed
      (s.keys.filter fun p => p.1 ≠ s.flowLevel)).insert
        k.number .key).inBlock = false := hFlow
  rw [value, h]
  change Except.ok (((if ((s.keyed
    (s.keys.filter fun p => p.1 ≠ s.flowLevel)).insert
      k.number .key).inBlock then _ else _ : Scanner).allowing
        false).emit 1 .value) = _
  rw [hKeyed]
  rfl

/- A colon behind what may be a key makes a key of it. -/
theorem leads_colon
    {t : Token}
    {before rest : List Char}
    {n : Nat}
    (hBlank : ∀ ch ∈ before, ch = ' ')
    (hNear : n + before.length ≤ 1024)
    (hKey : s.MayBeKey (level + 1) n)
    (h : s.At (level + 1) (before ++ ':' :: rest) (t :: ts)) :
    ∃ u : Scanner, s.Leads u ∧
      u.At (level + 1) rest (.value :: t :: .key :: ts) := by
  have hFolded : IsFolded before := fun ch hCh =>
    Or.inl (hBlank ch hCh)
  rcases exists_step hFolded (startsToken_mark (by decide) rest) h
    with ⟨r, hStep, hR, -, hPasses, hKeys⟩
  rcases hKey.lookup hBlank hNear hPasses hKeys hR.level with
    ⟨k, hLookup, hNumber⟩
  have hCount : r.count = s.count := hR.count.trans h.count.symm
  have hFlow := hR.inBlock (Nat.succ_ne_zero level)
  have hToken : r.token = r.value := by
    unfold token
    simp [Cursor.atEnd_of_rest hR.rest,
      Cursor.head_of_rest hR.rest, hFlow,
      atSeparator_of_head hR.rest (by decide) (by decide)]
  let v : Scanner := ((r.keyed
    (r.keys.filter fun p => p.1 ≠ r.flowLevel)).insert
      k.number .key).allowing false
  have hV : v.At (level + 1) (':' :: rest) (t :: .key :: ts) := {
    sound := hR.sound
    rest := hR.rest
    level := hR.level
    indent := hR.indent
    keys := fun p hP => hR.keys p (List.mem_filter.1 hP).1
    tokens := by
      have hLater : r.count - k.number = 1 := by omega
      change r.tokens.take (r.count - k.number) ++
        .key :: r.tokens.drop (r.count - k.number) = _
      rw [hLater, hR.tokens]
      rfl
    count := congrArg (· + 1) hR.count }
  rcases leads_emit
    ((hStep.trans hToken).trans (value_of_lookup hFlow hLookup)) hV
    (length_le_of_passes hPasses) Token.noConfusion with
    ⟨hLeads, hAt⟩
  exact ⟨v.emit 1 .value, hLeads, hAt⟩

/-
  A key with its colon gives three tokens: the mark of a key, its
  text, and the mark of a value.
-/
theorem leads_key
    {k : Key}
    (hShared : k.IsShared)
    {rest : List Char}
    (hAllow : s.allowKey = true)
    (h : s.Near (level + 1) (k.text ++ rest) ts) :
    ∃ u : Scanner, s.Leads u ∧
      u.At (level + 1) (k.after.chars ++ rest)
        (.value :: .scalar false k.spelling.value :: .key :: ts) := by
  have hText : k.text ++ rest = k.spelling.quoted ++
      (k.before.chars ++ ':' :: (k.after.chars ++ rest)) := by
    simp [Key.text]
  rw [hText] at h
  rcases leads_string hShared.spelling h with
    ⟨u, hLeads, hU, hKey⟩
  rcases leads_colon hShared.line hShared.near
    (hKey (Nat.succ_ne_zero level) hAllow) hU with
    ⟨v, hMore, hV⟩
  exact ⟨v, hLeads.trans hMore, hV⟩

------------------------------------------------------------
-- The end of the stream
------------------------------------------------------------

/- Where no text is left the scan ends. -/
theorem scanFrom_end
    (h : s.Near 0 [] ts)
    (fuel : Nat) :
    Token.scanFrom s (fuel + 1) = (.streamEnd :: ts, none) := by
  rcases h with ⟨g, hFolded, h⟩
  have hStarts : StartsToken [] := fun ch hCh => nomatch hCh
  rcases exists_step hFolded hStarts h with
    ⟨r, hStep, hR, -, -, -⟩
  rcases exists_dropKey hR.keys with ⟨ks, hDrop, -⟩
  have hEnd : s.step = .ok ((r.keyed ks).push .streamEnd) := by
    have hAtEnd : r.cursor.atEnd = true := by
      rw [Cursor.atEnd, hR.rest]
      rfl
    rw [hStep, token, if_pos hAtEnd, finish,
      unwind_of_indent hR.indent (Int.le_refl _), hDrop]
    rfl
  rw [scanFrom_succ, hEnd]
  exact (if_pos rfl).trans
    (congrArg (fun ts => (Token.streamEnd :: ts, none)) hR.tokens)

end Scanner

end Yaml

end TypedClient
