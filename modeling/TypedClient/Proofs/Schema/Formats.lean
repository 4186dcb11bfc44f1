import TypedClient.Proofs.Json.Short
import TypedClient.Proofs.Schema.Reading
import TypedClient.Proofs.Yaml.SharedReading
import TypedClient.Proofs.Yaml.TabFault

/-
  This file compares two ways from a JSON text to a schema.
  Schemas are always read as YAML; the other way is to read the
  text as JSON first.  Both end alike on every text that is
  written in the part of JSON that is shared with YAML.

  Key definitions include:
    * `Schema.SameOutcome`
    * `Schema.ReadsAlike`

  Key theorems include:
    * `Schema.readsAlike_of_decode`
    * `Schema.parse_tab`
-/

namespace TypedClient

------------------------------------------------------------
-- Values without surrogates
------------------------------------------------------------

/- A value whose keys and strings hold characters only. -/
inductive Json.IsText : Json → Prop where
  | null : IsText .null
  | bool (b : Bool) : IsText (.bool b)
  | int (n : Int) : IsText (.int n)
  | double (x : Double) : IsText (.double x)
  | string (cs : List Char) : IsText (.string (RawText.ofChars cs))
  | array
      {items : List Json}
      (hItems : ∀ v ∈ items, IsText v) :
      IsText (.array items)
  | object
      {members : List (RawText × Json)}
      (hKeys : ∀ m ∈ members, ∃ cs, m.1 = RawText.ofChars cs)
      (hValues : ∀ m ∈ members, IsText m.2) :
      IsText (.object members)

namespace Schema

open Json (Written Gap Key Spelling Numeral)

------------------------------------------------------------
-- Outcomes
------------------------------------------------------------

/-
  Two searches for a schema that end alike: with the same schema,
  or both without one for a reason that has a message.
-/
inductive SameOutcome :
    Except Failure Schema → Except Failure Schema → Prop where
  | schema (s : Schema) : SameOutcome (.ok s) (.ok s)
  | refused (e f : Error) :
      SameOutcome (.error (.schema e)) (.error (.schema f))

/- A writable document has a schema or is refused. -/
theorem sameOutcome_of_writable
    {d : Document}
    (h : d.Writable) :
    SameOutcome (ofDocument d) (ofDocument d) := by
  cases hPaths : pathsEntries? d with
  | none =>
      rw [ofDocument, hPaths]
      exact .refused _ _
  | some found =>
      rcases found with ⟨es, ps⟩
      rcases pathsEntries?_eq_some_iff.1 hPaths with
        ⟨hEs, v, hV, hPs⟩
      rcases exists_ofDocument h ⟨es, v, hEs, hV, hPs⟩ with
        ⟨schema, hSchema⟩
      rw [hSchema]
      exact .schema schema

------------------------------------------------------------
-- Shared texts
------------------------------------------------------------

/-
  What is true of a text that has a value in JSON.  It is written
  as a tree of JSON.  If the tree is shared with YAML, then the
  text has the same value there, and the search for a schema ends
  as it does for that value.
-/
structure ReadsAlike (text : List Char) (v : Json) : Prop where
  written : ∃ w : Written, w.IsReadable ∧ w.text = text
  document : ∀ w : Written, w.IsReadable → w.text = text →
    w.IsShared → Yaml.read text = .ok (Document.ofJson v)
  outcome : ∀ w : Written, w.IsReadable → w.text = text →
    w.IsShared →
      SameOutcome (parse text) (ofDocument (Document.ofJson v))

/- A shared text is read as YAML with its value. -/
theorem read_of_decode
    {v : Json}
    {w : Written}
    (h : Json.decode (RawText.ofChars w.text) = .ok v)
    (hReadable : w.IsReadable)
    (hShared : w.IsShared) :
    Yaml.read w.text = .ok (Document.ofJson v) := by
  rw [Json.decode_written hReadable] at h
  cases h
  exact Yaml.read_written hShared hReadable.fits

/-
  The two ways to a schema end alike on every text that has a
  value in JSON and is shared with YAML.
-/
theorem readsAlike_of_decode
    {text : List Char}
    {v : Json}
    (h : Json.decode (RawText.ofChars text) = .ok v) :
    ReadsAlike text v where
  written := by
    rcases Json.exists_written h with ⟨w, hReadable, rfl, -⟩
    exact ⟨w, hReadable, rfl⟩
  document w hReadable hText hShared := by
    cases hText
    exact read_of_decode h hReadable hShared
  outcome w hReadable hText hShared := by
    cases hText
    rw [parse, read_of_decode h hReadable hShared]
    rw [Json.decode_written hReadable] at h
    cases h
    have hNesting : w.source.nesting ≤ Document.maxDepth :=
      hShared.nesting.le.trans (by decide)
    exact sameOutcome_of_writable
      (Json.writable_written hReadable hNesting)

------------------------------------------------------------
-- An example
------------------------------------------------------------

/- No white space. -/
def noGap : Gap :=
  ⟨[], fun _ hC => nomatch hC⟩

/- One character of white space. -/
def gapOf (c : Char) (h : Json.isBlank c = true) : Gap :=
  ⟨[c], fun _ hD => (List.mem_singleton.1 hD) ▸ h⟩

theorem isShared_noGap : noGap.IsShared :=
  List.not_mem_nil

theorem isShared_gapOf
    {c : Char}
    (h : Json.isBlank c = true)
    (hTab : '\t' ≠ c) : (gapOf c h).IsShared :=
  fun hMem => hTab (List.mem_singleton.1 hMem)

/- Whether a character stands for itself in a string. -/
def StandsPlain (c : Char) : Prop :=
  c ≠ '"' ∧ c ≠ '\\' ∧ 32 ≤ c.toNat

instance : DecidablePred StandsPlain := fun c => by
  unfold StandsPlain
  infer_instance

/- Whether a text is plain in JSON and allowed on a line of YAML. -/
def isPlainText (cs : List Char) : Bool :=
  cs.all fun c =>
    StandsPlain c && Yaml.isAllowed c && !Yaml.isBreak c

theorem plain_of_isPlainText
    {cs : List Char}
    (h : isPlainText cs = true) :
    ∀ c ∈ cs, StandsPlain c ∧
      Yaml.isAllowed c = true ∧ Yaml.isBreak c = false := by
  intro c hC
  have hAll := List.all_eq_true.1 h c hC
  simpa [and_assoc] using hAll

/- A string of characters that stand for themselves. -/
def spellingOf
    (cs : List Char)
    (h : isPlainText cs = true) : Spelling :=
  cs.pmap (fun c h => .plain c h.1 h.2.1 h.2.2)
    fun c hC => (plain_of_isPlainText h c hC).1

/- A key with a space behind its colon. -/
def keyOf
    (cs : List Char)
    (h : isPlainText cs = true) : Key :=
  ⟨spellingOf cs h, noGap, gapOf ' ' rfl⟩

/- A key is shared if it is short. -/
theorem isShared_keyOf
    {cs : List Char}
    (h : isPlainText cs = true)
    (hNear : (spellingOf cs h).quoted.length ≤ Json.maxKeyLength) :
    (keyOf cs h).IsShared where
  spelling p hP := by
    rcases List.mem_pmap.1 hP with ⟨c, hC, rfl⟩
    exact (plain_of_isPlainText h c hC).2
  line _ hC := nomatch hC
  near := hNear
  after := isShared_gapOf rfl (by decide)

/- The number -1.5e+3. -/
def exampleNumber : Numeral where
  negative := true
  whole := ['1']
  fraction := ['5']
  exponent := some {
    mark := 'e'
    sign := some '+'
    digits := ['3']
    hMark := Or.inl rfl
    hSign := by simp
    hDigits := by simp [Json.IsDigits]
    hNonempty := by simp }
  hWhole := by simp [Json.IsDigits]
  hFirst := Or.inr ⟨'1', [], rfl, by decide⟩
  hFraction := by simp [Json.IsDigits]

/- One path with one operation, on two lines. -/
def exampleText : Written :=
  ⟨noGap,
    .object (gapOf '\n' rfl) (keyOf "paths".toList (by decide))
      (.object noGap (keyOf "/a".toList (by decide))
        (.object noGap (keyOf "get".toList (by decide))
          (.object noGap (keyOf "n".toList (by decide))
            (.number exampleNumber)
            (.nil noGap))
          (.nil noGap))
        (.nil noGap))
      (.nil noGap),
    noGap⟩

example : exampleText.text =
    ("\x7b\n\"paths\": \x7b\"/a\": \x7b\"get\": " ++
      "\x7b\"n\": -1.5e+3\x7d\x7d\x7d\x7d").toList := by
  decide

theorem isReadable_exampleText : exampleText.IsReadable where
  fits := by
    simp [exampleText, Json.Source.Fits, Json.Members.Fits,
      Numeral.Fits, Numeral.IsInteger, exampleNumber]
  nesting := by decide

/- The text is shared with YAML. -/
theorem isShared_exampleText : exampleText.IsShared where
  before := isShared_noGap
  source := by
    refine ⟨isShared_gapOf rfl (by decide),
      isShared_keyOf _ (by decide), ?_, isShared_noGap⟩
    refine ⟨isShared_noGap,
      isShared_keyOf _ (by decide), ?_, isShared_noGap⟩
    refine ⟨isShared_noGap,
      isShared_keyOf _ (by decide), ?_, isShared_noGap⟩
    refine ⟨isShared_noGap,
      isShared_keyOf _ (by decide), ?_, isShared_noGap⟩
    intro e hE
    cases hE
    exact ⟨by decide, rfl⟩
  after := isShared_noGap
  nesting := by decide

/- Both ways lead from the text to its schema. -/
theorem readsAlike_exampleText :
    Json.decode (RawText.ofChars exampleText.text) =
        .ok exampleText.source.value ∧
      ReadsAlike exampleText.text exampleText.source.value ∧
        parse exampleText.text =
          .ok ⟨"", "", [("/a", [(.get, ⟨[], []⟩)])]⟩ := by
  have hDecode := Json.decode_written isReadable_exampleText
  have hAlike := readsAlike_of_decode hDecode
  have hRead := hAlike.document exampleText
    isReadable_exampleText rfl isShared_exampleText
  refine ⟨hDecode, hAlike, ?_⟩
  rw [parse, hRead]
  rfl

------------------------------------------------------------
-- Tabs
------------------------------------------------------------

/-
  A text is refused that has a tab behind its first bracket, also
  where it has a value in JSON.
-/
theorem parse_tab
    {g f rest : List Char}
    {ch : Char}
    (hBefore : Yaml.IsFolded g)
    (hInside : Yaml.IsFolded f)
    (hCh : ch = '[' ∨ ch = '{') :
    parse (g ++ ch :: (f ++ '\t' :: rest)) =
      .error (.schema .malformed) := by
  rw [parse, Yaml.read_tab hBefore hInside hCh]

/- A mapping of no paths, with a tab in front of its key. -/
def tabbedText : Written :=
  ⟨noGap,
    .object (gapOf '\t' rfl) (keyOf "paths".toList (by decide))
      (.emptyObject noGap) (.nil noGap),
    noGap⟩

example : tabbedText.text =
    "\x7b\t\"paths\": \x7b\x7d\x7d".toList := by
  decide

theorem isReadable_tabbedText : tabbedText.IsReadable where
  fits := by
    simp [tabbedText, Json.Source.Fits, Json.Members.Fits]
  nesting := by decide

/-
  Not every text without surrogates that has a value in JSON ends
  as that value does: the one with the tab has paths as JSON, and
  is refused as YAML.
-/
theorem not_alwaysSameOutcome :
    ¬ ∀ (text : List Char) (v : Json),
      Json.decode (RawText.ofChars text) = .ok v → v.IsText →
        SameOutcome (parse text)
          (ofDocument (Document.ofJson v)) := by
  intro h
  have hText : tabbedText.source.value.IsText := by
    refine .object (fun m hM => ?_) (fun m hM => ?_)
    · cases List.mem_singleton.1 hM
      exact ⟨"paths".toList, rfl⟩
    · cases List.mem_singleton.1 hM
      exact .object (fun m hM => nomatch hM) (fun m hM => nomatch hM)
  have hFolded : Yaml.IsFolded [] := fun c hC => nomatch hC
  have hRefused : parse tabbedText.text =
      .error (.schema .malformed) :=
    @parse_tab [] [] (tabbedText.text.drop 2) '{' hFolded hFolded
      (Or.inr rfl)
  have hPaths : ofDocument (Document.ofJson tabbedText.source.value) =
      .ok ⟨"", "", []⟩ := rfl
  have hSame := h _ _ (Json.decode_written isReadable_tabbedText)
    hText
  rw [hRefused, hPaths] at hSame
  cases hSame

end Schema

end TypedClient
