import TypedClient.Proofs.Schema.Texts
import TypedClient.Proofs.Text.Utf8
import TypedClient.Proofs.Yaml.Fault
import TypedClient.Schema.Load

/-
  This file says when the search for a schema ends with a schema
  or a message, and which texts and files break it off.

  Key definitions include:
    * `Schema.IsHandled`
    * `Schema.Breaks`

  Key theorems include:
    * `Schema.parse_eq_document_iff`
    * `Schema.isHandled_parse_iff`
    * `Schema.isHandled_ofFile_iff`
    * `Schema.Breaks.cause`
-/

namespace TypedClient

namespace Schema

/-
  Whether a search ends with a schema, or without one for a
  reason that has a message.
-/
def IsHandled (x : Except Failure Schema) : Prop :=
  (∃ schema, x = .ok schema) ∨ ∃ e, x = .error (.schema e)

/-
  A text that breaks off the search with a fault: no document is
  built from it, though it keeps to the format, or a part of its
  document that is written as a text cannot be written.
-/
inductive Breaks (text : List Char) : Document.Fault → Prop
  | read {e : Document.Fault}
      (h : Yaml.read text = .error e)
      (hOther : e ≠ .malformed) : Breaks text e
  | write {d : Document}
      {entries paths : List (Document × Document)}
      {e : Document.Fault}
      (hRead : Yaml.read text = .ok d)
      (hPaths : pathsEntries? d = some (entries, paths))
      (hFault : firstFault? (schemaTexts entries paths) = some e) :
      Breaks text e

------------------------------------------------------------
-- Documents
------------------------------------------------------------

/-
  What comes of a document: a schema or a refusal, or the first
  fault of a part that cannot be written.
-/
theorem ofDocument_cases (d : Document) :
    IsHandled (ofDocument d) ∨
      ∃ e entries paths,
        ofDocument d = .error (.document e) ∧
          pathsEntries? d = some (entries, paths) ∧
            firstFault? (schemaTexts entries paths) = some e := by
  cases hPaths : pathsEntries? d with
  | none =>
      left
      right
      exact ⟨.noPaths, by rw [ofDocument, hPaths]⟩
  | some found =>
      rcases found with ⟨entries, paths⟩
      cases needs_ofDocument hPaths with
      | done schema h _ => exact Or.inl (Or.inl ⟨schema, h⟩)
      | stuck e h hFault =>
          exact Or.inr ⟨e, entries, paths, h, rfl, hFault⟩

/- A part that cannot be written breaks off the reading. -/
theorem ofDocument_eq_document
    {d : Document}
    {entries paths : List (Document × Document)}
    {e : Document.Fault}
    (hPaths : pathsEntries? d = some (entries, paths))
    (hFault : firstFault? (schemaTexts entries paths) = some e) :
    ofDocument d = .error (.document e) := by
  cases needs_ofDocument hPaths with
  | done schema _ hTexts =>
      rw [hTexts] at hFault
      cases hFault
  | stuck e' h hFirst =>
      rw [hFirst] at hFault
      cases hFault
      exact h

------------------------------------------------------------
-- Texts
------------------------------------------------------------

section

variable {text : List Char}
variable {e : Document.Fault}

/- What comes of a text: it is handled, or the text breaks it. -/
theorem parse_cases (text : List Char) :
    IsHandled (parse text) ∨
      ∃ e, parse text = .error (.document e) ∧
        Breaks text e := by
  cases hRead : Yaml.read text with
  | ok d =>
      have hParse : parse text = ofDocument d := by
        rw [parse, hRead]
      rw [hParse]
      rcases ofDocument_cases d with
        h | ⟨e, entries, paths, h, hPaths, hFault⟩
      · exact Or.inl h
      · exact Or.inr ⟨e, h, .write hRead hPaths hFault⟩
  | error e =>
      by_cases hForm : e = .malformed
      · left
        right
        exact ⟨.malformed, by rw [parse, hRead, hForm]⟩
      · right
        refine ⟨e, ?_, .read hRead hForm⟩
        cases e with
        | malformed => exact absurd rfl hForm
        | _ => rw [parse, hRead]

theorem IsHandled.ne_document
    {x : Except Failure Schema}
    (h : IsHandled x)
    (e : Document.Fault) : x ≠ .error (.document e) := by
  rintro rfl
  rcases h with ⟨schema, h⟩ | ⟨e', h⟩
  · cases h
  · cases h

/- A text fails with a fault just if it breaks the search so. -/
theorem parse_eq_document_iff :
    parse text = .error (.document e) ↔ Breaks text e := by
  constructor
  · intro h
    rcases parse_cases text with hHandled | ⟨e', h', hBreaks⟩
    · exact absurd h (hHandled.ne_document e)
    · rw [h] at h'
      cases h'
      exact hBreaks
  · intro h
    cases h with
    | read hRead hOther =>
        cases e with
        | malformed => exact absurd rfl hOther
        | _ => rw [parse, hRead]
    | write hRead hPaths hFault =>
        rw [parse, hRead]
        exact ofDocument_eq_document hPaths hFault

/- A text is handled just if it does not break the search. -/
theorem isHandled_parse_iff :
    IsHandled (parse text) ↔ ∀ e, ¬ Breaks text e := by
  constructor
  · intro h e hBreaks
    exact h.ne_document e (parse_eq_document_iff.2 hBreaks)
  · intro h
    rcases parse_cases text with hHandled | ⟨e, _, hBreaks⟩
    · exact hHandled
    · exact absurd hBreaks (h e)

/-
  A text breaks the search only for a cause in its tokens, its
  depth, its merges or its scalars, or for a part that is written
  as a text and holds an integer that is too long, or is nested
  too deeply.
-/
theorem Breaks.cause
    (h : Breaks text e) :
    Yaml.Cause text e ∨
      ∃ d entries paths t,
        Yaml.read text = .ok d ∧
          pathsEntries? d = some (entries, paths) ∧
            t ∈ schemaTexts entries paths ∧
              Document.TooMuch Document.maxDepth t.IsShort
                t.depth e := by
  cases h with
  | read hRead hOther =>
      exact Or.inl (Yaml.cause_of_read hRead hOther)
  | @write d entries paths e hRead hPaths hFault =>
      rcases exists_label_of_firstFault? hFault with
        ⟨t, ht, hNone⟩
      exact Or.inr ⟨d, entries, paths, t, hRead, hPaths, ht,
        Document.tooMuch_of_label hNone⟩

end

------------------------------------------------------------
-- Files and replies
------------------------------------------------------------

/-
  The search in a file is handled just if there is no such file,
  or reading it fails, or it is the encoding of a text that does
  not break it.
-/
theorem isHandled_ofFile_iff
    (faults : ReadFaults)
    (tree : FileTree)
    (p : FileTree.Path) :
    IsHandled (ofFile faults tree p) ↔
      ∀ bytes, faults p = none → tree.file? p = some bytes →
        ∃ text, bytes = Text.utf8 text ∧
          ∀ e, ¬ Breaks (Text.plainBreaks text) e := by
  unfold ofFile
  cases hFile : tree.file? p with
  | none =>
      have hHandled : IsHandled
          (if tree.isDirectory p then
            .error (.schema (.directory p.text))
          else .error (.schema (.missing p.text))) := by
        right
        split
        · exact ⟨_, rfl⟩
        · exact ⟨_, rfl⟩
      exact iff_of_true hHandled fun bytes _ h => by cases h
  | some bytes =>
      dsimp only
      cases hRead : faults p with
      | some reason =>
          exact iff_of_true (Or.inr ⟨_, rfl⟩)
            fun bytes' h => by cases h
      | none =>
          cases hText : Text.utf8Strict? bytes with
          | none =>
              refine iff_of_false ?_ ?_
              · rintro (⟨schema, h⟩ | ⟨e, h⟩)
                · cases h
                · cases h
              · intro h
                rcases h bytes rfl rfl with ⟨text, hBytes, _⟩
                rw [Text.utf8Strict?_eq_some_iff.2 hBytes] at hText
                cases hText
          | some text =>
              dsimp only
              rw [isHandled_parse_iff]
              constructor
              · intro h bytes' _ hBytes
                cases hBytes
                exact ⟨text, Text.utf8Strict?_eq_some_iff.1 hText, h⟩
              · intro h
                rcases h bytes rfl rfl with ⟨text', hBytes, hText'⟩
                rw [Text.utf8Strict?_eq_some_iff.2 hBytes] at hText
                cases hText
                exact hText'

/-
  The search in a reply is handled just if there is no answer, or
  another one than 200, or its text does not break it.
-/
theorem isHandled_ofReply_iff
    (url : String)
    (reply : Reply) :
    IsHandled (ofReply url reply) ↔
      ∀ r, reply = .response r → r.status = 200 →
        ∀ e, ¬ Breaks (Text.utf8Lossy r.body) e := by
  cases reply with
  | failed reason elapsed =>
      exact iff_of_true (Or.inr ⟨.unreachable url reason, rfl⟩)
        fun r h => by cases h
  | response r =>
      by_cases hStatus : r.status = 200
      · have hReply : ofReply url (.response r) =
            parse (Text.utf8Lossy r.body) := by
          rw [ofReply, if_neg (not_not.2 hStatus)]
        rw [hReply, isHandled_parse_iff]
        constructor
        · intro h r' hR _
          cases hR
          exact h
        · intro h
          exact h r rfl hStatus
      · refine iff_of_true
          (Or.inr ⟨.refused url r.status, ?_⟩) ?_
        · rw [ofReply, if_pos hStatus]
        · intro r' hR hOk
          cases hR
          exact absurd hOk hStatus

end Schema

end TypedClient
