import TypedClient.Proofs.Schema.Pruning

/-
  This file states which operation the entries of a mapping
  declare: the parameters that have a name, in their order, and
  the status codes.

  Key definitions include:
    * `Schema.DeclaresParameter`
    * `Schema.DeclaresOperation`

  Key theorems include:
    * `Schema.declaresOperation_of_operationOf`
-/

namespace TypedClient

namespace Schema

open Document

------------------------------------------------------------
-- Parameters
------------------------------------------------------------

/-
  The parameter that the entries of a mapping declare.  It has
  its name as text, the location that is told or the one that is
  assumed, and the kind that is told if it is a known one.
-/
structure DeclaresParameter
    (es : List (Document × Document))
    (p : Parameter) : Prop where
  name : ∃ d, find? es "name" = some d ∧ labelOf d = .ok p.name
  location : textAt es "in" = .ok p.location ∨
    (textAt es "in" = .ok [] ∧ p.location = defaultLocation)
  located : p.location ≠ []
  kind : find? es "type" = some (ofString p.kind) ∨
    (p.kind = defaultKind ∧
      ∀ k ∈ kinds, find? es "type" ≠ some (ofString k))
  known : p.kind ∈ kinds

/- The kind of a parameter is the one that is told, if known. -/
theorem kindOf_spec (es : List (Document × Document)) :
    kindOf es ∈ kinds ∧
      (find? es "type" = some (ofString (kindOf es)) ∨
        (kindOf es = defaultKind ∧
          ∀ k ∈ kinds, find? es "type" ≠ some (ofString k))) := by
  unfold kindOf
  split
  next t hType =>
    cases hKind : kinds.find? fun k => RawText.ofString k = t with
    | some k =>
        have hText : RawText.ofString k = t := by
          simpa using List.find?_some hKind
        have hMem := List.mem_of_find?_eq_some hKind
        refine ⟨hMem, Or.inl ?_⟩
        rw [hType, ← hText]
        rfl
    | none =>
        refine ⟨by decide, Or.inr ⟨rfl, ?_⟩⟩
        intro k hk hSame
        rw [hType] at hSame
        have hText : t = RawText.ofString k :=
          Document.text.inj (Option.some.inj hSame)
        have hOther := List.find?_eq_none.1 hKind k hk
        exact hOther (decide_eq_true hText.symm)
  next hOther =>
    refine ⟨by decide, Or.inr ⟨rfl, ?_⟩⟩
    intro k _ hSame
    exact hOther (RawText.ofString k) hSame

/- A mapping with a name declares a parameter. -/
theorem declaresParameter_of_parameterOf
    {d : Document}
    {found : Option Parameter}
    (hNamed : isNamed d = true)
    (h : parameterOf d = .ok found) :
    ∃ p es, found = some p ∧ d.entries? = some es ∧
      DeclaresParameter es p := by
  unfold isNamed at hNamed
  unfold parameterOf at h
  cases hEntries : d.entries? with
  | none => simp only [hEntries] at hNamed; cases hNamed
  | some es =>
      simp only [hEntries] at hNamed h
      split at hNamed
      next => cases hNamed
      next => cases hNamed
      next name hNull hName =>
        rw [hName] at h
        simp only [bind, Except.bind] at h
        split at h
        next => cases h
        next s hS =>
          split at h
          next => cases h
          next t hT =>
            cases h
            refine ⟨_, es, rfl, rfl, ?_⟩
            have hKind := kindOf_spec es
            by_cases hEmpty : t = []
            · subst hEmpty
              have hLocated :
                  RawText.ofString defaultLocation ≠ [] := by
                decide
              exact ⟨⟨name, hName, hS⟩, Or.inr ⟨hT, rfl⟩,
                hLocated, hKind.2, hKind.1⟩
            · have hFull : t.isEmpty = false :=
                List.isEmpty_eq_false_iff.2 hEmpty
              simp only [hFull]
              exact ⟨⟨name, hName, hS⟩, Or.inl hT, hEmpty,
                hKind.2, hKind.1⟩

/- The parameter that a document declares. -/
def IsParameter (d : Document) (p : Parameter) : Prop :=
  ∃ es, d.entries? = some es ∧ DeclaresParameter es p

/-
  The parameters that documents declare are those of the
  documents with a name, in order.
-/
theorem forall₂_of_parametersOf
    {items : List Document}
    {ps : List Parameter}
    (h : parametersOf items = .ok ps) :
    List.Forall₂ IsParameter (items.filter isNamed) ps := by
  induction items generalizing ps with
  | nil =>
      cases h
      exact List.Forall₂.nil
  | cons d ds ih =>
      simp only [parametersOf, bind, Except.bind] at h
      split at h
      next => cases h
      next found hFound =>
        split at h
        next => cases h
        next rest hRest =>
          cases h
          cases hNamed : isNamed d with
          | false =>
              rw [parameterOf_of_not_isNamed hNamed] at hFound
              cases hFound
              rw [List.filter_cons_of_neg (by simp [hNamed])]
              exact ih hRest
          | true =>
              rcases declaresParameter_of_parameterOf hNamed hFound
                with ⟨p, es, rfl, hEs, hP⟩
              rw [List.filter_cons_of_pos hNamed]
              exact List.Forall₂.cons ⟨es, hEs, hP⟩ (ih hRest)

------------------------------------------------------------
-- Operations
------------------------------------------------------------

/-
  The operation that the entries of a mapping declare: the
  parameters of its list, in order, and the texts of the keys of
  its responses.
-/
structure DeclaresOperation
    (es : List (Document × Document))
    (op : Operation) : Prop where
  parameters : List.Forall₂ IsParameter
    ((itemsAt es "parameters").filter isNamed) op.parameters
  codes : ∀ c, c ∈ op.codes ↔
    ∃ e ∈ entriesAt es "responses", labelOf e.1 = .ok c

/- The codes of keys are their texts. -/
theorem mem_codesOf_iff
    {es : List (Document × Document)}
    {cs : List RawText}
    (h : codesOf es = .ok cs)
    (c : RawText) :
    c ∈ cs ↔ ∃ e ∈ es, labelOf e.1 = .ok c := by
  induction es generalizing cs with
  | nil =>
      cases h
      simp
  | cons e es ih =>
      simp only [codesOf, bind, Except.bind] at h
      split at h
      next => cases h
      next code hCode =>
        split at h
        next => cases h
        next others hOthers =>
          cases h
          have hSame : labelOf e.1 = .ok c ↔ c = code := by
            rw [hCode, Except.ok.injEq, eq_comm]
          rw [List.exists_mem_cons_iff, hSame, ← ih hOthers]
          by_cases hEq : c = code
          · simp [hEq]
          · simp [hEq]

/- An operation is read as it is declared. -/
theorem declaresOperation_of_operationOf
    {es : List (Document × Document)}
    {op : Operation}
    (h : operationOf es = .ok op) : DeclaresOperation es op := by
  simp only [operationOf, bind, Except.bind] at h
  split at h
  next => cases h
  next ps hPs =>
    split at h
    next => cases h
    next cs hCs =>
      cases h
      exact ⟨forall₂_of_parametersOf hPs, mem_codesOf_iff hCs⟩

end Schema

end TypedClient
