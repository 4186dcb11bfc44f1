import Mathlib.Data.List.Forall2
import TypedClient.Schema.Parse

/-
  This file shows that the reader of schemas passes over junk: a
  document from which path items, keys of path items, methods and
  parameters are left out that are none gives the same schema, or
  fails for the same reason.

  Key definitions include:
    * `Schema.Pruned`
    * `Schema.PrunedDocument`

  Key theorems include:
    * `Schema.ofDocument_pruned`
-/

namespace TypedClient

namespace Schema

open Document

------------------------------------------------------------
-- Junk
------------------------------------------------------------

/-
  Whether a document declares a parameter: it is a mapping with
  a name.
-/
def isNamed (d : Document) : Bool :=
  match d.entries? with
  | none => false
  | some es =>
      match find? es "name" with
      | none => false
      | some .null => false
      | some _ => true

/-
  An entry of a path item that offers no method: its key names
  none, or its value is no mapping.
-/
def OffersNothing (e : Document × Document) : Prop :=
  ∃ key, labelOf e.1 = .ok key ∧
    (methodOf key = none ∨ e.2.entries? = none)

/- An entry of the mapping of paths that is no path item. -/
def IsNoPathItem (e : Document × Document) : Prop :=
  e.2.entries? = none

------------------------------------------------------------
-- Pruned documents
------------------------------------------------------------

/-
  A list from which some of the junk is left out.  What remains
  is in its order, and each part of it is related by `kept`.
-/
inductive Pruned
    {α : Type}
    (junk : α → Prop)
    (kept : α → α → Prop) : List α → List α → Prop
  | nil : Pruned junk kept [] []
  | keep {a b : α} {as bs : List α}
      (h : kept a b)
      (hRest : Pruned junk kept as bs) :
      Pruned junk kept (a :: as) (b :: bs)
  | drop {a : α} {as bs : List α}
      (h : junk a)
      (hRest : Pruned junk kept as bs) :
      Pruned junk kept (a :: as) bs

/-
  Entries with one key.  Their values are the same, or are
  related where the key satisfies `place`.
-/
structure SameKey
    (place : Document → Prop)
    (kept : Document → Document → Prop)
    (e f : Document × Document) : Prop where
  key : e.1 = f.1
  value : e.2 = f.2 ∨ (place e.1 ∧ kept e.2 f.2)

/- One key at such a place, with related values. -/
theorem SameKey.of_kept
    {place : Document → Prop}
    {kept : Document → Document → Prop}
    {k v w : Document}
    (hPlace : place k)
    (h : kept v w) : SameKey place kept (k, v) (k, w) :=
  ⟨rfl, Or.inr ⟨hPlace, h⟩⟩

/- A list of parameters without some that are none. -/
inductive PrunedParameters : Document → Document → Prop
  | list {items others : List Document}
      (h : Pruned (isNamed · = false) Eq items others) :
      PrunedParameters (list items) (list others)

/- An operation with such a list. -/
inductive PrunedOperation : Document → Document → Prop
  | mapping {es fs : List (Document × Document)}
      (h : List.Forall₂
        (SameKey (· = ofString "parameters") PrunedParameters)
        es fs) :
      PrunedOperation (mapping es) (mapping fs)

/-
  A path item without some entries that offer nothing, and with
  such operations.
-/
inductive PrunedPathItem : Document → Document → Prop
  | mapping {es fs : List (Document × Document)}
      (h : Pruned OffersNothing
        (SameKey (fun _ => True) PrunedOperation) es fs) :
      PrunedPathItem (mapping es) (mapping fs)

/-
  A mapping of paths without some that are no path items, and
  with such path items.
-/
inductive PrunedPaths : Document → Document → Prop
  | mapping {es fs : List (Document × Document)}
      (h : Pruned IsNoPathItem
        (SameKey (fun _ => True) PrunedPathItem) es fs) :
      PrunedPaths (mapping es) (mapping fs)

/- A document with such a mapping of paths. -/
inductive PrunedDocument : Document → Document → Prop
  | mapping {es fs : List (Document × Document)}
      (h : List.Forall₂
        (SameKey (· = ofString "paths") PrunedPaths) es fs) :
      PrunedDocument (mapping es) (mapping fs)

------------------------------------------------------------
-- Parameters
------------------------------------------------------------

/- A document without a name declares no parameter. -/
theorem parameterOf_of_not_isNamed
    {d : Document}
    (h : isNamed d = false) : parameterOf d = .ok none := by
  unfold isNamed at h
  unfold parameterOf
  split
  next => rfl
  next es hEntries =>
    simp only [hEntries] at h
    split
    next => rfl
    next => rfl
    next name hNull hName =>
      simp only [hName] at h
      cases name with
      | null => exact absurd rfl hNull
      | _ => cases h

/- Documents that declare no parameter change no list of them. -/
theorem parametersOf_pruned
    {items others : List Document}
    (h : Pruned (isNamed · = false) Eq items others) :
    parametersOf items = parametersOf others := by
  induction h with
  | nil => rfl
  | keep hEq _ ih => rw [parametersOf, parametersOf, hEq, ih]
  | @drop d ds es hJunk _ ih =>
      rw [parametersOf, parameterOf_of_not_isNamed hJunk, ih]
      cases hEs : parametersOf es with
      | error e => rfl
      | ok ps => rfl

------------------------------------------------------------
-- Operations
------------------------------------------------------------

variable {place : Document → Prop}
variable {kept : Document → Document → Prop}
variable {es fs : List (Document × Document)}

/- The first entry with the key holds its value. -/
theorem find?_cons_of_key
    (es : List (Document × Document))
    {e : Document × Document}
    {key : String}
    (h : e.1.sameKey (ofString key) = true) :
    find? (e :: es) key = some e.2 := by
  simp only [find?, List.find?_cons, h, Option.map_some]

/- An entry with another key is passed over. -/
theorem find?_cons_of_other
    {e : Document × Document}
    {key : String}
    (h : e.1.sameKey (ofString key) ≠ true) :
    find? (e :: es) key = find? es key := by
  simp only [find?, List.find?_cons, Bool.eq_false_iff.2 h]

/-
  Related entries have the same values under a key, or related
  ones if the key is one of those places.
-/
theorem find?_sameKey
    (h : List.Forall₂ (SameKey place kept) es fs)
    (key : String) :
    find? es key = find? fs key ∨
      ∃ k c d, (place k ∧ k.sameKey (ofString key)) ∧
        find? es key = some c ∧ find? fs key = some d ∧
        kept c d := by
  induction h with
  | nil => exact Or.inl rfl
  | @cons e f es fs hFirst _ ih =>
      by_cases hKey : e.1.sameKey (ofString key) = true
      · have hE := find?_cons_of_key es hKey
        have hF := find?_cons_of_key fs (hFirst.key ▸ hKey)
        rcases hFirst.value with hValue | ⟨hPlace, hKept⟩
        · exact Or.inl (by rw [hE, hF, hValue])
        · exact Or.inr
            ⟨e.1, e.2, f.2, ⟨hPlace, hKey⟩, hE, hF, hKept⟩
      · rw [find?_cons_of_other hKey,
          find?_cons_of_other (hFirst.key ▸ hKey)]
        exact ih

theorem eq_of_sameKey_ofString
    {s t : String}
    (h : (ofString s).sameKey (ofString t) = true) :
    RawText.ofString s = RawText.ofString t :=
  of_decide_eq_true h

/- Under another key than the one, related entries agree. -/
theorem find?_of_ne
    {name key : String}
    (h : List.Forall₂ (SameKey (· = ofString name) kept) es fs)
    (hNe : RawText.ofString name ≠ RawText.ofString key) :
    find? es key = find? fs key := by
  rcases find?_sameKey h key with hEq | hPlace
  · exact hEq
  · rcases hPlace with ⟨k, c, d, ⟨hName, hKey⟩, _⟩
    rw [hName] at hKey
    exact absurd (eq_of_sameKey_ofString hKey) hNe

/- Under that key, they are related. -/
theorem find?_of_place
    {name : String}
    (h : List.Forall₂ (SameKey (· = ofString name) kept) es fs) :
    find? es name = find? fs name ∨
      ∃ d e, find? es name = some d ∧
        find? fs name = some e ∧ kept d e := by
  refine (find?_sameKey h name).imp_right ?_
  rintro ⟨k, c, d, _, hFound⟩
  exact ⟨c, d, hFound⟩

/- Pruned operations are read as the same operation. -/
theorem operationOf_pruned
    (h : List.Forall₂
      (SameKey (· = ofString "parameters") PrunedParameters)
      es fs) :
    operationOf es = operationOf fs := by
  have hCodes :
      entriesAt es "responses" = entriesAt fs "responses" := by
    rw [entriesAt, entriesAt, find?_of_ne h (by decide)]
  have hParameters :
      parametersOf (itemsAt es "parameters") =
        parametersOf (itemsAt fs "parameters") := by
    unfold itemsAt
    rcases find?_of_place h with hEq | ⟨d, e, hD, hE, hKept⟩
    · rw [hEq]
    · rw [hD, hE]
      cases hKept with
      | list hItems => exact parametersOf_pruned hItems
  rw [operationOf, operationOf, hCodes, hParameters]

------------------------------------------------------------
-- Paths
------------------------------------------------------------

/- An entry that offers nothing changes no path item. -/
theorem pathItemOf_of_offersNothing
    {e : Document × Document}
    (h : OffersNothing e)
    (item : PathItem) :
    pathItemOf item (e :: es) = pathItemOf item es := by
  rcases e with ⟨k, v⟩
  rcases h with ⟨key, hKey, hNone⟩
  have hLabel : labelOf k = .ok key := hKey
  simp only [pathItemOf, hLabel, bind, Except.bind]
  rcases hNone with hNone | hNone
  · rw [hNone]
  · have hValue : v.entries? = none := hNone
    rw [hValue]
    cases methodOf key with
    | none => rfl
    | some m => rfl

/- Operations that read the same make the same path item. -/
theorem pathItemOf_cons_congr
    {e f : Document × Document}
    (h : SameKey (fun _ => True) PrunedOperation e f)
    (hRest : ∀ item, pathItemOf item es = pathItemOf item fs)
    (item : PathItem) :
    pathItemOf item (e :: es) = pathItemOf item (f :: fs) := by
  rcases e with ⟨k, v⟩
  rcases f with ⟨l, w⟩
  rcases h with ⟨rfl, rfl | ⟨_, hKept⟩⟩
  · simp only [pathItemOf, hRest]
  · cases hKept with
    | mapping hEntries =>
        have hOperation := operationOf_pruned hEntries
        simp only [pathItemOf, entries?, hRest, bind,
          Except.bind]
        cases labelOf k with
        | error e => rfl
        | ok key =>
            cases hMethod : methodOf key with
            | none => simp only [hMethod]
            | some m => simp only [hMethod, hOperation]

/- Pruned path items are read as the same path item. -/
theorem pathItemOf_pruned
    (h : Pruned OffersNothing
      (SameKey (fun _ => True) PrunedOperation) es fs)
    (item : PathItem) :
    pathItemOf item es = pathItemOf item fs := by
  induction h generalizing item with
  | nil => rfl
  | keep hFirst _ ih => exact pathItemOf_cons_congr hFirst ih item
  | drop hJunk _ ih =>
      rw [pathItemOf_of_offersNothing hJunk, ih]

/- Path items that read the same make the same paths. -/
theorem pathsOf_cons_congr
    {e f : Document × Document}
    (h : SameKey (fun _ => True) PrunedPathItem e f)
    (hRest : ∀ paths, pathsOf paths es = pathsOf paths fs)
    (paths : List (RawText × PathItem)) :
    pathsOf paths (e :: es) = pathsOf paths (f :: fs) := by
  rcases e with ⟨k, v⟩
  rcases f with ⟨l, w⟩
  rcases h with ⟨rfl, rfl | ⟨_, hKept⟩⟩
  · simp only [pathsOf, hRest]
  · cases hKept with
    | mapping hEntries =>
        simp only [pathsOf, entries?, hRest,
          pathItemOf_pruned hEntries]

/- Pruned mappings of paths are read as the same paths. -/
theorem pathsOf_pruned
    (h : Pruned IsNoPathItem
      (SameKey (fun _ => True) PrunedPathItem) es fs)
    (paths : List (RawText × PathItem)) :
    pathsOf paths es = pathsOf paths fs := by
  induction h generalizing paths with
  | nil => rfl
  | keep hFirst _ ih => exact pathsOf_cons_congr hFirst ih paths
  | @drop e es fs hJunk _ ih =>
      rcases e with ⟨k, v⟩
      have hNone : v.entries? = none := hJunk
      rw [pathsOf, hNone, ih]

/- Pruned documents are read as the same schema. -/
theorem ofDocument_pruned
    {d e : Document}
    (h : PrunedDocument d e) : ofDocument d = ofDocument e := by
  cases h with
  | @mapping es fs h =>
      have hInfo : entriesAt es "info" = entriesAt fs "info" := by
        rw [entriesAt, entriesAt, find?_of_ne h (by decide)]
      rcases find?_of_place h with hEq | ⟨p, q, hP, hQ, hKept⟩
      · cases hPaths : (find? fs "paths").bind entries? with
        | none =>
            simp only [ofDocument, pathsEntries?, entries?,
              Option.bind_some, hEq, hPaths, Option.map_none]
        | some ps =>
            simp only [ofDocument, pathsEntries?, entries?,
              Option.bind_some, hEq, hPaths, Option.map_some,
              hInfo]
      · cases hKept with
        | mapping hEntries =>
            simp only [ofDocument, pathsEntries?, entries?, hP,
              hQ, Option.bind_some, Option.map_some, hInfo,
              pathsOf_pruned hEntries]

end Schema

end TypedClient
