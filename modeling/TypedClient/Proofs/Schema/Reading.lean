import TypedClient.Proofs.Schema.Declaration
import TypedClient.Proofs.Schema.LastWins
import TypedClient.Proofs.Schema.Texts
import TypedClient.Proofs.Text.Raw

/-
  This file states what the reader of schemas answers on any
  document that can be written.  It refuses the document just if
  there is no mapping of paths.  Otherwise its schema does not
  depend on junk, and lists under each path and method what the
  last entry for them declares.

  Key definitions include:
    * `Schema.Offers`
    * `Schema.Declares`
    * `Schema.ReadsAny`

  Key theorems include:
    * `Schema.readsAny_of_writable`
-/

namespace TypedClient

namespace Schema

open Document

------------------------------------------------------------
-- Path items
------------------------------------------------------------

/-
  An entry offers a method: in lower case its key is the text of
  the method, and its value is a mapping.
-/
def Offers (m : Method) (e : Document × Document) : Prop :=
  (∃ key : String, labelOf e.1 = .ok key ∧
      String.ofList (Text.lower key.toList) = m.text) ∧
    e.2.entries?.isSome

/- The operation that the value of an entry declares. -/
def IsOperation (e : Document × Document) (op : Operation) : Prop :=
  ∃ es, e.2.entries? = some es ∧ DeclaresOperation es op

/- The path item that entries declare: the last offers. -/
def IsPathItem
    (es : List (Document × Document))
    (item : PathItem) : Prop :=
  LastWins Offers IsOperation es item

/- A text names the method whose text it is. -/
theorem ofText?_eq_some_iff
    {s : String}
    {m : Method} : Method.ofText? s = some m ↔ s = m.text := by
  constructor
  · intro h
    have hText : m.text = s := by simpa using List.find?_some h
    exact hText.symm
  · rintro rfl
    cases m with
    | _ => rfl

/- A key names the method whose text it is in lower case. -/
theorem methodOf_eq_some_iff
    {key : RawText}
    {m : Method} :
    methodOf key = some m ↔
      ∃ s : String, key = s ∧
        String.ofList (Text.lower s.toList) = m.text := by
  rw [methodOf, Option.bind_eq_some_iff]
  simp only [RawText.toChars?_eq_some_iff, ofText?_eq_some_iff]
  constructor
  · rintro ⟨cs, rfl, hText⟩
    refine ⟨String.ofList cs, ?_, ?_⟩
    · rw [RawText.ofString_ofList]
    · rw [String.toList_ofList, hText]
  · rintro ⟨s, rfl, hText⟩
    exact ⟨s.toList, rfl, hText⟩

/- An entry whose key is read offers what the key names. -/
theorem offers_iff
    {e : Document × Document}
    {key : RawText}
    (hKey : labelOf e.1 = .ok key)
    (m : Method) :
    Offers m e ↔
      methodOf key = some m ∧ e.2.entries?.isSome := by
  rw [Offers, methodOf_eq_some_iff, hKey]
  simp only [Except.ok.injEq]

/- Path items are read on top of what was read before. -/
theorem addsLast_of_pathItemOf
    {item found : PathItem}
    {es : List (Document × Document)}
    (hNodup : (item.map Prod.fst).Nodup)
    (h : pathItemOf item es = .ok found) :
    AddsLast Offers IsOperation item es found := by
  induction es generalizing item with
  | nil =>
      cases h
      exact AddsLast.nil
  | cons e es ih =>
      simp only [pathItemOf, bind, Except.bind] at h
      split at h
      next => cases h
      next key hKey =>
        have hOffers := offers_iff hKey
        split at h
        next m entries hMethod hEntries =>
          split at h
          next => cases h
          next op hOp =>
            have hIs : IsOperation e op :=
              ⟨entries, hEntries,
                declaresOperation_of_operationOf hOp⟩
            refine AddsLast.add hNodup ?_ hIs
              (ih (nodup_keys_put hNodup) h)
            intro k
            rw [hOffers, hMethod, hEntries]
            simp [eq_comm]
        next hNone =>
          refine AddsLast.skip ?_ (ih hNodup h)
          intro k hK
          rcases (hOffers k).1 hK with ⟨hMethod, hSome⟩
          rcases Option.isSome_iff_exists.1 hSome with
            ⟨entries, hEntries⟩
          exact hNone k entries hMethod hEntries

------------------------------------------------------------
-- Paths
------------------------------------------------------------

/- An entry declares a path: its value is a mapping. -/
def Declares (path : RawText) (e : Document × Document) : Prop :=
  labelOf e.1 = .ok path ∧ e.2.entries?.isSome

/- The path item that the value of an entry declares. -/
def HoldsPathItem
    (e : Document × Document)
    (item : PathItem) : Prop :=
  ∃ es, e.2.entries? = some es ∧ IsPathItem es item

/- Paths are read on top of what was read before. -/
theorem addsLast_of_pathsOf
    {paths found : List (RawText × PathItem)}
    {es : List (Document × Document)}
    (hNodup : (paths.map Prod.fst).Nodup)
    (h : pathsOf paths es = .ok found) :
    AddsLast Declares HoldsPathItem paths es found := by
  induction es generalizing paths with
  | nil =>
      cases h
      exact AddsLast.nil
  | cons e es ih =>
      simp only [pathsOf, bind, Except.bind] at h
      split at h
      next hNone =>
        refine AddsLast.skip ?_ (ih hNodup h)
        rintro path ⟨_, hSome⟩
        rw [hNone] at hSome
        cases hSome
      next entries hEntries =>
        split at h
        next => cases h
        next item hItem =>
          split at h
          next => cases h
          next text hText =>
            have hNone : (([] : PathItem).map
                Prod.fst).Nodup := List.nodup_nil
            have hRead := addsLast_of_pathItemOf hNone hItem
            have hIs : HoldsPathItem e item :=
              ⟨entries, hEntries, hRead.lastWins⟩
            refine AddsLast.add hNodup ?_ hIs
              (ih (nodup_keys_put hNodup) h)
            intro path
            rw [Declares, hText, hEntries]
            simp [eq_comm]

------------------------------------------------------------
-- Documents
------------------------------------------------------------

/- The entries of the mapping of paths of a document. -/
def HasPaths
    (d : Document)
    (ps : List (Document × Document)) : Prop :=
  ∃ es v, d.entries? = some es ∧
    find? es "paths" = some v ∧ v.entries? = some ps

/- The mapping of paths is found where there is one. -/
theorem pathsEntries?_eq_some_iff
    {d : Document}
    {es ps : List (Document × Document)} :
    pathsEntries? d = some (es, ps) ↔
      d.entries? = some es ∧
        ∃ v, find? es "paths" = some v ∧ v.entries? = some ps := by
  simp only [pathsEntries?, Option.bind_eq_some_iff,
    Option.map_eq_some_iff, Prod.mk.injEq]
  constructor
  · rintro ⟨fs, hFs, qs, hFound, rfl, rfl⟩
    exact ⟨hFs, hFound⟩
  · rintro ⟨hEs, hFound⟩
    exact ⟨es, hEs, ps, hFound, rfl, rfl⟩

/- It is not found where there is none. -/
theorem pathsEntries?_eq_none_iff
    {d : Document} :
    pathsEntries? d = none ↔ ∀ ps, ¬ HasPaths d ps := by
  constructor
  · rintro h ps ⟨es, v, hEs, hFound⟩
    have hSome := pathsEntries?_eq_some_iff.2 ⟨hEs, v, hFound⟩
    rw [h] at hSome
    cases hSome
  · intro h
    refine Option.eq_none_iff_forall_ne_some.2 ?_
    rintro ⟨es, ps⟩ hSome
    rcases pathsEntries?_eq_some_iff.1 hSome with ⟨hEs, v, hFound⟩
    exact h ps ⟨es, v, hEs, hFound⟩

/-
  What the reader of schemas answers on a document: it refuses
  the document just if there is no mapping of paths, and has a
  schema for it otherwise; junk changes nothing; and the schema
  lists what the last entries declare, with its methods in lower
  case.
-/
structure ReadsAny (d : Document) : Prop where
  refused : ofDocument d = .error (.schema .noPaths) ↔
    ∀ ps, ¬ HasPaths d ps
  answered : ∀ ps, HasPaths d ps →
    ∃ schema, ofDocument d = .ok schema
  pruned : ∀ e, PrunedDocument d e → ofDocument e = ofDocument d
  declared : ∀ schema, ofDocument d = .ok schema →
    ∃ ps, HasPaths d ps ∧
      LastWins Declares HoldsPathItem ps schema.paths
  lower : ∀ schema, ofDocument d = .ok schema →
    ∀ path ∈ schema.paths, ∀ offer ∈ path.2,
      Text.lower offer.1.text.toList = offer.1.text.toList

/- A schema lists the paths of its document. -/
theorem lastWins_of_ofDocument
    {d : Document}
    {schema : Schema}
    (h : ofDocument d = .ok schema) :
    ∃ ps, HasPaths d ps ∧
      LastWins Declares HoldsPathItem ps schema.paths := by
  simp only [ofDocument] at h
  split at h
  next => cases h
  next es ps hEntries =>
    simp only [bind, Except.bind] at h
    split at h
    next => cases h
    next found hPaths =>
      split at h
      next => cases h
      next title hTitle =>
        split at h
        next => cases h
        next version hVersion =>
          cases h
          rcases pathsEntries?_eq_some_iff.1 hEntries with
            ⟨hEs, v, hFound⟩
          have hNone : (([] : List (RawText × PathItem)).map
              Prod.fst).Nodup := List.nodup_nil
          exact ⟨ps, ⟨es, v, hEs, hFound⟩,
            (addsLast_of_pathsOf hNone hPaths).lastWins⟩

/- A writable document with paths has a schema. -/
theorem exists_ofDocument
    {d : Document}
    {ps : List (Document × Document)}
    (h : d.Writable)
    (hPaths : HasPaths d ps) :
    ∃ schema, ofDocument d = .ok schema := by
  rcases hPaths with ⟨es, v, hEs, hV, hPs⟩
  have hEntries := entriesWritable_of_entries? h hEs
  have hWritable :=
    entriesWritable_of_entries? (hEntries.of_find? hV) hPs
  have hFound := pathsEntries?_eq_some_iff.2 ⟨hEs, v, hV, hPs⟩
  cases needs_ofDocument hFound with
  | done schema hSchema => exact ⟨schema, hSchema⟩
  | stuck e _ hFault =>
      rcases exists_label_of_firstFault? hFault with ⟨t, ht, hNone⟩
      exact absurd
        (writable_of_mem_schemaTexts hEntries hWritable ht)
        (not_writable_of_label hNone)

theorem lower_text (m : Method) :
    Text.lower m.text.toList = m.text.toList := by
  cases m with
  | _ => decide

/-
  The reader of schemas has an answer on every document that can
  be written.
-/
theorem readsAny_of_writable
    (d : Document)
    (h : d.Writable) : ReadsAny d where
  refused := by
    rw [← pathsEntries?_eq_none_iff]
    constructor
    · intro hRefused
      cases hPaths : pathsEntries? d with
      | none => rfl
      | some found =>
          rcases found with ⟨es, ps⟩
          rcases pathsEntries?_eq_some_iff.1 hPaths with
            ⟨hEs, v, hFound⟩
          rcases exists_ofDocument h ⟨es, v, hEs, hFound⟩ with
            ⟨schema, hSchema⟩
          rw [hRefused] at hSchema
          cases hSchema
    · intro hNone
      rw [ofDocument, hNone]
  answered ps hPaths := exists_ofDocument h hPaths
  pruned e hPruned := (ofDocument_pruned hPruned).symm
  declared schema hSchema := lastWins_of_ofDocument hSchema
  lower _ _ _ _ offer _ := lower_text offer.1

/-
  A document with junk: a parameter that is a number and one
  whose name is null, a key that is no method, a method that is
  null, and a path that is null.
-/
def junkDocument : Document :=
  mapping
    [(ofString "paths", mapping
      [(ofString "/users", mapping
        [(ofString "GET", mapping
          [(ofString "parameters", list
            [int 7,
              mapping [(ofString "name", ofString "id")],
              mapping [(ofString "name", null)]])]),
          (ofString "x-owner", int 12),
          (ofString "post", null)]),
        (ofString "/gone", null)])]

/- The same document without its junk. -/
def plainDocument : Document :=
  mapping
    [(ofString "paths", mapping
      [(ofString "/users", mapping
        [(ofString "GET", mapping
          [(ofString "parameters", list
            [mapping [(ofString "name", ofString "id")]])])])])]

theorem writable_junkDocument : junkDocument.Writable := by
  refine ⟨?_, by decide⟩
  simp only [junkDocument, IsShort, EntriesShort, ItemsShort,
    ofString, and_true, true_and]
  decide

/- Each part of the junk may be left out. -/
theorem pruned_junkDocument :
    PrunedDocument junkDocument plainDocument := by
  have hNumber : isNamed (int 7) = false := rfl
  have hNull :
      isNamed (mapping [(ofString "name", null)]) = false := rfl
  have hOwner : OffersNothing (ofString "x-owner", int 12) :=
    ⟨"x-owner", rfl, Or.inl (by decide)⟩
  have hPost : OffersNothing (ofString "post", null) :=
    ⟨"post", rfl, Or.inr rfl⟩
  have hGone : IsNoPathItem (ofString "/gone", null) := rfl
  have hParameters :=
    PrunedParameters.list (.drop hNumber
      (.keep (Eq.refl (mapping [(ofString "name", ofString "id")]))
        (.drop hNull .nil)))
  have hOperation :=
    PrunedOperation.mapping (.cons
      (.of_kept (Eq.refl (ofString "parameters")) hParameters)
      .nil)
  have hPathItem :=
    PrunedPathItem.mapping (.keep
      (.of_kept (k := ofString "GET") trivial hOperation)
      (.drop hOwner (.drop hPost .nil)))
  have hPaths :=
    PrunedPaths.mapping (.keep
      (.of_kept (k := ofString "/users") trivial hPathItem)
      (.drop hGone .nil))
  exact PrunedDocument.mapping (.cons
    (.of_kept (Eq.refl (ofString "paths")) hPaths) .nil)

/- The document is read, and its junk changes nothing. -/
theorem readsAny_junkDocument :
    junkDocument.Writable ∧ ReadsAny junkDocument ∧
      ofDocument plainDocument = ofDocument junkDocument := by
  have hReads := readsAny_of_writable junkDocument
    writable_junkDocument
  exact ⟨writable_junkDocument, hReads,
    hReads.pruned plainDocument pruned_junkDocument⟩

end Schema

end TypedClient
