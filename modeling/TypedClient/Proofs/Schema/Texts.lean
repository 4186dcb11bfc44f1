import TypedClient.Proofs.Document.Writable
import TypedClient.Schema.Parse

/-
  This file lists the parts of a document that the reader of
  schemas writes as texts, and shows that it breaks off just if
  one of them has no text, with the first fault among them.

  Key definitions include:
    * `Schema.firstFault?`
    * `Schema.Needs`
    * `Schema.schemaTexts`

  Key theorems include:
    * `Schema.needs_ofDocument`
    * `Schema.writable_of_mem_schemaTexts`
-/

namespace TypedClient

namespace Schema

open Document

------------------------------------------------------------
-- Needs
------------------------------------------------------------

/- Why a document cannot be written as a text, if it cannot. -/
def faultOf? (d : Document) : Option Fault :=
  match d.label with
  | .ok _ => none
  | .error e => some e

/- The first fault among documents that are to be written. -/
def firstFault? (ts : List Document) : Option Fault :=
  ts.findSome? faultOf?

/-
  A reading that needs the texts of some documents: it is done if
  they all have one, and is stuck otherwise, with the first fault.
-/
inductive Needs
    {α : Type}
    (ts : List Document)
    (x : Except Failure α) : Prop
  | done (a : α)
      (h : x = .ok a)
      (hTexts : firstFault? ts = none)
  | stuck (e : Fault)
      (h : x = .error (.document e))
      (hFault : firstFault? ts = some e)

theorem faultOf?_eq_some_iff
    {d : Document}
    {e : Fault} : faultOf? d = some e ↔ d.label = .error e := by
  unfold faultOf?
  cases d.label with
  | ok t => simp
  | error e' => simp

theorem exists_label_of_firstFault?
    {ts : List Document}
    {e : Fault}
    (h : firstFault? ts = some e) :
    ∃ t ∈ ts, t.label = .error e := by
  rcases List.exists_of_findSome?_eq_some h with ⟨t, ht, hFault⟩
  exact ⟨t, ht, faultOf?_eq_some_iff.1 hFault⟩

section

variable {α β : Type}
variable {ts us : List Document}
variable {x : Except Failure α}
variable {f : α → Except Failure β}

theorem Needs.ok (a : α) : Needs [] (.ok a) :=
  .done a rfl rfl

/- One reading behind another needs what both of them need. -/
theorem Needs.bind
    (hFirst : Needs ts x)
    (hNext : ∀ a, x = .ok a → Needs us (f a)) :
    Needs (ts ++ us) (x >>= f) := by
  have hBoth : firstFault? (ts ++ us) =
      (firstFault? ts).or (firstFault? us) :=
    List.findSome?_append
  cases hFirst with
  | stuck e h hFault =>
      rw [hFault, Option.some_or] at hBoth
      refine .stuck e ?_ hBoth
      rw [h]
      rfl
  | done a h hTexts =>
      rw [hTexts, Option.none_or] at hBoth
      have hSame : (x >>= f) = f a := by rw [h]; rfl
      rw [hSame]
      cases hNext a h with
      | stuck e hF hFault =>
          exact .stuck e hF (hBoth.trans hFault)
      | done b hF hMore => exact .done b hF (hBoth.trans hMore)

theorem Needs.map
    {g : α → β}
    (h : Needs ts x) : Needs ts (x >>= fun a => .ok (g a)) := by
  have hBind := h.bind fun a _ => Needs.ok (g a)
  rwa [List.append_nil] at hBind

end

/- A text is read just if there is one. -/
theorem needs_labelOf (d : Document) : Needs [d] (labelOf d) := by
  have hFault : firstFault? [d] = faultOf? d := by
    simp [firstFault?]
  unfold faultOf? at hFault
  cases h : d.label with
  | ok t =>
      rw [h] at hFault
      exact .done t (by rw [labelOf, h]) hFault
  | error e =>
      rw [h] at hFault
      exact .stuck e (by rw [labelOf, h]) hFault

------------------------------------------------------------
-- Parameters
------------------------------------------------------------

/- The text of an entry, unless it is absent or blank. -/
def textsAt
    (entries : List (Document × Document))
    (key : String) : List Document :=
  match find? entries key with
  | none => []
  | some d => if d.isBlank then [] else [d]

/- The texts of a parameter: its name and its location. -/
def parameterTexts (d : Document) : List Document :=
  match d.entries? with
  | none => []
  | some entries =>
      match find? entries "name" with
      | none => []
      | some .null => []
      | some name => name :: textsAt entries "in"

/- An entry is read as a text if it is one. -/
theorem needs_textAt
    (entries : List (Document × Document))
    (key : String) :
    Needs (textsAt entries key) (textAt entries key) := by
  unfold textsAt textAt
  cases find? entries key with
  | none => exact Needs.ok []
  | some d =>
      by_cases hBlank : d.isBlank = true
      · simp only [hBlank, if_true]
        exact Needs.ok []
      · simp only [hBlank]
        exact needs_labelOf d

/- A parameter needs its texts. -/
theorem needs_parameterOf (d : Document) :
    Needs (parameterTexts d) (parameterOf d) := by
  unfold parameterTexts parameterOf
  cases d.entries? with
  | none => exact Needs.ok none
  | some entries =>
      dsimp only
      cases find? entries "name" with
      | none => exact Needs.ok none
      | some name =>
          let parameter (s t : RawText) : Parameter :=
            ⟨s, if t.isEmpty then defaultLocation else t,
              kindOf entries⟩
          have hNeeds := (needs_labelOf name).bind fun s _ =>
            (needs_textAt entries "in").map
              (g := fun t => some (parameter s t))
          cases name with
          | null => exact Needs.ok none
          | _ => exact hNeeds

theorem needs_parametersOf (items : List Document) :
    Needs (items.flatMap parameterTexts) (parametersOf items) := by
  induction items with
  | nil => exact Needs.ok []
  | cons d ds ih =>
      rw [List.flatMap_cons, parametersOf]
      exact (needs_parameterOf d).bind fun p _ => ih.map

------------------------------------------------------------
-- Operations
------------------------------------------------------------

/- The texts of an operation: its parameters and status codes. -/
def operationTexts
    (entries : List (Document × Document)) : List Document :=
  (itemsAt entries "parameters").flatMap parameterTexts ++
    (entriesAt entries "responses").map Prod.fst

theorem needs_codesOf (entries : List (Document × Document)) :
    Needs (entries.map Prod.fst) (codesOf entries) := by
  induction entries with
  | nil => exact Needs.ok []
  | cons e es ih =>
      rw [List.map_cons, codesOf]
      exact (needs_labelOf e.1).bind fun c _ => ih.map

theorem needs_operationOf
    (entries : List (Document × Document)) :
    Needs (operationTexts entries) (operationOf entries) :=
  (needs_parametersOf (itemsAt entries "parameters")).bind
    fun _ _ => (needs_codesOf (entriesAt entries "responses")).map

------------------------------------------------------------
-- Paths
------------------------------------------------------------

/- The texts of the operation that an entry offers, if any. -/
def offerTexts (e : Document × Document) : List Document :=
  match labelOf e.1 with
  | .error _ => []
  | .ok key =>
      match methodOf key, e.2.entries? with
      | some _, some entries => operationTexts entries
      | _, _ => []

/- The texts of a path item: its keys and its operations. -/
def pathItemTexts
    (entries : List (Document × Document)) : List Document :=
  entries.flatMap fun e => e.1 :: offerTexts e

/- The texts of paths: their items and keys. -/
def pathTexts
    (entries : List (Document × Document)) : List Document :=
  entries.flatMap fun e =>
    match e.2.entries? with
    | none => []
    | some item => pathItemTexts item ++ [e.1]

/- The texts of a document with these entries and paths. -/
def schemaTexts
    (entries paths : List (Document × Document)) :
    List Document :=
  pathTexts paths ++
    (textsAt (entriesAt entries "info") "title" ++
      textsAt (entriesAt entries "info") "version")

/- A path item needs its texts. -/
theorem needs_pathItemOf
    (entries : List (Document × Document))
    (item : PathItem) :
    Needs (pathItemTexts entries) (pathItemOf item entries) := by
  induction entries generalizing item with
  | nil => exact Needs.ok item
  | cons e es ih =>
      rcases e with ⟨k, v⟩
      have hSplit : pathItemTexts ((k, v) :: es) =
          [k] ++ (offerTexts (k, v) ++ pathItemTexts es) := rfl
      rw [hSplit, pathItemOf]
      refine (needs_labelOf k).bind ?_
      intro key hKey
      simp only [offerTexts, hKey]
      cases methodOf key with
      | none => exact ih item
      | some m =>
          cases v.entries? with
          | none => exact ih item
          | some fs =>
              exact (needs_operationOf fs).bind fun op _ =>
                ih (put item m op)

/- Paths need their texts. -/
theorem needs_pathsOf
    (entries : List (Document × Document))
    (paths : List (RawText × PathItem)) :
    Needs (pathTexts entries) (pathsOf paths entries) := by
  induction entries generalizing paths with
  | nil => exact Needs.ok paths
  | cons e es ih =>
      rcases e with ⟨k, v⟩
      rw [pathTexts, List.flatMap_cons, pathsOf]
      cases v.entries? with
      | none => exact ih paths
      | some fs =>
          rw [List.append_assoc]
          refine (needs_pathItemOf fs []).bind fun item _ => ?_
          exact (needs_labelOf k).bind fun text _ =>
            ih (put paths text item)

/- A document with paths needs its texts. -/
theorem needs_ofDocument
    {d : Document}
    {entries paths : List (Document × Document)}
    (h : pathsEntries? d = some (entries, paths)) :
    Needs (schemaTexts entries paths) (ofDocument d) := by
  rw [ofDocument, h]
  refine (needs_pathsOf paths []).bind fun found _ => ?_
  exact (needs_textAt (entriesAt entries "info") "title").bind
    fun title _ =>
      (needs_textAt (entriesAt entries "info") "version").map

------------------------------------------------------------
-- Writable documents
------------------------------------------------------------

section

variable {es : List (Document × Document)}
variable {t : Document}

/- The items under a key of a writable mapping are writable. -/
theorem writable_of_mem_itemsAt
    {key : String}
    (h : EntriesWritable es)
    (ht : t ∈ itemsAt es key) : t.Writable := by
  unfold itemsAt at ht
  cases hItems : (find? es key).bind items? with
  | none =>
      rw [hItems] at ht
      cases ht
  | some items =>
      rw [hItems] at ht
      rcases Option.bind_eq_some_iff.1 hItems with ⟨d, hFind, hD⟩
      exact writable_of_mem_items? (h.of_find? hFind) hD ht

/- So are the entries under a key. -/
theorem entriesWritable_entriesAt
    (h : EntriesWritable es)
    (key : String) : EntriesWritable (entriesAt es key) := by
  unfold entriesAt
  cases hEntries : (find? es key).bind entries? with
  | none => exact fun e he => by cases he
  | some entries =>
      rcases Option.bind_eq_some_iff.1 hEntries with
        ⟨d, hFind, hD⟩
      exact entriesWritable_of_entries? (h.of_find? hFind) hD

/- The text of an entry of a writable mapping is writable. -/
theorem writable_of_mem_textsAt
    {key : String}
    (h : EntriesWritable es)
    (ht : t ∈ textsAt es key) : t.Writable := by
  unfold textsAt at ht
  split at ht
  next => cases ht
  next d hFind =>
    split at ht
    · cases ht
    · rw [List.mem_singleton.1 ht]
      exact h.of_find? hFind

/- So are the texts of a writable parameter. -/
theorem writable_of_mem_parameterTexts
    {d : Document}
    (h : d.Writable)
    (ht : t ∈ parameterTexts d) : t.Writable := by
  unfold parameterTexts at ht
  split at ht
  next => cases ht
  next es hEntries =>
    have hEs := entriesWritable_of_entries? h hEntries
    split at ht
    next => cases ht
    next => cases ht
    next name hName =>
      rcases List.mem_cons.1 ht with rfl | ht
      · exact hEs.of_find? hName
      · exact writable_of_mem_textsAt hEs ht

theorem writable_of_mem_operationTexts
    (h : EntriesWritable es)
    (ht : t ∈ operationTexts es) : t.Writable := by
  rcases List.mem_append.1 ht with ht | ht
  · rcases List.mem_flatMap.1 ht with ⟨d, hd, ht⟩
    exact writable_of_mem_parameterTexts
      (writable_of_mem_itemsAt h hd) ht
  · rcases List.mem_map.1 ht with ⟨e, he, rfl⟩
    exact (entriesWritable_entriesAt h "responses" e he).1

/- The texts of a writable path item are writable. -/
theorem writable_of_mem_pathItemTexts
    (h : EntriesWritable es)
    (ht : t ∈ pathItemTexts es) : t.Writable := by
  rcases List.mem_flatMap.1 ht with ⟨e, he, ht⟩
  have hEntry := h e he
  rcases List.mem_cons.1 ht with rfl | ht
  · exact hEntry.1
  · unfold offerTexts at ht
    split at ht
    next => cases ht
    next =>
      split at ht
      next m fs hMethod hEntries =>
        exact writable_of_mem_operationTexts
          (entriesWritable_of_entries? hEntry.2 hEntries) ht
      next => cases ht

/- So are the texts of writable paths. -/
theorem writable_of_mem_pathTexts
    (h : EntriesWritable es)
    (ht : t ∈ pathTexts es) : t.Writable := by
  rcases List.mem_flatMap.1 ht with ⟨e, he, ht⟩
  have hEntry := h e he
  split at ht
  next => cases ht
  next fs hEntries =>
    rcases List.mem_append.1 ht with ht | ht
    · exact writable_of_mem_pathItemTexts
        (entriesWritable_of_entries? hEntry.2 hEntries) ht
    · rw [List.mem_singleton.1 ht]
      exact hEntry.1

/- So are all texts that a writable document needs. -/
theorem writable_of_mem_schemaTexts
    {ps : List (Document × Document)}
    (h : EntriesWritable es)
    (hPaths : EntriesWritable ps)
    (ht : t ∈ schemaTexts es ps) : t.Writable := by
  have hInfo := entriesWritable_entriesAt h "info"
  rcases List.mem_append.1 ht with ht | ht
  · exact writable_of_mem_pathTexts hPaths ht
  · rcases List.mem_append.1 ht with ht | ht
    · exact writable_of_mem_textsAt hInfo ht
    · exact writable_of_mem_textsAt hInfo ht

end

end Schema

end TypedClient
