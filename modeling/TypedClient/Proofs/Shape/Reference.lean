import Mathlib.Logic.Relation
import TypedClient.Proofs.Shape.Record

/-
  This file follows the references between records.  A record
  refers to records whose names go on where its own name ends, so
  references lead to longer and longer names; and whatever is put
  into a table comes with the records that it refers to, so no
  reference dangles, even where a record replaces another one.

  Key definitions include:
    * `Shape.references`
    * `Shape.Extends`
    * `Shape.Finding.Closed`
    * `Shape.Table.Closed`
    * `Shape.Table.Refers`

  Key theorems include:
    * `Shape.closed_find`
    * `Shape.Reachable.closed`
    * `Shape.Table.Closed.not_transGen_refers`
-/

namespace TypedClient

namespace Shape

------------------------------------------------------------
-- References
------------------------------------------------------------

/- The names of the records in a shape, at any depth. -/
def references : Shape → List String
  | primitive _ => []
  | list item => item.references
  | map value => value.references
  | record name => [name]

/- A name that goes on behind another one. -/
def Extends (name longer : String) : Prop :=
  ∃ more, more ≠ "" ∧ longer = name ++ more

theorem Extends.length_lt
    {name longer : String}
    (h : Extends name longer) : name.length < longer.length := by
  rcases h with ⟨more, hMore, rfl⟩
  have hPos : more.length ≠ 0 := fun hZero =>
    hMore (String.length_eq_zero_iff.1 hZero)
  rw [String.length_append]
  omega

theorem references_of_isLeaf
    {value : Json}
    {shape : Shape}
    (h : IsLeaf value shape) : shape.references = [] := by
  cases h <;> rfl

------------------------------------------------------------
-- Findings
------------------------------------------------------------

/-
  A record whose fields refer to records of some names only, each
  of which goes on behind the name of the record.
-/
def Record.Within (r : Record) (names : List String) : Prop :=
  ∀ f ∈ r.fields, ∀ n ∈ f.shape.references,
    n ∈ names ∧ Extends r.name n

theorem Record.Within.mono
    {r : Record}
    {names more : List String}
    (h : r.Within names)
    (hSubset : names ⊆ more) : r.Within more := by
  intro f hf n hn
  exact (h f hf n hn).imp_left fun hMem => hSubset hMem

/-
  A finding below a name that comes with all records which it
  refers to, each of a name that starts with the given one.
-/
structure Finding.Closed
    (name : String)
    (found : Finding Shape) : Prop where
  result : ∀ shape, found.result = some shape →
    ∀ n ∈ shape.references,
      n ∈ found.records.map Record.name ∧
        ∃ more, n = name ++ more
  records : ∀ r ∈ found.records,
    r.Within (found.records.map Record.name)

namespace Finding.Closed

theorem nothing (name : String) :
    Finding.Closed name (.plain none) := by
  refine ⟨fun shape h => ?_, fun r hr => ?_⟩
  · cases h
  · cases hr

/- A shape without references comes without records. -/
theorem leaf
    (name : String)
    {shape : Shape}
    (h : shape.references = []) :
    Finding.Closed name (.plain (some shape)) := by
  refine ⟨fun other hOther n hn => ?_, fun r hr => ?_⟩
  · cases hOther
    rw [h] at hn
    cases hn
  · cases hr

/- A container refers to what its items refer to. -/
theorem map
    {name suffix : String}
    {found : Finding Shape}
    {f : Shape → Shape}
    (hReferences : ∀ s, (f s).references = s.references)
    (h : Finding.Closed (name ++ suffix) found) :
    Finding.Closed name (found.map f) := by
  refine ⟨fun shape hShape n hn => ?_, h.records⟩
  rcases Finding.result_map.1 hShape with ⟨item, hItem, rfl⟩
  rw [hReferences] at hn
  rcases h.result item hItem n hn with ⟨hMem, more, hMore⟩
  exact ⟨hMem, suffix ++ more, by
    rw [hMore, String.append_assoc]⟩

end Finding.Closed

/- A record found below a member has its references there. -/
theorem within_of_mem_findFields
    {find : Find}
    {owner : String}
    {names attrs : Name.Registry}
    {members : List (RawText × Json)}
    (hFind : ∀ name value,
      Finding.Closed name (find name value)) :
    let found := findFields find owner names attrs members
    ∀ r ∈ found.records,
      r.Within (found.records.map Record.name) := by
  induction members generalizing names attrs with
  | nil =>
      intro found r hr
      cases hr
  | cons m ms ih =>
      intro found r hr
      simp only [found, findFields] at hr ⊢
      rcases Finding.mem_records_andThen.1 hr with
        hFirst | ⟨shape, hShape, hOthers⟩
      · apply ((hFind _ _).records r hFirst).mono
        exact List.map_subset _ fun s hs =>
          Finding.mem_records_andThen.2 (Or.inl hs)
      · apply (ih r hOthers).mono
        exact List.map_subset _ fun s hs =>
          Finding.mem_records_andThen.2
            (Or.inr ⟨shape, hShape, hs⟩)

/-
  The fields of a record refer to records that are found below
  it: the name of each field, which is not empty, stands between
  the name of the record and the rest of theirs.
-/
theorem within_of_findFields
    {find : Find}
    {owner : String}
    {names attrs : Name.Registry}
    {members : List (RawText × Json)}
    {fields : List Field}
    (hFind : ∀ name value,
      Finding.Closed name (find name value))
    (h : (findFields find owner names attrs members).result =
      some fields) :
    (Record.mk owner fields).Within
      ((findFields find owner names attrs
        members).records.map Record.name) := by
  intro f hf n hn
  rcases exists_member_findFields h hf with
    ⟨m, _, hField, hRecords⟩
  rcases (hFind _ _).result _ hField.shape n hn with
    ⟨hMem, more, rfl⟩
  have hPascal := isPascal_of_isGivenFor_fieldName hField.name
  have hNe : f.name ++ more ≠ "" := by
    intro hEmpty
    have hName : f.name = "" :=
      (String.append_eq_empty_iff.1 hEmpty).1
    rw [hName] at hPascal
    exact absurd hPascal (by decide)
  refine ⟨List.map_subset _ hRecords hMem, _, hNe, ?_⟩
  exact String.append_assoc

/- Every finding comes with the records that it refers to. -/
theorem closed_find
    (budget : Nat)
    (name : String)
    (value : Json) :
    Finding.Closed name (find budget name value) := by
  refine find_induction
    (P := fun name _ found => Finding.Closed name found)
    ?tooDeep ?leaf ?array ?numbered ?object budget name value
  case tooDeep => exact fun name _ => .nothing name
  case leaf =>
    intro name value shape hLeaf
    exact .leaf name (references_of_isLeaf hLeaf)
  case array =>
    intro name v vs found ih
    exact .map (fun _ => rfl) ih
  case numbered =>
    intro name members m ms found _ _ ih
    exact .map (fun _ => rfl) ih
  case object =>
    intro name members m ms find _ _ hFind
    have hBelow : ∀ r ∈ (findFields find name .empty .empty
        (m :: ms)).records, r.Within
          ((findFields find name .empty .empty
            (m :: ms)).records.map Record.name) :=
      within_of_mem_findFields hFind
    refine ⟨fun shape hShape n hn => ?_, fun r hr => ?_⟩
    · rcases Finding.result_andThen.1 hShape with
        ⟨fields, hFields, hRecord⟩
      cases hRecord
      have hName : n = name := List.mem_singleton.1 hn
      rw [findRecord_of_findFields hFields]
      refine ⟨?_, "", ?_⟩
      · simp [hName]
      · rw [hName, String.append_empty]
    · have hSubset :
          (findFields find name .empty .empty
              (m :: ms)).records.map Record.name ⊆
            (findRecord find name
              (m :: ms)).records.map Record.name :=
        List.map_subset _ fun s hs =>
          Finding.mem_records_andThen.2 (Or.inl hs)
      rcases mem_records_findRecord hr with
        hBelowName | ⟨fields, hFields, rfl⟩
      · exact (hBelow r hBelowName).mono hSubset
      · exact (within_of_findFields hFind hFields).mono hSubset

------------------------------------------------------------
-- Tables
------------------------------------------------------------

namespace Table

/- A table in which no reference dangles. -/
def Closed (t : Table) : Prop :=
  ∀ r ∈ t.records, r.Within t.names

/- What is put in with its references dangles nowhere. -/
theorem Closed.insertAll
    {t : Table}
    {rs : List Record}
    (h : t.Closed)
    (hRecords : ∀ r ∈ rs, r.Within (rs.map Record.name)) :
    (t.insertAll rs).Closed := by
  intro r hr
  rcases mem_records_insertAll hr with hNew | hOld
  · exact (hRecords r hNew).mono fun n hn =>
      mem_names_insertAll.2 (Or.inl hn)
  · exact (h r hOld).mono fun n hn =>
      mem_names_insertAll.2 (Or.inr hn)

theorem Closed.merge
    {t u : Table}
    (ht : t.Closed)
    (hu : u.Closed) : (t.merge u).Closed :=
  ht.insertAll hu

/- A record of one name refers to one of another name. -/
def Refers (t : Table) (name other : String) : Prop :=
  ∃ r ∈ t.records, r.name = name ∧
    ∃ f ∈ r.fields, other ∈ f.shape.references

/- References lead to longer names. -/
theorem Closed.length_lt
    {t : Table}
    {name other : String}
    (h : t.Closed)
    (hRefers : t.Refers name other) :
    name.length < other.length := by
  rcases hRefers with ⟨r, hr, rfl, f, hf, hOther⟩
  exact (h r hr f hf other hOther).2.length_lt

/- References do not lead back to where they come from. -/
theorem Closed.not_transGen_refers
    {t : Table}
    (h : t.Closed)
    (name : String) :
    ¬ Relation.TransGen t.Refers name name := by
  intro hCycle
  have hLonger : ∀ other,
      Relation.TransGen t.Refers name other →
        name.length < other.length := by
    intro other hOther
    induction hOther with
    | single hStep => exact h.length_lt hStep
    | tail _ hStep ih => exact Nat.lt_trans ih (h.length_lt hStep)
  exact Nat.lt_irrefl _ (hLonger name hCycle)

end Table

/- The finding in a response comes with what it refers to. -/
theorem closed_findResponse
    (funcName : String)
    (value : Json) :
    Finding.Closed (funcName ++ responseSuffix)
      (findResponse funcName value) :=
  closed_find budget _ value

/- No reference dangles in a reachable table. -/
theorem Reachable.closed
    {table : Table}
    (h : Reachable table) : table.Closed := by
  induction h with
  | empty =>
      intro r hr
      simp [Table.empty] at hr
  | respond _ m path _ ih =>
      rw [inferResponse_eq_onto]
      exact ih.insertAll (closed_findResponse _ _).records
  | merge _ _ ht hu => exact ht.merge hu

/- The records that a reachable table refers to have names. -/
theorem Reachable.isPascal_of_mem_references
    {table : Table}
    (h : Reachable table)
    {r : Record}
    (hr : r ∈ table.records)
    {f : Field}
    (hf : f ∈ r.fields)
    {n : String}
    (hn : n ∈ f.shape.references) : Name.IsPascal n := by
  rcases List.mem_map.1 (h.closed r hr f hf n hn).1 with
    ⟨target, hTarget, rfl⟩
  exact (h.wellFormed target hTarget).name

/- The shape of a response refers to records behind it. -/
theorem references_inferResponse
    {funcName : String}
    {value : Json}
    {table : Table}
    {shape : Shape}
    (h : (inferResponse funcName value table).result =
      some shape) :
    shape.references ⊆
      (inferResponse funcName value table).table.names := by
  rw [inferResponse_eq_onto] at h ⊢
  intro n hn
  have hFound :=
    (closed_findResponse funcName value).result shape h n hn
  exact Table.mem_names_insertAll.2 (Or.inl hFound.1)

end Shape

end TypedClient
