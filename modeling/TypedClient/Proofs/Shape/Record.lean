import TypedClient.Proofs.Endpoint.Names
import TypedClient.Proofs.Json.WellFormed
import TypedClient.Proofs.Name.Field
import TypedClient.Proofs.Shape.Fields

/-
  This file shows that the records that inference puts into a
  table are well formed: their names may stand in emitted code
  beside the others there, and their fields are listed in the
  order of keys under names that differ from each other.

  Key definitions include:
    * `Shape.Record.WellFormed`
    * `Shape.Reachable`

  Key theorems include:
    * `Shape.wellFormed_of_mem_find`
    * `Shape.keys_of_infer_object`
    * `Shape.wellFormed_of_reachable`
-/

namespace TypedClient

namespace Shape

------------------------------------------------------------
-- Well-formed records
------------------------------------------------------------

/- The other names at the top of emitted modules. -/
def moduleNames : List String :=
  ["Any", "BaseModel", "Field", "ValidationError", "ApiError",
    "DecodeError", "Client"]

/- Whether a name has that of responses in it. -/
def IsOfResponse (name : String) : Prop :=
  responseSuffix.toList <:+: name.toList

theorem IsOfResponse.append
    {name : String}
    (h : IsOfResponse name)
    (more : String) : IsOfResponse (name ++ more) := by
  unfold IsOfResponse at h ⊢
  rw [String.toList_append]
  exact h.trans (List.prefix_append _ _).isInfix

theorem IsOfResponse.not_mem_moduleNames
    {name : String}
    (h : IsOfResponse name) : name ∉ moduleNames := by
  intro hMem
  have hCapital : 'R' ∈ name.toList :=
    List.IsInfix.subset h (by decide)
  have hOther : ∀ other ∈ moduleNames, 'R' ∉ other.toList := by
    decide
  exact hOther name hMem hCapital

/- A field whose names may stand in emitted code. -/
structure Field.WellFormed (f : Field) : Prop where
  name : Name.IsPascal f.name
  attr : Name.IsSnake f.attr
  noKeyword : f.attr ∉ Name.keywords
  unreserved : f.attr ∉ Name.reservedAttributes
  marked :
    f.attr.startsWith Name.modelMark = true →
      Name.IsMarkedFor f.name f.attr

/- A record whose names may stand in emitted code. -/
structure Record.WellFormed (r : Record) : Prop where
  name : Name.IsPascal r.name
  response : IsOfResponse r.name
  own : r.name ∉ moduleNames
  nonempty : r.fields ≠ []
  keys : (r.fields.map Field.key).Pairwise RawText.Precedes
  names : (r.fields.map Field.name).Nodup
  attrs : (r.fields.map Field.attr).Nodup
  fields : ∀ f ∈ r.fields, f.WellFormed

------------------------------------------------------------
-- Fields
------------------------------------------------------------

theorem isPascal_of_isGivenFor_fieldName
    {key : RawText}
    {name : String}
    (h : Name.IsGivenFor (fieldName key) name) :
    Name.IsPascal name :=
  (Name.isPascal_guardDigit_pascal _).of_isGivenFor h

/- A field for a member of an object is well formed. -/
theorem IsFieldOf.wellFormed
    {find : Find}
    {owner : String}
    {member : RawText × Json}
    {field : Field}
    (h : IsFieldOf find owner member field) :
    field.WellFormed := by
  have hName : Name.IsPascal field.name :=
    isPascal_of_isGivenFor_fieldName h.name
  have hFree := Name.ofField_not_mem field.name
  exact
    { name := hName
      attr := (Name.isSnake_ofField hName).of_isGivenFor h.attr
      noKeyword := Name.not_mem_of_isGivenFor
        Name.endSmall_keywords hFree.1 h.attr
      unreserved := Name.not_mem_of_isGivenFor
        Name.endSmall_reservedAttributes hFree.2 h.attr
      marked := Name.isMarkedFor_of_startsWith h.attr }

------------------------------------------------------------
-- Records of objects
------------------------------------------------------------

/- The shape of an object with fields is the record with them. -/
theorem findRecord_of_findFields
    {find : Find}
    {name : String}
    {members : List (RawText × Json)}
    {fields : List Field}
    (h : (findFields find name .empty .empty members).result =
      some fields) :
    findRecord find name members =
      ⟨some (record name),
        (findFields find name .empty .empty members).records ++
          [⟨name, fields⟩]⟩ := by
  simp only [findRecord, Finding.andThen, h]

/- The records of an object are its own and those below it. -/
theorem mem_records_findRecord
    {find : Find}
    {name : String}
    {members : List (RawText × Json)}
    {r : Record}
    (h : r ∈ (findRecord find name members).records) :
    r ∈ (findFields find name .empty .empty members).records ∨
      ∃ fields,
        (findFields find name .empty .empty members).result =
          some fields ∧ r = ⟨name, fields⟩ := by
  rcases Finding.mem_records_andThen.1 h with
    hBelow | ⟨fields, hFields, hOwn⟩
  · exact Or.inl hBelow
  · exact Or.inr ⟨fields, hFields, List.mem_singleton.1 hOwn⟩

/- The record of an object with distinct keys is well formed. -/
theorem wellFormed_of_findFields
    {find : Find}
    {name : String}
    {members ms : List (RawText × Json)}
    {m : RawText × Json}
    {fields : List Field}
    (hName : Name.IsPascal name)
    (hResponse : IsOfResponse name)
    (hKeys : (members.map Prod.fst).Nodup)
    (hSorted : Json.sortMembers members = m :: ms)
    (h : (findFields find name .empty .empty (m :: ms)).result =
      some fields) : (Record.mk name fields).WellFormed := by
  have hFieldKeys : fields.map Field.key =
      (Json.sortMembers members).map Prod.fst := by
    rw [keys_findFields h, hSorted]
  exact
    { name := hName
      response := hResponse
      own := hResponse.not_mem_moduleNames
      nonempty := by
        rintro rfl
        simp [hSorted] at hFieldKeys
      keys := by
        rw [hFieldKeys]
        exact Json.precedes_sortMembers hKeys
      names := nodup_names_findFields h
      attrs := nodup_attrs_findFields h
      fields := fun f hf => by
        rcases exists_member_findFields h hf with
          ⟨_, _, hField, _⟩
        exact hField.wellFormed }

------------------------------------------------------------
-- Records of values
------------------------------------------------------------

/-
  The records found in a well-formed value are well formed: what
  is put behind the name of the value is in Pascal case.
-/
theorem wellFormed_of_mem_find
    (budget : Nat)
    (name : String)
    {value : Json}
    (hValue : value.WellFormed)
    (hName : Name.IsPascal name)
    (hResponse : IsOfResponse name) :
    ∀ r ∈ (find budget name value).records, r.WellFormed := by
  have hItem : ∀ {name}, Name.IsPascal name →
      Name.IsPascal (name ++ itemSuffix) :=
    fun h => h.append (List.all_eq_true.1 (by decide))
  revert hValue hName hResponse
  refine find_induction
    (P := fun name value found =>
      value.WellFormed → Name.IsPascal name →
        IsOfResponse name →
          ∀ r ∈ found.records, r.WellFormed)
    ?tooDeep ?leaf ?array ?numbered ?object budget name value
  case tooDeep =>
    intro name value _ _ _ r hr
    simp [Finding.plain] at hr
  case leaf =>
    intro name value shape _ _ _ _ r hr
    simp [Finding.plain] at hr
  case array =>
    intro name v vs found ih hValue hName hResponse
    cases hValue with
    | array hItems =>
        exact ih (hItems v List.mem_cons_self) (hItem hName)
          (hResponse.append _)
  case numbered =>
    intro name members m ms found hSorted _ ih hValue hName
      hResponse
    have hMem := mem_of_sortMembers_eq_cons hSorted
    cases hValue with
    | object hKeys hValues =>
        exact ih (hValues m (hMem m List.mem_cons_self))
          (hItem hName) (hResponse.append _)
  case object =>
    intro name members m ms find hSorted _ ih hValue hName
      hResponse r hr
    have hMem := mem_of_sortMembers_eq_cons hSorted
    cases hValue with
    | object hKeys hValues =>
        rcases mem_records_findRecord hr with
          hBelow | ⟨fields, hFields, rfl⟩
        · rcases mem_records_findFields hBelow with
            ⟨n, hn, given, hGiven, hFound⟩
          have hPascal := isPascal_of_isGivenFor_fieldName hGiven
          exact ih _ _ (hValues n (hMem n hn))
            (hName.append hPascal.isAlphanum)
            (hResponse.append given) r hFound
        · exact wellFormed_of_findFields hName hResponse hKeys
            hSorted hFields

/- An object whose shape is its record has the record's keys. -/
theorem keys_of_infer_object
    {budget : Nat}
    {name : String}
    {members : List (RawText × Json)}
    {table : Table}
    (hKeys : (members.map Prod.fst).Nodup)
    (h : (infer budget name (.object members) table).result =
      some (record name)) :
    ∃ r,
      (infer budget name (.object members) table).table.get?
          name = some r ∧
        (r.fields.map Field.key).Perm (members.map Prod.fst) ∧
        (r.fields.map Field.key).Pairwise RawText.Precedes := by
  rw [infer_eq_onto] at h ⊢
  match budget with
  | 0 => cases h
  | 1 => cases h
  | budget + 2 =>
      simp only [Finding.onto, find] at h ⊢
      cases hSorted : Json.sortMembers members with
      | nil =>
          rw [hSorted] at h
          cases h
      | cons m ms =>
          rw [hSorted] at h
          simp only [findObject] at h ⊢
          split at h
          next hNumbered =>
            rcases Finding.result_map.1 h with ⟨_, _, hEq⟩
            cases hEq
          next hNamed =>
            rcases Finding.result_andThen.1 h with
              ⟨fields, hFields, _⟩
            refine ⟨⟨name, fields⟩, ?_, ?_, ?_⟩
            · rw [if_neg hNamed,
                findRecord_of_findFields hFields,
                Table.insertAll_concat, Table.get?_insert,
                if_pos rfl]
            · rw [keys_findFields hFields, ← hSorted]
              exact (Json.perm_sortMembers members).map Prod.fst
            · rw [keys_findFields hFields, ← hSorted]
              exact Json.precedes_sortMembers hKeys

------------------------------------------------------------
-- Tables
------------------------------------------------------------

/-
  The tables that come about when responses of endpoints are
  inferred one after another and tables are merged.  What an
  inference without a result has put in counts as well.
-/
inductive Reachable : Table → Prop where
  | empty : Reachable .empty
  | respond
      {table : Table}
      (h : Reachable table)
      (m : Schema.Method)
      (path : RawText)
      {value : Json}
      (hValue : value.WellFormed) :
      Reachable
        (inferResponse (Endpoint.funcNameOf m.text path) value
          table).table
  | merge
      {t u : Table}
      (ht : Reachable t)
      (hu : Reachable u) :
      Reachable (t.merge u)

/- The records found in a response are well formed. -/
theorem wellFormed_of_mem_findResponse
    (m : Schema.Method)
    (path : RawText)
    {value : Json}
    (hValue : value.WellFormed) :
    ∀ r ∈
      (findResponse (Endpoint.funcNameOf m.text path)
        value).records,
      r.WellFormed := by
  refine wellFormed_of_mem_find budget _ hValue ?_ ?_
  · exact (Endpoint.isPascal_funcNameOf m path).append
      (List.all_eq_true.1 (by decide))
  · unfold IsOfResponse
    rw [String.toList_append]
    exact (List.suffix_append _ _).isInfix

/- Every record of a reachable table is well formed. -/
theorem Reachable.wellFormed
    {table : Table}
    (h : Reachable table) :
    ∀ r ∈ table.records, r.WellFormed := by
  induction h with
  | empty =>
      intro r hr
      simp [Table.empty] at hr
  | respond _ m path hValue ih =>
      intro r hr
      rw [inferResponse_eq_onto] at hr
      rcases Table.mem_records_insertAll hr with hNew | hOld
      · exact wellFormed_of_mem_findResponse m path hValue r hNew
      · exact ih r hOld
  | merge _ _ ht hu =>
      intro r hr
      rcases Table.mem_records_merge hr with hMerged | hOld
      · exact hu r hMerged
      · exact ht r hOld

/-
  Every record of a reachable table is well formed, and so is
  the record that inference on the table gives for an object: it
  has the keys of the object, each once, in order.
-/
theorem wellFormed_of_reachable
    {table : Table}
    (hTable : Reachable table) :
    (∀ r ∈ table.records, r.WellFormed) ∧
      ∀ budget name members,
        (members.map Prod.fst).Nodup →
          (infer budget name (.object members) table).result =
              some (record name) →
            ∃ r,
              (infer budget name (.object members)
                  table).table.get? name = some r ∧
                (r.fields.map Field.key).Perm
                  (members.map Prod.fst) ∧
                (r.fields.map Field.key).Pairwise
                  RawText.Precedes :=
  ⟨hTable.wellFormed, fun _ _ _ hKeys h =>
    keys_of_infer_object hKeys h⟩

/- Members whose keys ask for one name with a mark. -/
def tagMembers : List (RawText × Json) :=
  [("Model x".toList.map .scalar, .int 1),
    ("model-x".toList.map .scalar, .null)]

/- The table behind a response with these members. -/
def tagTable : Table :=
  (inferResponse (Endpoint.funcNameOf "get" "/tags")
    (.object tagMembers) .empty).table

/- The records of one response, and of an object behind it. -/
theorem wellFormed_of_reachable_tag :
    (∀ r ∈ tagTable.records, r.WellFormed) ∧
      ∃ r,
        (infer 3 "Tag" (.object tagMembers)
            tagTable).table.get? "Tag" = some r ∧
          (r.fields.map Field.key).Perm
            (tagMembers.map Prod.fst) ∧
          (r.fields.map Field.key).Pairwise
            RawText.Precedes := by
  have hKeys : (tagMembers.map Prod.fst).Nodup := by
    decide
  have hValues : ∀ m ∈ tagMembers, m.2.WellFormed := by
    simp only [tagMembers, List.forall_mem_cons]
    exact ⟨.int 1, .null, by simp⟩
  have hTable : Reachable tagTable :=
    .respond .empty .get "/tags" (.object hKeys hValues)
  have hSorted : Json.sortMembers tagMembers = tagMembers :=
    List.mergeSort_of_pairwise (by decide)
  have hResult :
      (infer 3 "Tag" (.object tagMembers) tagTable).result =
        some (record "Tag") := by
    simp only [infer, hSorted]
    rfl
  have hAll := wellFormed_of_reachable hTable
  exact ⟨hAll.1, hAll.2 3 "Tag" tagMembers hKeys hResult⟩

end Shape

end TypedClient
