import TypedClient.Proofs.Name.Form
import TypedClient.Proofs.Name.Registry
import TypedClient.Proofs.Shape.Finding

/-
  This file describes the fields that a search gives for the
  members of an object: which member each of them is for, which
  names they get, and where the records below them come from.

  Key definitions include:
    * `Shape.IsFieldOf`

  Key theorems include:
    * `Shape.keys_findFields`
    * `Shape.nodup_names_findFields`
    * `Shape.nodup_attrs_findFields`
    * `Shape.mem_records_findFields`
    * `Shape.exists_member_findFields`
-/

namespace TypedClient

namespace Shape

------------------------------------------------------------
-- Fields
------------------------------------------------------------

/-
  A field for a member of an object: its name is given out for
  the key, its attribute for the name, and the search below the
  name gives its shape.
-/
structure IsFieldOf
    (find : Find)
    (owner : String)
    (member : RawText × Json)
    (field : Field) : Prop where
  key : field.key = member.1
  name : Name.IsGivenFor (fieldName member.1) field.name
  attr : Name.IsGivenFor (Name.ofField field.name) field.attr
  shape :
    (find (owner ++ field.name) member.2).result =
      some field.shape

variable {find : Find}
variable {owner : String}
variable {names attrs : Name.Registry}
variable {members : List (RawText × Json)}
variable {fields : List Field}

/- The fields behind a first member, and the first field. -/
theorem findFields_cons_eq_some
    {key : RawText}
    {value : Json}
    (h : (findFields find owner names attrs
      ((key, value) :: members)).result = some fields) :
    ∃ field others,
      fields = field :: others ∧
        field.name = (names.claim (fieldName key)).1 ∧
        field.attr =
          (attrs.claim (Name.ofField field.name)).1 ∧
        IsFieldOf find owner (key, value) field ∧
        (findFields find owner
          (names.claim (fieldName key)).2
          (attrs.claim (Name.ofField field.name)).2
          members).result = some others := by
  simp only [findFields] at h
  rcases Finding.result_andThen.1 h with ⟨shape, hShape, hRest⟩
  rcases Finding.result_map.1 hRest with ⟨others, hOthers, hEq⟩
  refine ⟨_, others, hEq.symm, rfl, rfl, ?_, hOthers⟩
  exact
    { key := rfl
      name := names.isGivenFor_claim _
      attr := attrs.isGivenFor_claim _
      shape := hShape }

/- The keys of fields are those of the members, in order. -/
theorem keys_findFields
    (h : (findFields find owner names attrs members).result =
      some fields) :
    fields.map Field.key = members.map Prod.fst := by
  induction members generalizing names attrs fields with
  | nil =>
      cases h
      rfl
  | cons m ms ih =>
      rcases findFields_cons_eq_some h with
        ⟨field, others, rfl, _, _, hField, hOthers⟩
      rw [List.map_cons, List.map_cons, hField.key,
        ih hOthers]

/- The names of fields are claimed in a row. -/
theorem names_findFields
    (h : (findFields find owner names attrs members).result =
      some fields) :
    fields.map Field.name =
      (names.claimAll (members.map fun m => fieldName m.1)).1 := by
  induction members generalizing names attrs fields with
  | nil =>
      cases h
      rfl
  | cons m ms ih =>
      rcases findFields_cons_eq_some h with
        ⟨field, others, rfl, hName, _, _, hOthers⟩
      rw [List.map_cons, ih hOthers, hName]
      rfl

/- The attributes of fields are claimed in a row. -/
theorem attrs_findFields
    (h : (findFields find owner names attrs members).result =
      some fields) :
    fields.map Field.attr =
      (attrs.claimAll
        ((fields.map Field.name).map Name.ofField)).1 := by
  induction members generalizing names attrs fields with
  | nil =>
      cases h
      rfl
  | cons m ms ih =>
      rcases findFields_cons_eq_some h with
        ⟨field, others, rfl, _, hAttr, _, hOthers⟩
      rw [List.map_cons, ih hOthers, hAttr]
      rfl

/- No two fields have the same name. -/
theorem nodup_names_findFields
    (h : (findFields find owner names attrs members).result =
      some fields) : (fields.map Field.name).Nodup := by
  rw [names_findFields h]
  exact names.nodup_claimAll _

/- No two fields have the same attribute. -/
theorem nodup_attrs_findFields
    (h : (findFields find owner names attrs members).result =
      some fields) : (fields.map Field.attr).Nodup := by
  rw [attrs_findFields h]
  exact attrs.nodup_claimAll _

------------------------------------------------------------
-- Records below fields
------------------------------------------------------------

/- Every record comes from the search below some member. -/
theorem mem_records_findFields
    {r : Record}
    (h : r ∈
      (findFields find owner names attrs members).records) :
    ∃ m ∈ members, ∃ name,
      Name.IsGivenFor (fieldName m.1) name ∧
        r ∈ (find (owner ++ name) m.2).records := by
  induction members generalizing names attrs with
  | nil => simp [findFields, Finding.plain] at h
  | cons m ms ih =>
      simp only [findFields] at h
      rcases Finding.mem_records_andThen.1 h with
        hFirst | ⟨shape, _, hOthers⟩
      · exact ⟨m, List.mem_cons_self, _,
          names.isGivenFor_claim _, hFirst⟩
      · rcases ih hOthers with ⟨n, hMem, hFound⟩
        exact ⟨n, List.mem_cons_of_mem m hMem, hFound⟩

/- Each field is for a member; the records below it are there. -/
theorem exists_member_findFields
    (h : (findFields find owner names attrs members).result =
      some fields)
    {field : Field}
    (hField : field ∈ fields) :
    ∃ m ∈ members, IsFieldOf find owner m field ∧
      (find (owner ++ field.name) m.2).records ⊆
        (findFields find owner names attrs members).records := by
  induction members generalizing names attrs fields with
  | nil =>
      cases h
      simp at hField
  | cons m ms ih =>
      rcases findFields_cons_eq_some h with
        ⟨first, others, rfl, hName, hAttr, hFirst, hOthers⟩
      simp only [findFields]
      rcases List.mem_cons.1 hField with rfl | hField
      · refine ⟨m, List.mem_cons_self, hFirst, fun r hr => ?_⟩
        rw [hName] at hr
        exact Finding.mem_records_andThen.2 (Or.inl hr)
      · rcases ih hOthers hField with
          ⟨n, hMem, hIsField, hRecords⟩
        refine ⟨n, List.mem_cons_of_mem m hMem, hIsField,
          fun r hr => ?_⟩
        apply Finding.mem_records_andThen.2
        right
        have hShape := hFirst.shape
        rw [hName] at hShape
        refine ⟨first.shape, hShape, ?_⟩
        rw [hName] at hRecords
        exact hRecords hr

end Shape

end TypedClient
