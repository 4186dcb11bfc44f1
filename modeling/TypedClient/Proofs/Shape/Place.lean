import Mathlib.Data.List.Nodup
import TypedClient.Proofs.Json.WellFormed
import TypedClient.Proofs.Shape.Fields
import TypedClient.Proofs.Shape.Record

/-
  This file follows inference through a value.  A place is a path
  of steps into the value: to the first item of an array, to the
  first entry of a mapping, or to a member of an object.  Each
  place that is visited has a name, and every record that is found
  is that of an object at some place, under its name.

  Key definitions include:
    * `Shape.IsMapping`
    * `Shape.IsRecordObject`
    * `Shape.Visits`
    * `Shape.DistinctNames`
    * `Shape.Finding.Placed`

  Key theorems include:
    * `Shape.isNumbered_sortMembers`
    * `Shape.prefix_records_findFields`
    * `Shape.placed_find`
    * `Shape.prefix_name_of_mem_find`
-/

namespace TypedClient

namespace Shape

------------------------------------------------------------
-- Objects
------------------------------------------------------------

/- A key that consists of decimal digits; it may be empty. -/
def IsDigits (key : RawText) : Prop :=
  ∀ p ∈ key, ∃ c, p = .scalar c ∧ '0' ≤ c ∧ c ≤ '9'

/- Members that are the entries of a table of numbered items. -/
def IsMapping (members : List (RawText × Json)) : Prop :=
  2 ≤ members.length ∧ ∀ m ∈ members, IsDigits m.1

/- The member of an object whose key comes first. -/
def IsFirst
    (m : RawText × Json)
    (members : List (RawText × Json)) : Prop :=
  m ∈ members ∧
    ∀ n ∈ members, m.1 = n.1 ∨ RawText.Precedes m.1 n.1

/- An object that is neither empty nor a mapping. -/
def IsRecordObject : Json → Prop
  | .object members => members ≠ [] ∧ ¬ IsMapping members
  | _ => False

/- A key is numeric if it consists of digits. -/
theorem isNumericKey_iff (key : RawText) :
    isNumericKey key = true ↔ IsDigits key := by
  rw [isNumericKey, List.all_eq_true]
  refine forall_congr' fun p => forall_congr' fun _ => ?_
  cases p with
  | surrogate k => simp [CodePoint.toChar?]
  | scalar c =>
      have hDigit : c.isDigit = true ↔ '0' ≤ c ∧ c ≤ '9' := by
        simp [Char.isDigit, Char.le_def]
      simp [CodePoint.toChar?, hDigit]

/- Sorted members are numbered if the members are a mapping. -/
theorem isNumbered_sortMembers
    (members : List (RawText × Json)) :
    isNumbered (Json.sortMembers members) = true ↔
      IsMapping members := by
  have hPerm := Json.perm_sortMembers members
  have hKeys :
      (∀ m ∈ Json.sortMembers members,
          isNumericKey m.1 = true) ↔
        ∀ m ∈ members, IsDigits m.1 :=
    forall_congr' fun m =>
      imp_congr hPerm.mem_iff (isNumericKey_iff m.1)
  rw [isNumbered, Bool.and_eq_true, List.all_eq_true,
    decide_eq_true_eq, hPerm.length_eq]
  exact and_congr_right' hKeys

/- The first of sorted members has the first key. -/
theorem isFirst_of_sortMembers
    {members ms : List (RawText × Json)}
    {m : RawText × Json}
    (h : Json.sortMembers members = m :: ms) :
    IsFirst m members := by
  have hPerm := Json.perm_sortMembers members
  have hSorted := Json.pairwise_sortMembers members
  rw [h] at hPerm hSorted
  refine ⟨hPerm.mem_iff.1 List.mem_cons_self, fun n hn => ?_⟩
  rcases List.mem_cons.1 (hPerm.mem_iff.2 hn) with rfl | hn
  · exact Or.inl rfl
  · have hLe := (List.pairwise_cons.1 hSorted).1 n hn
    by_cases hEq : m.1 = n.1
    · exact Or.inl hEq
    · exact Or.inr (RawText.precedes_of_ble hLe hEq)

------------------------------------------------------------
-- Places
------------------------------------------------------------

/- A step into a value. -/
inductive Step where
  | item
  | entry
  | member (key : RawText)
deriving DecidableEq, Repr

/- Members with the names that are given out for their keys. -/
def namedFrom
    (names : Name.Registry)
    (members : List (RawText × Json)) :
    List (String × RawText × Json) :=
  (names.claimAll (members.map fun m => fieldName m.1)).1.zip
    members

/- The members of an object, in order, with the names of fields. -/
def namedMembers
    (members : List (RawText × Json)) :
    List (String × RawText × Json) :=
  namedFrom .empty (Json.sortMembers members)

/-
  The inference of a value below a name visits a value at a place
  below another name.
-/
inductive Visits :
    String → Json → List Step → String → Json → Prop where
  | here (name : String) (value : Json) :
      Visits name value [] name value
  | item
      {name other : String}
      {v w : Json}
      {vs : List Json}
      {place : List Step}
      (h : Visits (name ++ itemSuffix) v place other w) :
      Visits name (.array (v :: vs)) (.item :: place) other w
  | entry
      {name other : String}
      {members : List (RawText × Json)}
      {m : RawText × Json}
      {w : Json}
      {place : List Step}
      (hMapping : IsMapping members)
      (hFirst : IsFirst m members)
      (h : Visits (name ++ itemSuffix) m.2 place other w) :
      Visits name (.object members) (.entry :: place) other w
  | member
      {name field other : String}
      {members : List (RawText × Json)}
      {m : RawText × Json}
      {w : Json}
      {place : List Step}
      (hRecord : ¬ IsMapping members)
      (hMember : (field, m) ∈ namedMembers members)
      (h : Visits (name ++ field) m.2 place other w) :
      Visits name (.object members) (.member m.1 :: place)
        other w

/- No two objects with records are visited below one name. -/
def DistinctNames (name : String) (value : Json) : Prop :=
  ∀ place other n v w,
    Visits name value place n v → IsRecordObject v →
      Visits name value other n w → IsRecordObject w →
        place = other

/- The name of a place starts with that of the value. -/
theorem Visits.prefix_name
    {name other : String}
    {value w : Json}
    {place : List Step}
    (h : Visits name value place other w) :
    name.toList <+: other.toList := by
  have hAppend : ∀ {short more long : String},
      (short ++ more).toList <+: long.toList →
        short.toList <+: long.toList := by
    intro short more long hLong
    rw [String.toList_append] at hLong
    exact (List.prefix_append _ _).trans hLong
  induction h with
  | here name value => exact List.prefix_rfl
  | item _ ih => exact hAppend ih
  | entry _ _ _ ih => exact hAppend ih
  | member _ _ _ ih => exact hAppend ih

------------------------------------------------------------
-- Named members
------------------------------------------------------------

theorem map_snd_namedFrom
    (names : Name.Registry)
    (members : List (RawText × Json)) :
    (namedFrom names members).map Prod.snd = members := by
  apply List.map_snd_zip
  simp [Name.Registry.length_claimAll]

theorem mem_of_mem_namedMembers
    {members : List (RawText × Json)}
    {x : String × RawText × Json}
    (h : x ∈ namedMembers members) : x.2 ∈ members := by
  have hSorted : x.2 ∈ Json.sortMembers members := by
    rw [← map_snd_namedFrom .empty (Json.sortMembers members)]
    exact List.mem_map_of_mem h
  exact (Json.perm_sortMembers members).mem_iff.1 hSorted

/- The keys of the named members of an object differ. -/
theorem pairwise_namedMembers
    {members : List (RawText × Json)}
    (h : (members.map Prod.fst).Nodup) :
    (namedMembers members).Pairwise fun x y =>
      x.2.1 ≠ y.2.1 := by
  have hSorted : ((Json.sortMembers members).map Prod.fst).Nodup :=
    ((Json.perm_sortMembers members).map Prod.fst).nodup_iff.2 h
  rw [← map_snd_namedFrom .empty (Json.sortMembers members),
    List.map_map] at hSorted
  exact List.pairwise_map.1 hSorted

/- The records of fields are found below the named members. -/
theorem prefix_records_findFields
    (find : Find)
    (owner : String)
    (names attrs : Name.Registry)
    (members : List (RawText × Json)) :
    (findFields find owner names attrs members).records <+:
      (namedFrom names members).flatMap fun x =>
        (find (owner ++ x.1) x.2.2).records := by
  induction members generalizing names attrs with
  | nil => exact List.prefix_rfl
  | cons m ms ih =>
      rcases m with ⟨key, value⟩
      simp only [findFields, Finding.andThen, namedFrom,
        List.map_cons, Name.Registry.claimAll, List.zip_cons_cons,
        List.flatMap_cons]
      split
      · exact List.prefix_append _ _
      · exact (List.prefix_append_right_inj _).2 (ih _ _)

------------------------------------------------------------
-- Records
------------------------------------------------------------

/- A record is found for an object at a place below its name. -/
def IsVisited
    (name : String)
    (value : Json)
    (r : Record) : Prop :=
  ∃ place w, Visits name value place r.name w ∧ IsRecordObject w

/- The objects that get records are those that are not numbered. -/
theorem isRecordObject_of_sortMembers
    {members ms : List (RawText × Json)}
    {m : RawText × Json}
    (hSorted : Json.sortMembers members = m :: ms)
    (hNamed : isNumbered (m :: ms) = false) :
    IsRecordObject (.object members) := by
  refine ⟨?_, fun hMapping => ?_⟩
  · rintro rfl
    have hMem := mem_of_sortMembers_eq_cons hSorted m
    simp at hMem
  · have hNumbered := (isNumbered_sortMembers members).2 hMapping
    rw [hSorted, hNamed] at hNumbered
    cases hNumbered

/- The records below the fields of an object lie below it. -/
theorem isVisited_of_mem_findFields
    {find : Find}
    {name : String}
    {members : List (RawText × Json)}
    {r : Record}
    (hObject : IsRecordObject (.object members))
    (hFind : ∀ name value, ∀ r ∈ (find name value).records,
      IsVisited name value r)
    (hr : r ∈ (findFields find name .empty .empty
      (Json.sortMembers members)).records) :
    ∃ x ∈ namedMembers members, ∃ place w,
      Visits name (.object members) (.member x.2.1 :: place)
          r.name w ∧
        IsRecordObject w := by
  have hPrefix := prefix_records_findFields find name .empty
    .empty (Json.sortMembers members)
  rcases List.mem_flatMap.1 (hPrefix.subset hr) with
    ⟨x, hx, hFound⟩
  rcases hFind _ _ r hFound with ⟨place, w, hVisits, hw⟩
  exact ⟨x, hx, place, w, .member hObject.2 hx hVisits, hw⟩

------------------------------------------------------------
-- Distinct names
------------------------------------------------------------

namespace DistinctNames

variable {name : String}

/- Distinct names are distinct behind a step. -/
theorem below
    {value inner : Json}
    {longer : String}
    {step : Step}
    (h : DistinctNames name value)
    (hStep : ∀ {place n w},
      Visits longer inner place n w →
        Visits name value (step :: place) n w) :
    DistinctNames longer inner := by
  intro place other n v w hv hRecord hw hOther
  have hEq := h _ _ n v w (hStep hv) hRecord (hStep hw) hOther
  exact (List.cons.inj hEq).2

/- Distinct names are distinct in the first item of an array. -/
theorem item
    {v : Json}
    {vs : List Json}
    (h : DistinctNames name (.array (v :: vs))) :
    DistinctNames (name ++ itemSuffix) v :=
  h.below .item

/- Distinct names are distinct in the first entry of a mapping. -/
theorem entry
    {members : List (RawText × Json)}
    {m : RawText × Json}
    (h : DistinctNames name (.object members))
    (hMapping : IsMapping members)
    (hFirst : IsFirst m members) :
    DistinctNames (name ++ itemSuffix) m.2 :=
  h.below (.entry hMapping hFirst)

/- Distinct names are distinct in the members of an object. -/
theorem member
    {members : List (RawText × Json)}
    {x : String × RawText × Json}
    (h : DistinctNames name (.object members))
    (hRecord : ¬ IsMapping members)
    (hx : x ∈ namedMembers members) :
    DistinctNames (name ++ x.1) x.2.2 :=
  h.below (.member hRecord hx)

end DistinctNames

/-
  The records below the fields of an object have distinct names:
  those below one member by assumption, and those below two
  members because the places of their objects differ.
-/
theorem nodup_names_findFields_of_distinct
    {find : Find}
    {name : String}
    {members : List (RawText × Json)}
    (hObject : IsRecordObject (.object members))
    (hKeys : (members.map Prod.fst).Nodup)
    (hNames : DistinctNames name (.object members))
    (hVisited : ∀ name value, ∀ r ∈ (find name value).records,
      IsVisited name value r)
    (hBelow : ∀ x ∈ namedMembers members,
      ((find (name ++ x.1) x.2.2).records.map
        Record.name).Nodup) :
    ((findFields find name .empty .empty
      (Json.sortMembers members)).records.map
        Record.name).Nodup := by
  have hPrefix := (prefix_records_findFields find name .empty
    .empty (Json.sortMembers members)).map Record.name
  refine List.Nodup.sublist hPrefix.sublist ?_
  rw [List.map_flatMap, List.nodup_flatMap]
  refine ⟨hBelow, ?_⟩
  refine (pairwise_namedMembers hKeys).imp_of_mem ?_
  intro x y hx hy hNe n hFirst hSecond
  rcases List.mem_map.1 hFirst with ⟨r, hr, rfl⟩
  rcases List.mem_map.1 hSecond with ⟨s, hs, hEq⟩
  rcases hVisited _ _ r hr with ⟨p, v, hp, hv⟩
  rcases hVisited _ _ s hs with ⟨q, w, hq, hw⟩
  rw [hEq] at hq
  have hPlace := hNames _ _ r.name v w
    (.member hObject.2 hx hp) hv (.member hObject.2 hy hq) hw
  exact hNe (Step.member.inj (List.cons.inj hPlace).1)

------------------------------------------------------------
-- Findings
------------------------------------------------------------

/-
  A finding in a value whose records are those of objects at
  places in it; if these have distinct names, so have the records.
-/
structure Finding.Placed
    (name : String)
    (value : Json)
    (found : Finding Shape) : Prop where
  visited : ∀ r ∈ found.records, IsVisited name value r
  nodup : value.WellFormed → DistinctNames name value →
    (found.records.map Record.name).Nodup

theorem Finding.Placed.plain
    (name : String)
    (value : Json)
    (result : Option Shape) :
    Finding.Placed name value (.plain result) := by
  refine ⟨fun r hr => ?_, fun _ _ => List.nodup_nil⟩
  cases hr

/- What is found in an object that gets a record is placed. -/
theorem Finding.Placed.record
    {find : Find}
    {name : String}
    {members : List (RawText × Json)}
    (hObject : IsRecordObject (.object members))
    (hFind : ∀ name value,
      Finding.Placed name value (find name value)) :
    Finding.Placed name (.object members)
      (findRecord find name (Json.sortMembers members)) := by
  have hVisited : ∀ name value,
      ∀ r ∈ (find name value).records, IsVisited name value r :=
    fun name value => (hFind name value).visited
  refine ⟨fun r hr => ?_, fun hValue hNames => ?_⟩
  · rcases mem_records_findRecord hr with
      hBelow | ⟨fields, _, rfl⟩
    · rcases isVisited_of_mem_findFields hObject hVisited hBelow
        with ⟨_, _, _, w, hVisits, hw⟩
      exact ⟨_, w, hVisits, hw⟩
    · exact ⟨[], _, .here _ _, hObject⟩
  · cases hValue with
    | object hKeys hValues =>
        have hFields := nodup_names_findFields_of_distinct
          hObject hKeys hNames hVisited fun x hx =>
            (hFind _ _).nodup
              (hValues x.2 (mem_of_mem_namedMembers hx))
              (hNames.member hObject.2 hx)
        cases hResult : (findFields find name .empty .empty
            (Json.sortMembers members)).result with
        | none =>
            simpa only [findRecord, Finding.andThen, hResult]
              using hFields
        | some fields =>
            rw [findRecord_of_findFields hResult, List.map_append,
              List.map_singleton]
            refine List.nodup_append.2
              ⟨hFields, List.nodup_singleton _, ?_⟩
            intro n hn other hOther hEq
            rw [List.mem_singleton.1 hOther] at hEq
            rcases List.mem_map.1 hn with ⟨r, hr, hName⟩
            rcases isVisited_of_mem_findFields hObject hVisited hr
              with ⟨x, _, place, w, hVisits, hw⟩
            rw [hName, hEq] at hVisits
            have hPlace := hNames _ _ _ _ _ hVisits hw
              (.here _ _) hObject
            cases hPlace

/- What is found in a value is placed. -/
theorem placed_find
    (budget : Nat)
    (name : String)
    (value : Json) :
    Finding.Placed name value (find budget name value) := by
  refine find_induction
    (P := fun name value found => Finding.Placed name value found)
    ?tooDeep ?leaf ?array ?numbered ?object budget name value
  case tooDeep => exact fun name value => .plain name value none
  case leaf =>
    exact fun name value shape _ => .plain name value (some shape)
  case array =>
    intro name v vs found ih
    refine ⟨fun r hr => ?_, fun hValue hNames => ?_⟩
    · rcases ih.visited r hr with ⟨place, w, hVisits, hw⟩
      exact ⟨_, w, .item hVisits, hw⟩
    · cases hValue with
      | array hItems =>
          exact ih.nodup (hItems v List.mem_cons_self)
            hNames.item
  case numbered =>
    intro name members m ms found hSorted hNumbered ih
    have hFirst := isFirst_of_sortMembers hSorted
    rw [← hSorted, isNumbered_sortMembers] at hNumbered
    refine ⟨fun r hr => ?_, fun hValue hNames => ?_⟩
    · rcases ih.visited r hr with ⟨place, w, hVisits, hw⟩
      exact ⟨_, w, .entry hNumbered hFirst hVisits, hw⟩
    · cases hValue with
      | object hKeys hValues =>
          exact ih.nodup (hValues m hFirst.1)
            (hNames.entry hNumbered hFirst)
  case object =>
    intro name members m ms find hSorted hNamed hFind
    rw [← hSorted]
    exact .record (isRecordObject_of_sortMembers hSorted hNamed)
      hFind

/- The records of a value have names that start with its own. -/
theorem prefix_name_of_mem_find
    {budget : Nat}
    {name : String}
    {value : Json}
    {r : Record}
    (h : r ∈ (find budget name value).records) :
    name.toList <+: r.name.toList := by
  rcases (placed_find budget name value).visited r h with
    ⟨place, w, hVisits, _⟩
  exact hVisits.prefix_name

end Shape

end TypedClient
