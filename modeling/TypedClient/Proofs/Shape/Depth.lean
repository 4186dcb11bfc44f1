import TypedClient.Proofs.Shape.Place

/-
  This file says which values inference gives up on: those that
  are nested deeper than its budget.  Only the places that are
  visited count, and neither the name nor the table does.

  Key definitions include:
    * `Shape.Exceeds`

  Key theorems include:
    * `Shape.result_findFields_eq_none_iff`
    * `Shape.result_find_eq_none_iff`
    * `Shape.result_inferResponse_eq_none_iff`
-/

namespace TypedClient

namespace Shape

------------------------------------------------------------
-- Depth
------------------------------------------------------------

/-
  A value that is nested deeper than a limit.  A value is one
  level, and an object two; below them lie the first item of an
  array, the first entry of a mapping, and all members of any
  other object.
-/
inductive Exceeds : Nat → Json → Prop where
  | here (value : Json) : Exceeds 0 value
  | object (members : List (RawText × Json)) :
      Exceeds 1 (.object members)
  | item
      {limit : Nat}
      {v : Json}
      {vs : List Json}
      (h : Exceeds limit v) :
      Exceeds (limit + 1) (.array (v :: vs))
  | entry
      {limit : Nat}
      {members : List (RawText × Json)}
      {m : RawText × Json}
      (hMapping : IsMapping members)
      (hFirst : IsFirst m members)
      (h : Exceeds limit m.2) :
      Exceeds (limit + 2) (.object members)
  | member
      {limit : Nat}
      {members : List (RawText × Json)}
      {m : RawText × Json}
      (hRecord : ¬ IsMapping members)
      (hMember : m ∈ members)
      (h : Exceeds limit m.2) :
      Exceeds (limit + 2) (.object members)

/- An array is as deep as its first item, and one level more. -/
theorem exceeds_array_iff
    {limit : Nat}
    {v : Json}
    {vs : List Json} :
    Exceeds (limit + 1) (.array (v :: vs)) ↔ Exceeds limit v := by
  constructor
  · intro h
    cases h with
    | item h => exact h
  · exact .item

theorem not_exceeds_nil (limit : Nat) :
    ¬ Exceeds (limit + 2) (.object []) := by
  intro h
  cases h with
  | entry hMapping _ _ => exact absurd hMapping.1 (by decide)
  | member _ hMember _ => cases hMember

/- Of members with distinct keys, only one comes first. -/
theorem IsFirst.unique
    {members : List (RawText × Json)}
    {m n : RawText × Json}
    (hKeys : (members.map Prod.fst).Nodup)
    (hm : IsFirst m members)
    (hn : IsFirst n members) : m = n := by
  refine List.inj_on_of_nodup_map hKeys hm.1 hn.1 ?_
  rcases hm.2 n hn.1 with hEq | hLt
  · exact hEq
  · rcases hn.2 m hm.1 with hEq | hGt
    · exact hEq.symm
    · exact absurd hGt (List.lt_asymm hLt)

/- The first of sorted members is as deep as the first entry. -/
theorem exceeds_mapping_iff
    {limit : Nat}
    {members ms : List (RawText × Json)}
    {m : RawText × Json}
    (hKeys : (members.map Prod.fst).Nodup)
    (hMapping : IsMapping members)
    (hSorted : Json.sortMembers members = m :: ms) :
    Exceeds (limit + 2) (.object members) ↔ Exceeds limit m.2 := by
  have hFirst := isFirst_of_sortMembers hSorted
  constructor
  · intro h
    cases h with
    | entry _ hOther h => exact hFirst.unique hKeys hOther ▸ h
    | member hRecord _ _ => exact absurd hMapping hRecord
  · exact .entry hMapping hFirst

/- An object with a record is as deep as its deepest member. -/
theorem exceeds_record_iff
    {limit : Nat}
    {members : List (RawText × Json)}
    (hRecord : ¬ IsMapping members) :
    Exceeds (limit + 2) (.object members) ↔
      ∃ m ∈ members, Exceeds limit m.2 := by
  constructor
  · intro h
    cases h with
    | entry hMapping _ _ => exact absurd hMapping hRecord
    | member _ hMember h => exact ⟨_, hMember, h⟩
  · rintro ⟨m, hMember, h⟩
    exact .member hRecord hMember h

------------------------------------------------------------
-- Searches without a result
------------------------------------------------------------

/- Fields are missing if the value of some member has no shape. -/
theorem result_findFields_eq_none_iff
    {find : Find}
    {limit : Nat}
    {members : List (RawText × Json)}
    (hFind : ∀ m ∈ members, ∀ name,
      (find name m.2).result = none ↔ Exceeds limit m.2)
    (owner : String)
    (names attrs : Name.Registry) :
    (findFields find owner names attrs members).result = none ↔
      ∃ m ∈ members, Exceeds limit m.2 := by
  induction members generalizing names attrs with
  | nil => simp [findFields, Finding.plain]
  | cons m ms ih =>
      rcases m with ⟨key, value⟩
      have hFirst := hFind _ List.mem_cons_self
        (owner ++ (names.claim (fieldName key)).1)
      have hOthers := ih fun n hn =>
        hFind n (List.mem_cons_of_mem _ hn)
      rw [findFields, Finding.andThen, List.exists_mem_cons_iff,
        ← hFirst]
      split
      next hNone => simp [hNone]
      next shape hSome =>
        simp only [hSome, Finding.map, Option.map_eq_none_iff,
          hOthers, reduceCtorEq, false_or]

/- A record is missing if its fields are. -/
theorem result_findRecord_eq_none_iff
    (find : Find)
    (name : String)
    (members : List (RawText × Json)) :
    (findRecord find name members).result = none ↔
      (findFields find name .empty .empty members).result =
        none := by
  rw [findRecord, Finding.andThen]
  split
  next hNone => simp [hNone]
  next fields hSome => simp [hSome]

/- An object has no shape if it is nested too deeply. -/
theorem result_findObject_eq_none_iff
    {find : Find}
    {limit : Nat}
    {members : List (RawText × Json)}
    (hKeys : (members.map Prod.fst).Nodup)
    (hFind : ∀ m ∈ members, ∀ name,
      (find name m.2).result = none ↔ Exceeds limit m.2)
    (name : String) :
    (findObject find name (Json.sortMembers members)).result =
        none ↔
      Exceeds (limit + 2) (.object members) := by
  have hMem : ∀ m, m ∈ Json.sortMembers members ↔ m ∈ members :=
    fun _ => (Json.perm_sortMembers members).mem_iff
  cases hSorted : Json.sortMembers members with
  | nil =>
      have hPerm := Json.perm_sortMembers members
      rw [hSorted] at hPerm
      rw [hPerm.symm.eq_nil]
      simp [findObject, Finding.plain, not_exceeds_nil]
  | cons m ms =>
      have hNumbered := isNumbered_sortMembers members
      rw [hSorted] at hNumbered hMem
      rw [findObject]
      split
      next hYes =>
        rw [exceeds_mapping_iff hKeys (hNumbered.1 hYes) hSorted,
          ← hFind m ((hMem m).1 List.mem_cons_self)
            (name ++ itemSuffix)]
        exact Option.map_eq_none_iff
      next hNo =>
        have hSome := result_findFields_eq_none_iff
          (fun n hn => hFind n ((hMem n).1 hn)) name .empty .empty
        rw [exceeds_record_iff fun h => hNo (hNumbered.2 h),
          result_findRecord_eq_none_iff, hSome]
        simp only [hMem]

/- A value has no shape if it is nested deeper than the budget. -/
theorem result_find_eq_none_iff
    (budget : Nat)
    (name : String)
    {value : Json}
    (h : value.WellFormed) :
    (find budget name value).result = none ↔
      Exceeds budget value := by
  induction budget using Nat.strongRecOn generalizing name value
    with
  | ind budget ih =>
      cases budget with
      | zero => exact iff_of_true rfl (.here value)
      | succ budget =>
          cases h with
          | @array items hItems =>
              cases items with
              | nil => exact iff_of_false nofun nofun
              | cons v vs =>
                  rw [exceeds_array_iff,
                    ← ih budget (Nat.lt_succ_self _)
                      (name ++ itemSuffix)
                      (hItems v List.mem_cons_self)]
                  exact Option.map_eq_none_iff
          | @object members hKeys hValues =>
              cases budget with
              | zero => exact iff_of_true rfl (.object members)
              | succ budget =>
                  exact result_findObject_eq_none_iff hKeys
                    (fun m hm other =>
                      ih budget (by omega) other (hValues m hm))
                    name
          | _ => exact iff_of_false nofun nofun

/-
  The response of an endpoint has no shape if and only if it is
  nested deeper than the budget of every inference, whatever the
  endpoint is called and whatever the table has.
-/
theorem result_inferResponse_eq_none_iff
    {value : Json}
    (h : value.WellFormed)
    (funcName : String)
    (table : Table) :
    (inferResponse funcName value table).result = none ↔
      Exceeds budget value := by
  rw [inferResponse_eq_onto]
  exact result_find_eq_none_iff budget _ h

end Shape

end TypedClient
