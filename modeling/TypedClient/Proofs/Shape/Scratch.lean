import TypedClient.Proofs.Shape.Place

/-
  This file says what an inference does to the table that it
  works on.  An inference into an empty table, merged afterwards,
  leaves the same as one that works on the table itself: the
  records of the value replace those of their names, their names
  start with that of the value, and all other records stay.

  Key definitions include:
    * `Shape.Find.Within`
    * `Shape.Framed`

  Key theorems include:
    * `Shape.Table.eq_of_get?`
    * `Shape.Table.insertAll_eq_merge`
    * `Shape.find_add`
    * `Shape.framed_infer`
-/

namespace TypedClient

namespace Shape

------------------------------------------------------------
-- Tables by look-up
------------------------------------------------------------

theorem Sorted.nodup
    {records : List Record}
    (h : Sorted records) : records.Nodup := by
  refine List.Pairwise.imp ?_ h
  rintro a b hLt rfl
  exact String.lt_irrefl a.name hLt

/- Sorted records are told apart by look-up. -/
theorem Sorted.eq_of_getRecord?
    {rs ss : List Record}
    (hrs : Sorted rs)
    (hss : Sorted ss)
    (h : ∀ name, getRecord? name rs = getRecord? name ss) :
    rs = ss := by
  have hMem : ∀ r, r ∈ rs ↔ r ∈ ss := by
    intro r
    constructor
    · intro hr
      have hFound := getRecord?_of_mem hrs hr
      exact (mem_of_getRecord? (h r.name ▸ hFound)).1
    · intro hr
      have hFound := getRecord?_of_mem hss hr
      exact (mem_of_getRecord? (h r.name ▸ hFound)).1
  have hPerm : rs.Perm ss :=
    (List.perm_ext_iff_of_nodup hrs.nodup hss.nodup).2 hMem
  refine hPerm.eq_of_pairwise ?_ hrs hss
  intro a b _ _ hLt hGt
  exact absurd hGt (String.lt_asymm hLt)

namespace Table

/- Tables in which look-up finds the same are one table. -/
theorem eq_of_get?
    {t u : Table}
    (h : ∀ name, t.get? name = u.get? name) : t = u := by
  cases t with
  | mk rs hrs =>
      cases u with
      | mk ss hss =>
          have hSame := hrs.eq_of_getRecord? hss h
          subst hSame
          rfl

/- Look-up looks first at the records that are put in. -/
theorem get?_insertAll
    (t : Table)
    (rs : List Record)
    (name : String) :
    (t.insertAll rs).get? name =
      ((empty.insertAll rs).get? name).or (t.get? name) := by
  induction rs generalizing t with
  | nil => rfl
  | cons r rs ih =>
      rw [insertAll_cons, insertAll_cons, ih (t.insert r),
        ih (empty.insert r), get?_insert, get?_insert,
        Option.or_assoc]
      by_cases hName : r.name = name
      · rw [if_pos hName, if_pos hName, Option.some_or]
      · rw [if_neg hName, if_neg hName]
        rfl

/-
  Records may be put into a table of their own first, which is
  merged then.
-/
theorem insertAll_eq_merge (t : Table) (rs : List Record) :
    t.insertAll rs = t.merge (empty.insertAll rs) :=
  eq_of_get? fun name => by
    rw [get?_insertAll, get?_merge]

end Table

------------------------------------------------------------
-- Budgets
------------------------------------------------------------

/- Whatever one search finds, another one finds as well. -/
def Find.Within (first second : Find) : Prop :=
  ∀ name value shape, (first name value).result = some shape →
    second name value = first name value

section Within

variable {first second : Find}

/- The fields that a search finds are found by a wider one. -/
theorem Find.Within.findFields
    (h : first.Within second)
    {owner : String}
    {names attrs : Name.Registry}
    {members : List (RawText × Json)}
    {fields : List Field}
    (hFound : (findFields first owner names attrs
      members).result = some fields) :
    Shape.findFields second owner names attrs members =
      Shape.findFields first owner names attrs members := by
  induction members generalizing names attrs fields with
  | nil => rfl
  | cons m ms ih =>
      rcases m with ⟨key, value⟩
      simp only [Shape.findFields] at hFound ⊢
      rcases Finding.result_andThen.1 hFound with
        ⟨shape, hShape, hRest⟩
      rcases Finding.result_map.1 hRest with
        ⟨others, hOthers, _⟩
      rw [h _ _ _ hShape]
      simp only [Finding.andThen, hShape, ih hOthers]

/- The shape of an object is found by a wider search. -/
theorem Find.Within.findObject
    (h : first.Within second)
    {name : String}
    {members : List (RawText × Json)}
    {shape : Shape}
    (hFound : (findObject first name members).result =
      some shape) :
    Shape.findObject second name members =
      Shape.findObject first name members := by
  cases members with
  | nil => rfl
  | cons m ms =>
      simp only [Shape.findObject] at hFound ⊢
      split at hFound
      next hNumbered =>
        rcases Finding.result_map.1 hFound with
          ⟨inner, hInner, _⟩
        rw [if_pos hNumbered, if_pos hNumbered, h _ _ _ hInner]
      next hNamed =>
        rw [findRecord] at hFound
        rcases Finding.result_andThen.1 hFound with
          ⟨fields, hFields, _⟩
        rw [if_neg hNamed, if_neg hNamed, findRecord, findRecord,
          h.findFields hFields]

end Within

/- With a larger budget, a search finds what it found before. -/
theorem find_add
    (budget more : Nat) :
    (find budget).Within (find (budget + more)) := by
  induction budget using Nat.strongRecOn with
  | ind budget ih =>
      intro name value shape hFound
      cases budget with
      | zero => cases hFound
      | succ budget =>
          have hMore : budget + 1 + more =
              budget + more + 1 := by
            omega
          rw [hMore]
          cases value with
          | array items =>
              cases items with
              | nil => rfl
              | cons v vs =>
                  rcases Finding.result_map.1 hFound with
                    ⟨inner, hInner, _⟩
                  have hSame := ih budget (Nat.lt_succ_self _)
                    _ v inner hInner
                  simp only [find, hSame]
          | object members =>
              cases budget with
              | zero => cases hFound
              | succ budget =>
                  have hLess : budget + 1 + more =
                      budget + more + 1 := by
                    omega
                  have hWithin := ih budget (by omega)
                  rw [hLess]
                  exact hWithin.findObject hFound
          | _ => rfl

------------------------------------------------------------
-- Inference on a table
------------------------------------------------------------

/-
  What an inference does to the table that it works on, compared
  with an inference on the empty table.

    * `result`: the result is that on the empty table
    * `merged`: the table is the old one, with the table built
      from the empty one merged in
    * `registered`: records are put in one after another, and all
      of them have names that start with that of the value
    * `others`: a record under any other name is as it was
    * `kept`: no name goes away
    * `deeper`: a result, and what it does to any table, is the
      same under every larger budget
-/
structure Framed
    (budget : Nat)
    (name : String)
    (value : Json)
    (table : Table) : Prop where
  result : (infer budget name value table).result =
    (infer budget name value .empty).result
  merged : (infer budget name value table).table =
    table.merge (infer budget name value .empty).table
  registered : ∃ records,
    (infer budget name value table).table =
        table.insertAll records ∧
      (infer budget name value .empty).table =
        Table.empty.insertAll records ∧
      ∀ r ∈ records, name.toList <+: r.name.toList
  others : ∀ n : String, ¬ name.toList <+: n.toList →
    (infer budget name value table).table.get? n =
      table.get? n
  kept : ∀ n ∈ table.names,
    n ∈ (infer budget name value table).table.names
  deeper : ∀ shape,
    (infer budget name value table).result = some shape →
      ∀ (more : Nat) (other : Table),
        infer (budget + more) name value other =
          infer budget name value other

/- Inference leaves alone what is not below its own name. -/
theorem framed_infer
    (budget : Nat)
    (name : String)
    (value : Json)
    (table : Table) : Framed budget name value table := by
  let found := find budget name value
  have hInfer (t : Table) : infer budget name value t =
      found.onto t :=
    infer_eq_onto budget name value t
  have hNames : ∀ r ∈ found.records,
      name.toList <+: r.name.toList :=
    fun r hr => prefix_name_of_mem_find hr
  constructor
  case result => rw [hInfer, hInfer]; rfl
  case merged =>
    rw [hInfer, hInfer]
    exact Table.insertAll_eq_merge table found.records
  case registered =>
    refine ⟨found.records, ?_, ?_, hNames⟩
    · rw [hInfer]; rfl
    · rw [hInfer]; rfl
  case others =>
    intro n hOther
    rw [hInfer]
    apply Table.get?_insertAll_of_not_mem
    intro hMem
    rcases List.mem_map.1 hMem with ⟨r, hr, rfl⟩
    exact hOther (hNames r hr)
  case kept =>
    intro n hn
    rw [hInfer]
    exact Table.mem_names_insertAll.2 (Or.inr hn)
  case deeper =>
    intro shape hResult more other
    rw [hInfer] at hResult
    have hSame := find_add budget more name value shape hResult
    rw [infer_eq_onto, infer_eq_onto, hSame]

end Shape

end TypedClient
