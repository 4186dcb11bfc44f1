import TypedClient.Shape.Table

/-
  This file describes tables of records by what look-up sees of
  them.  A table holds the records that look-up finds under their
  own names, and a merge looks first at the table merged in.

  Key definitions include:
    * `Shape.Table.names`
    * `Shape.Table.insertAll`
    * `Shape.Table.mergeAll`
    * `Shape.Table.latest?`

  Key theorems include:
    * `Shape.Table.mem_records_iff`
    * `Shape.Table.mem_names_insertAll`
    * `Shape.Table.get?_merge`
    * `Shape.Table.get?_mergeAll`
-/

namespace TypedClient

namespace Shape

------------------------------------------------------------
-- Look-up in sorted records
------------------------------------------------------------

/- A record that look-up finds is there under its name. -/
theorem mem_of_getRecord?
    {records : List Record}
    {name : String}
    {r : Record}
    (h : getRecord? name records = some r) :
    r ∈ records ∧ r.name = name := by
  induction records with
  | nil => simp [getRecord?] at h
  | cons s ss ih =>
      rw [getRecord?] at h
      split at h
      next hName =>
        cases h
        exact ⟨List.mem_cons_self, hName⟩
      next hOther =>
        exact (ih h).imp_left (List.mem_cons_of_mem s)

/- Look-up finds nothing under a name that no record has. -/
theorem getRecord?_eq_none
    {records : List Record}
    {name : String}
    (h : ∀ r ∈ records, r.name ≠ name) :
    getRecord? name records = none := by
  induction records with
  | nil => rfl
  | cons s ss ih =>
      rw [getRecord?, if_neg (h s List.mem_cons_self)]
      exact ih fun r hr => h r (List.mem_cons_of_mem s hr)

/- Behind a record of sorted records, none has its name. -/
theorem Sorted.name_ne
    {r : Record}
    {records : List Record}
    (h : Sorted (r :: records)) :
    ∀ s ∈ records, s.name ≠ r.name := by
  intro s hs hEq
  have hLt : r.name < s.name :=
    (List.pairwise_cons.1 h).1 s hs
  rw [hEq] at hLt
  exact String.lt_irrefl r.name hLt

/- Look-up in sorted records finds each of them. -/
theorem getRecord?_of_mem
    {records : List Record}
    {r : Record}
    (hSorted : Sorted records)
    (h : r ∈ records) :
    getRecord? r.name records = some r := by
  induction records with
  | nil => simp at h
  | cons s ss ih =>
      rcases List.mem_cons.1 h with h | h
      · rw [h, getRecord?, if_pos rfl]
      · have hNe := hSorted.name_ne r h
        rw [getRecord?, if_neg (Ne.symm hNe)]
        exact ih (List.pairwise_cons.1 hSorted).2 h

namespace Table

------------------------------------------------------------
-- Look-up in tables
------------------------------------------------------------

/- The names of the records of a table. -/
def names (t : Table) : List String :=
  t.records.map Record.name

/- A table holds what look-up finds under its own name. -/
theorem mem_records_iff
    {t : Table}
    {r : Record} :
    r ∈ t.records ↔ t.get? r.name = some r :=
  ⟨getRecord?_of_mem t.sorted, fun h => (mem_of_getRecord? h).1⟩

/- A table has the names under which look-up finds records. -/
theorem mem_names_iff
    {t : Table}
    {name : String} :
    name ∈ t.names ↔ ∃ r, t.get? name = some r := by
  constructor
  · intro h
    rcases List.mem_map.1 h with ⟨r, hr, rfl⟩
    exact ⟨r, mem_records_iff.1 hr⟩
  · rintro ⟨r, hr⟩
    have hFound := mem_of_getRecord? hr
    exact List.mem_map.2 ⟨r, hFound.1, hFound.2⟩

theorem get?_insert
    (t : Table)
    (r : Record)
    (name : String) :
    (t.insert r).get? name =
      if r.name = name then some r else t.get? name :=
  get?_insertSorted r name t.records

theorem mem_records_insert
    {t : Table}
    {r s : Record}
    (h : s ∈ (t.insert r).records) : s = r ∨ s ∈ t.records :=
  mem_insertSorted h

------------------------------------------------------------
-- Sequences of insertions
------------------------------------------------------------

/- A table with records put in one after another. -/
def insertAll (t : Table) (records : List Record) : Table :=
  records.foldl insert t

/- Nothing is put in by no records. -/
@[simp] theorem insertAll_nil (t : Table) : t.insertAll [] = t :=
  rfl

theorem insertAll_cons
    (t : Table)
    (r : Record)
    (rs : List Record) :
    t.insertAll (r :: rs) = (t.insert r).insertAll rs :=
  rfl

theorem insertAll_append
    (t : Table)
    (rs ss : List Record) :
    t.insertAll (rs ++ ss) = (t.insertAll rs).insertAll ss :=
  List.foldl_append

theorem insertAll_concat
    (t : Table)
    (rs : List Record)
    (r : Record) :
    t.insertAll (rs ++ [r]) = (t.insertAll rs).insert r :=
  insertAll_append t rs [r]

/- Only the records that are put in are new. -/
theorem mem_records_insertAll
    {t : Table}
    {rs : List Record}
    {s : Record}
    (h : s ∈ (t.insertAll rs).records) :
    s ∈ rs ∨ s ∈ t.records := by
  induction rs generalizing t with
  | nil => exact Or.inr h
  | cons r rs ih =>
      rcases ih h with h | h
      · exact Or.inl (List.mem_cons_of_mem r h)
      · rcases mem_records_insert h with h | h
        · exact Or.inl (h ▸ List.mem_cons_self)
        · exact Or.inr h

/- A name is there if it was or if a record with it is put in. -/
theorem mem_names_insert
    {t : Table}
    {r : Record}
    {name : String} :
    name ∈ (t.insert r).names ↔
      name = r.name ∨ name ∈ t.names := by
  rw [mem_names_iff, mem_names_iff, get?_insert]
  by_cases hName : r.name = name
  · simp [hName]
  · have hNe : name ≠ r.name := Ne.symm hName
    simp [hName, hNe]

/- A name is there if it was or if a record with it is put in. -/
theorem mem_names_insertAll
    {t : Table}
    {rs : List Record}
    {name : String} :
    name ∈ (t.insertAll rs).names ↔
      name ∈ rs.map Record.name ∨ name ∈ t.names := by
  induction rs generalizing t with
  | nil => simp
  | cons r rs ih =>
      rw [insertAll_cons, ih, mem_names_insert, List.map_cons,
        List.mem_cons, or_left_comm, or_assoc]

/- Look-up finds nothing new under a name that none has. -/
theorem get?_insertAll_of_not_mem
    {t : Table}
    {rs : List Record}
    {name : String}
    (h : name ∉ rs.map Record.name) :
    (t.insertAll rs).get? name = t.get? name := by
  induction rs generalizing t with
  | nil => rfl
  | cons r rs ih =>
      rw [List.map_cons, List.mem_cons, not_or] at h
      rw [insertAll_cons, ih h.2, get?_insert, if_neg (Ne.symm h.1)]

/- Records of distinct names are all found under their names. -/
theorem get?_insertAll_of_mem
    {t : Table}
    {rs : List Record}
    {s : Record}
    (hNames : (rs.map Record.name).Nodup)
    (h : s ∈ rs) :
    (t.insertAll rs).get? s.name = some s := by
  induction rs generalizing t with
  | nil => cases h
  | cons r rs ih =>
      rw [List.map_cons, List.nodup_cons] at hNames
      rw [insertAll_cons]
      rcases List.mem_cons.1 h with rfl | h
      · rw [get?_insertAll_of_not_mem hNames.1, get?_insert,
          if_pos rfl]
      · exact ih hNames.2 h

------------------------------------------------------------
-- Merges
------------------------------------------------------------

/- Look-up looks first at sorted records that are put in. -/
theorem get?_insertAll_of_sorted
    (t : Table)
    {rs : List Record}
    (h : Sorted rs)
    (name : String) :
    (t.insertAll rs).get? name =
      (getRecord? name rs).or (t.get? name) := by
  induction rs generalizing t with
  | nil => rfl
  | cons r rs ih =>
      rw [insertAll_cons, ih _ (List.pairwise_cons.1 h).2, get?_insert,
        getRecord?]
      by_cases hName : r.name = name
      · have hBehind : getRecord? name rs = none :=
          getRecord?_eq_none (hName ▸ h.name_ne)
        simp [hName, hBehind]
      · simp [hName]

/- Look-up in a merge looks first at the table merged in. -/
theorem get?_merge (t u : Table) (name : String) :
    (t.merge u).get? name = (u.get? name).or (t.get? name) :=
  get?_insertAll_of_sorted t u.sorted name

theorem mem_records_merge
    {t u : Table}
    {r : Record}
    (h : r ∈ (t.merge u).records) :
    r ∈ u.records ∨ r ∈ t.records :=
  mem_records_insertAll h

theorem mem_names_merge
    {t u : Table}
    {name : String} :
    name ∈ (t.merge u).names ↔
      name ∈ u.names ∨ name ∈ t.names :=
  mem_names_insertAll

------------------------------------------------------------
-- Sequences of merges
------------------------------------------------------------

/- A table with tables merged in one after another. -/
def mergeAll (t : Table) (us : List Table) : Table :=
  us.foldl merge t

/- The record of a name in the last table that has one. -/
def latest? (name : String) : List Table → Option Record
  | [] => none
  | u :: us => (latest? name us).or (u.get? name)

/- Look-up looks first at the tables that were merged in last. -/
theorem get?_mergeAll
    (t : Table)
    (us : List Table)
    (name : String) :
    (t.mergeAll us).get? name =
      (latest? name us).or (t.get? name) := by
  induction us generalizing t with
  | nil => rfl
  | cons u us ih =>
      have hStep : t.mergeAll (u :: us) =
          (t.merge u).mergeAll us := rfl
      rw [hStep, ih, get?_merge, latest?, Option.or_assoc]

/- The last table of more tables comes from the later ones. -/
theorem latest?_append
    (name : String)
    (us vs : List Table) :
    latest? name (us ++ vs) =
      (latest? name vs).or (latest? name us) := by
  induction us with
  | nil => simp [latest?]
  | cons u us ih =>
      rw [List.cons_append, latest?, ih, latest?,
        Option.or_assoc]

/- The last record of a name is one of some table. -/
theorem mem_of_latest?
    {name : String}
    {us : List Table}
    {r : Record}
    (h : latest? name us = some r) :
    ∃ u ∈ us, u.get? name = some r := by
  induction us with
  | nil => cases h
  | cons u us ih =>
      rcases Option.or_eq_some_iff.1 h with hLater | ⟨_, hFirst⟩
      · rcases ih hLater with ⟨v, hv, hFound⟩
        exact ⟨v, List.mem_cons_of_mem u hv, hFound⟩
      · exact ⟨u, List.mem_cons_self, hFirst⟩

/- The names of tables that are merged in are there in the end. -/
theorem mem_names_mergeAll
    {t : Table}
    {us : List Table}
    {name : String} :
    name ∈ (t.mergeAll us).names ↔
      (∃ u ∈ us, name ∈ u.names) ∨ name ∈ t.names := by
  induction us generalizing t with
  | nil => simp [mergeAll]
  | cons u us ih =>
      have hStep : t.mergeAll (u :: us) =
          (t.merge u).mergeAll us := rfl
      rw [hStep, ih, mem_names_merge]
      constructor
      · rintro (⟨v, hv, h⟩ | h | h)
        · exact Or.inl ⟨v, List.mem_cons_of_mem u hv, h⟩
        · exact Or.inl ⟨u, List.mem_cons_self, h⟩
        · exact Or.inr h
      · rintro (⟨v, hv, h⟩ | h)
        · rcases List.mem_cons.1 hv with rfl | hv
          · exact Or.inr (Or.inl h)
          · exact Or.inl ⟨v, hv, h⟩
        · exact Or.inr (Or.inr h)

end Table

end Shape

end TypedClient
