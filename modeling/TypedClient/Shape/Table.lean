import TypedClient.Shape.Basic

/-
  This file defines the table of the records that inference has
  found.  It holds one record a name, in the order of names; a
  later record replaces an earlier one of the same name.

  Key definitions include:
    * `Shape.Table`
    * `Shape.Table.get?`
    * `Shape.Table.insert`
    * `Shape.Table.merge`

  Key theorems include:
    * `Shape.get?_insertSorted`
    * `Shape.sorted_insertSorted`
-/

namespace TypedClient

namespace Shape

------------------------------------------------------------
-- Sorted records
------------------------------------------------------------

/- Records in the order of their names, no name twice. -/
def Sorted (records : List Record) : Prop :=
  records.Pairwise fun a b => a.name < b.name

/- Sorted records with one put in its place. -/
def insertSorted (r : Record) : List Record → List Record
  | [] => [r]
  | s :: ss =>
      if r.name < s.name then r :: s :: ss
      else if r.name = s.name then r :: ss
      else s :: insertSorted r ss

/- The record of a name. -/
def getRecord? (name : String) : List Record → Option Record
  | [] => none
  | s :: ss =>
      if s.name = name then some s else getRecord? name ss

/- Insertion brings in no other record. -/
theorem mem_insertSorted
    {r s : Record}
    {records : List Record}
    (h : s ∈ insertSorted r records) :
    s = r ∨ s ∈ records := by
  induction records with
  | nil => simpa [insertSorted] using h
  | cons t ts ih =>
      simp only [insertSorted] at h
      split at h
      · simpa using h
      · split at h
        · rcases List.mem_cons.1 h with h | h
          · exact Or.inl h
          · exact Or.inr (List.mem_cons_of_mem _ h)
        · rcases List.mem_cons.1 h with h | h
          · exact Or.inr (h ▸ List.mem_cons_self)
          · rcases ih h with h | h
            · exact Or.inl h
            · exact Or.inr (List.mem_cons_of_mem _ h)

/- Insertion keeps records sorted. -/
theorem sorted_insertSorted
    (r : Record)
    {records : List Record}
    (h : Sorted records) : Sorted (insertSorted r records) := by
  induction records with
  | nil => exact List.pairwise_singleton _ _
  | cons s ss ih =>
      have hs := List.pairwise_cons.1 h
      simp only [insertSorted]
      split
      next hLt =>
        refine List.pairwise_cons.2 ⟨fun t ht => ?_, h⟩
        rcases List.mem_cons.1 ht with ht | ht
        · exact ht ▸ hLt
        · exact String.lt_trans hLt (hs.1 t ht)
      next hNotLt =>
        split
        next hEq =>
          refine List.pairwise_cons.2 ⟨fun t ht => ?_, hs.2⟩
          exact hEq ▸ hs.1 t ht
        next hNe =>
          refine List.pairwise_cons.2 ⟨fun t ht => ?_, ih hs.2⟩
          rcases mem_insertSorted ht with ht | ht
          · subst ht
            have hLe : s.name ≤ t.name :=
              String.not_lt.1 hNotLt
            exact Std.lt_of_le_of_ne hLe fun hEq =>
              hNe hEq.symm
          · exact hs.1 t ht

------------------------------------------------------------
-- Tables
------------------------------------------------------------

/- A table of records. -/
structure Table where
  records : List Record
  sorted : Sorted records

namespace Table

/- The table without records. -/
def empty : Table :=
  ⟨[], List.Pairwise.nil⟩

instance : Inhabited Table :=
  ⟨empty⟩

/- The record of a name. -/
def get? (t : Table) (name : String) : Option Record :=
  getRecord? name t.records

/- A table with a record put in. -/
def insert (t : Table) (r : Record) : Table :=
  ⟨insertSorted r t.records, sorted_insertSorted r t.sorted⟩

/- A table with the records of another one put in. -/
def merge (t other : Table) : Table :=
  other.records.foldl insert t

end Table

/- Look-up sees what was inserted last. -/
theorem get?_insertSorted
    (r : Record)
    (name : String)
    (records : List Record) :
    getRecord? name (insertSorted r records) =
      if r.name = name then some r
      else getRecord? name records := by
  induction records with
  | nil => simp [insertSorted, getRecord?]
  | cons s ss ih =>
      simp only [insertSorted]
      split
      · simp only [getRecord?]
      · split
        next hEq =>
          by_cases h : r.name = name
          · simp [getRecord?, h]
          · have hs : s.name ≠ name := hEq ▸ h
            simp [getRecord?, h, hs]
        next hNe =>
          simp only [getRecord?, ih]
          by_cases hs : s.name = name
          · have h : r.name ≠ name := fun h =>
              hNe (h.trans hs.symm)
            simp [hs, h]
          · simp [hs]

end Shape

end TypedClient
