import TypedClient.Schema.Parse

/-
  This file shows that a schema which is read from a document
  lists every path once, and every method of a path once.  What
  is read later replaces what was read before under its key.

  Key definitions include:
    * `Schema.Distinct`

  Key theorems include:
    * `Schema.nodup_keys_put`
    * `Schema.distinct_of_ofDocument`
-/

namespace TypedClient

namespace Schema

/- A schema that lists nothing twice. -/
structure Distinct (schema : Schema) : Prop where
  paths : (schema.paths.map Prod.fst).Nodup
  methods : ∀ item ∈ schema.paths,
    (item.2.map Prod.fst).Nodup

------------------------------------------------------------
-- Replacement
------------------------------------------------------------

variable {α β : Type}
variable [DecidableEq α]
variable {pairs : List (α × β)}
variable {key : α}
variable {value : β}

/- A replaced or added pair is the only new one. -/
theorem mem_put
    {p : α × β}
    (h : p ∈ put pairs key value) :
    p = (key, value) ∨ p ∈ pairs := by
  induction pairs with
  | nil => exact Or.inl (List.mem_singleton.1 h)
  | cons q qs ih =>
      rw [put] at h
      split at h
      · rcases List.mem_cons.1 h with h | h
        · exact Or.inl h
        · exact Or.inr (List.mem_cons_of_mem q h)
      · rcases List.mem_cons.1 h with h | h
        · exact Or.inr (h ▸ List.mem_cons_self)
        · exact (ih h).imp_right (List.mem_cons_of_mem q)

/- A key stays where it is, or comes last if it is new. -/
theorem keys_put :
    (put pairs key value).map Prod.fst =
      if key ∈ pairs.map Prod.fst then pairs.map Prod.fst
      else pairs.map Prod.fst ++ [key] := by
  induction pairs with
  | nil => rfl
  | cons q qs ih =>
      rw [put]
      by_cases hKey : q.1 = key
      · simp [hKey]
      · have hNe : key ≠ q.1 := Ne.symm hKey
        simp only [if_neg hKey, List.map_cons, ih,
          List.mem_cons, hNe, false_or]
        split
        · rfl
        · rfl

/- Replacement keeps keys distinct. -/
theorem nodup_keys_put
    (h : (pairs.map Prod.fst).Nodup) :
    ((put pairs key value).map Prod.fst).Nodup := by
  rw [keys_put]
  split
  next => exact h
  next hNew =>
    refine List.nodup_append.2
      ⟨h, List.pairwise_singleton _ key, ?_⟩
    intro a ha b hb hEq
    rw [List.mem_singleton.1 hb] at hEq
    exact hNew (hEq ▸ ha)

------------------------------------------------------------
-- Readers
------------------------------------------------------------

/- The operations of a path have distinct methods. -/
theorem nodup_methods_of_pathItemOf
    {item found : PathItem}
    {entries : List (Document × Document)}
    (hItem : (item.map Prod.fst).Nodup)
    (h : pathItemOf item entries = .ok found) :
    (found.map Prod.fst).Nodup := by
  induction entries generalizing item with
  | nil =>
      cases h
      exact hItem
  | cons e es ih =>
      simp only [pathItemOf, bind, Except.bind] at h
      split at h
      next => cases h
      next key hKey =>
        split at h
        next method entries hMethod hEntries =>
          split at h
          next => cases h
          next operation hOperation =>
            exact ih (nodup_keys_put hItem) h
        next => exact ih hItem h

/- The paths that entries declare are distinct. -/
theorem distinct_of_pathsOf
    {paths found : List (RawText × PathItem)}
    {entries : List (Document × Document)}
    (hPaths : (paths.map Prod.fst).Nodup)
    (hMethods : ∀ item ∈ paths, (item.2.map Prod.fst).Nodup)
    (h : pathsOf paths entries = .ok found) :
    (found.map Prod.fst).Nodup ∧
      ∀ item ∈ found, (item.2.map Prod.fst).Nodup := by
  induction entries generalizing paths with
  | nil =>
      cases h
      exact ⟨hPaths, hMethods⟩
  | cons e es ih =>
      simp only [pathsOf, bind, Except.bind] at h
      split at h
      next => exact ih hPaths hMethods h
      next entries hEntries =>
        split at h
        next => cases h
        next item hItem =>
          split at h
          next => cases h
          next text hText =>
            refine ih (nodup_keys_put hPaths) ?_ h
            intro other hOther
            rcases mem_put hOther with rfl | hOld
            · have hNone : (([] : PathItem).map
                  Prod.fst).Nodup := List.Pairwise.nil
              exact nodup_methods_of_pathItemOf hNone hItem
            · exact hMethods other hOld

/- A schema that a document describes lists nothing twice. -/
theorem distinct_of_ofDocument
    {d : Document}
    {schema : Schema}
    (h : ofDocument d = .ok schema) : schema.Distinct := by
  simp only [ofDocument] at h
  split at h
  next => cases h
  next entries paths hEntries =>
    simp only [bind, Except.bind] at h
    split at h
    next => cases h
    next found hPaths =>
      split at h
      next => cases h
      next title hTitle =>
        split at h
        next => cases h
        next version hVersion =>
          cases h
          have hNone : (([] : List (RawText × PathItem)).map
              Prod.fst).Nodup := List.Pairwise.nil
          have hFound := distinct_of_pathsOf hNone
            (fun item hItem => by cases hItem) hPaths
          exact ⟨hFound.1, hFound.2⟩

end Schema

end TypedClient
