import Mathlib.Data.List.Basic
import TypedClient.Proofs.Schema.Distinct

/-
  This file describes what is gathered from a list under keys
  when a later source replaces an earlier one of its key.

  Key definitions include:
    * `Schema.IsLast`
    * `Schema.LastWins`
    * `Schema.AddsLast`

  Key theorems include:
    * `Schema.AddsLast.add`
    * `Schema.AddsLast.lastWins`
-/

namespace TypedClient

namespace Schema

------------------------------------------------------------
-- The last entry wins
------------------------------------------------------------

/- The last element of a list that has a property. -/
inductive IsLast
    {α : Type}
    (p : α → Prop) : List α → α → Prop
  | here {a : α} {as : List α}
      (h : p a)
      (hRest : ∀ b ∈ as, ¬ p b) :
      IsLast p (a :: as) a
  | later {a b : α} {as : List α}
      (h : IsLast p as b) :
      IsLast p (a :: as) b

/-
  What is gathered from sources, each of which may stand for a
  key: just the keys that sources stand for, each with what is
  read from the last of its sources.
-/
structure LastWins
    {κ β ε : Type}
    (stands : κ → ε → Prop)
    (reads : ε → β → Prop)
    (sources : List ε)
    (found : List (κ × β)) : Prop where
  keys : ∀ k,
    k ∈ found.map Prod.fst ↔ ∃ e ∈ sources, stands k e
  values : ∀ p ∈ found,
    ∃ e, IsLast (stands p.1) sources e ∧ reads e p.2

/- The same on top of what was gathered before. -/
structure AddsLast
    {κ β ε : Type}
    (stands : κ → ε → Prop)
    (reads : ε → β → Prop)
    (before : List (κ × β))
    (sources : List ε)
    (found : List (κ × β)) : Prop where
  keys : ∀ k,
    k ∈ found.map Prod.fst ↔
      k ∈ before.map Prod.fst ∨ ∃ e ∈ sources, stands k e
  values : ∀ p ∈ found,
    (∃ e, IsLast (stands p.1) sources e ∧ reads e p.2) ∨
      (p ∈ before ∧ ∀ e ∈ sources, ¬ stands p.1 e)

section

variable {κ β ε : Type}
variable {stands : κ → ε → Prop}
variable {reads : ε → β → Prop}
variable {before found : List (κ × β)}
variable {e : ε}
variable {es : List ε}

theorem AddsLast.nil : AddsLast stands reads before [] before where
  keys k := by simp
  values p hp := Or.inr ⟨hp, fun e he => by cases he⟩

/- A source that stands for no key adds nothing. -/
theorem AddsLast.skip
    (hNone : ∀ k, ¬ stands k e)
    (h : AddsLast stands reads before es found) :
    AddsLast stands reads before (e :: es) found where
  keys k := by
    rw [h.keys, List.exists_mem_cons_iff, or_iff_right (hNone k)]
  values p hp := by
    rcases h.values p hp with ⟨f, hLast, hReads⟩ | ⟨hOld, hRest⟩
    · exact Or.inl ⟨f, IsLast.later hLast, hReads⟩
    · refine Or.inr ⟨hOld, ?_⟩
      intro f hf
      rcases List.mem_cons.1 hf with rfl | hf
      · exact hNone p.1
      · exact hRest f hf

variable [DecidableEq κ]
variable {key : κ}
variable {value : β}

/- A replaced pair is gone. -/
theorem mem_put_of_nodup
    {pairs : List (κ × β)}
    {p : κ × β}
    (hNodup : (pairs.map Prod.fst).Nodup)
    (h : p ∈ put pairs key value) :
    p = (key, value) ∨ (p ∈ pairs ∧ p.1 ≠ key) := by
  induction pairs with
  | nil => exact Or.inl (List.mem_singleton.1 h)
  | cons q qs ih =>
      have hQs := List.nodup_cons.1 hNodup
      rw [put] at h
      split at h
      next hKey =>
        rcases List.mem_cons.1 h with h | h
        · exact Or.inl h
        · refine Or.inr ⟨List.mem_cons_of_mem q h, ?_⟩
          intro hSame
          exact hQs.1
            (List.mem_map.2 ⟨p, h, hSame.trans hKey.symm⟩)
      next hKey =>
        rcases List.mem_cons.1 h with rfl | h
        · exact Or.inr ⟨List.mem_cons_self, hKey⟩
        · refine (ih hQs.2 h).imp_right ?_
          rintro ⟨hMem, hNe⟩
          exact ⟨List.mem_cons_of_mem q hMem, hNe⟩

/- The keys after a replacement are the old ones and the new. -/
theorem mem_keys_put
    {pairs : List (κ × β)}
    {k : κ} :
    k ∈ (put pairs key value).map Prod.fst ↔
      k ∈ pairs.map Prod.fst ∨ k = key := by
  rw [keys_put]
  split
  next hOld =>
    refine ⟨Or.inl, ?_⟩
    rintro (h | rfl)
    · exact h
    · exact hOld
  next => rw [List.mem_append, List.mem_singleton]

/- A source that stands for one key replaces what it has. -/
theorem AddsLast.add
    (hNodup : (before.map Prod.fst).Nodup)
    (hKey : ∀ k, stands k e ↔ k = key)
    (hReads : reads e value)
    (h : AddsLast stands reads (put before key value) es found) :
    AddsLast stands reads before (e :: es) found where
  keys k := by
    rw [h.keys, List.exists_mem_cons_iff, mem_keys_put, hKey,
      or_assoc]
  values p hp := by
    rcases h.values p hp with ⟨f, hLast, hF⟩ | ⟨hOld, hRest⟩
    · exact Or.inl ⟨f, IsLast.later hLast, hF⟩
    · rcases mem_put_of_nodup hNodup hOld with rfl | ⟨hMem, hNe⟩
      · have hStands : stands key e := (hKey key).2 rfl
        exact Or.inl ⟨e, IsLast.here hStands hRest, hReads⟩
      · refine Or.inr ⟨hMem, ?_⟩
        intro f hf
        rcases List.mem_cons.1 hf with rfl | hf
        · exact fun hStands => hNe ((hKey p.1).1 hStands)
        · exact hRest f hf

omit [DecidableEq κ] in
/- On top of nothing, the last entry wins. -/
theorem AddsLast.lastWins
    (h : AddsLast stands reads [] es found) :
    LastWins stands reads es found where
  keys k := by simpa using h.keys k
  values p hp := by
    rcases h.values p hp with hLast | ⟨hNone, _⟩
    · exact hLast
    · cases hNone

end

end Schema

end TypedClient
