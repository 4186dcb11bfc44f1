import Mathlib.Data.List.Forall2
import TypedClient.Name.Registry

/-
  This file shows that a registry of names gives out every name
  at most once.  The bounded search for a free number succeeds,
  since as many numbers as there are taken names, and one more,
  make more names than can be taken.

  Key definitions include:
    * `Name.IsGivenFor`

  Key theorems include:
    * `Name.Registry.numbered_firstFree_not_mem`
    * `Name.Registry.claim_not_mem`
    * `Name.Registry.isGivenFor_claim`
    * `Name.Registry.nodup_claimAll`
-/

namespace TypedClient

namespace Name

------------------------------------------------------------
-- Numbered names
------------------------------------------------------------

/- Two numbers make two names. -/
theorem numbered_injective
    {name : String}
    {j k : Nat}
    (h : numbered name j = numbered name k) : j = k := by
  have hText : Nat.repr j = Nat.repr k :=
    (String.append_right_inj name).1 h
  have hDigits : Nat.toDigits 10 j = Nat.toDigits 10 k := by
    rw [← Nat.toList_repr, ← Nat.toList_repr, hText]
  calc
    j = Nat.ofDigitChars 10 (Nat.toDigits 10 j) 0 :=
      Nat.ofDigitChars_ten_toDigits.symm
    _ = Nat.ofDigitChars 10 (Nat.toDigits 10 k) 0 := by
      rw [hDigits]
    _ = k := Nat.ofDigitChars_ten_toDigits

/- A name that may be given out for another one. -/
def IsGivenFor (name given : String) : Prop :=
  given = name ∨ ∃ k, given = numbered name k

namespace Registry

------------------------------------------------------------
-- Search
------------------------------------------------------------

/- The search passes over taken names only. -/
theorem mem_of_lt_firstFree
    {taken : List String}
    {name : String}
    {fuel k j : Nat}
    (hLow : k ≤ j)
    (hHigh : j < firstFree taken name fuel k) :
    numbered name j ∈ taken := by
  induction fuel generalizing k with
  | zero =>
      rw [firstFree] at hHigh
      omega
  | succ fuel ih =>
      rw [firstFree] at hHigh
      split at hHigh
      next hMem =>
        by_cases hEq : j = k
        · exact hEq ▸ hMem
        · exact ih (by omega) hHigh
      next hFree => omega

/- The search stops at a taken name only at its bound. -/
theorem firstFree_eq_of_mem
    {taken : List String}
    {name : String}
    {fuel k : Nat}
    (h : numbered name (firstFree taken name fuel k) ∈ taken) :
    firstFree taken name fuel k = k + fuel := by
  induction fuel generalizing k with
  | zero => rfl
  | succ fuel ih =>
      rw [firstFree] at h ⊢
      split at h
      next hMem =>
        rw [if_pos hMem, ih h]
        omega
      next hFree => exact (hFree h).elim

/-
  With as many numbers as there are taken names, the search ends
  at a free name: else the taken names would hold one numbered
  name more than there are of them.
-/
theorem numbered_firstFree_not_mem
    (taken : List String)
    (name : String)
    (k : Nat) :
    numbered name (firstFree taken name taken.length k) ∉
      taken := by
  intro hMem
  have hEnd := firstFree_eq_of_mem hMem
  let tried :=
    (List.range' k (taken.length + 1)).map (numbered name)
  have hNodup : tried.Nodup :=
    List.Pairwise.map (numbered name)
      (fun i j hNe hEq => hNe (numbered_injective hEq))
      List.nodup_range'
  have hSubset : tried ⊆ taken := by
    intro given hGiven
    rcases List.mem_map.1 hGiven with ⟨j, hj, rfl⟩
    have hRange := List.mem_range'_1.1 hj
    by_cases hLast : j = k + taken.length
    · rw [hLast, ← hEnd]
      exact hMem
    · have hBefore : j < firstFree taken name taken.length k := by
        omega
      exact mem_of_lt_firstFree hRange.1 hBefore
  have hLength := hNodup.length_le_of_subset hSubset
  simp only [tried, List.length_map, List.length_range']
    at hLength
  omega

------------------------------------------------------------
-- Claims
------------------------------------------------------------

theorem taken_claim (r : Registry) (name : String) :
    (r.claim name).2.taken = (r.claim name).1 :: r.taken := by
  unfold claim
  split
  · rfl
  · rfl

/- A claim gives out a free name. -/
theorem claim_not_mem (r : Registry) (name : String) :
    (r.claim name).1 ∉ r.taken := by
  unfold claim
  split
  · exact numbered_firstFree_not_mem r.taken name _
  · next hFree => exact hFree

/- A claim gives out the name itself or a numbered one. -/
theorem isGivenFor_claim (r : Registry) (name : String) :
    IsGivenFor name (r.claim name).1 := by
  unfold claim
  split
  · exact Or.inr ⟨_, rfl⟩
  · exact Or.inl rfl

theorem claim_eq_of_not_mem
    {r : Registry}
    {name : String}
    (h : name ∉ r.taken) : (r.claim name).1 = name := by
  rw [claim, if_neg h]

------------------------------------------------------------
-- Sequences of claims
------------------------------------------------------------

theorem length_claimAll (r : Registry) (names : List String) :
    (r.claimAll names).1.length = names.length := by
  induction names generalizing r with
  | nil => rfl
  | cons name names ih =>
      rw [claimAll, List.length_cons, ih, List.length_cons]

/- Names claimed in a row are none of those taken before. -/
theorem not_mem_of_mem_claimAll
    {r : Registry}
    {names : List String}
    {given : String}
    (h : given ∈ (r.claimAll names).1) : given ∉ r.taken := by
  induction names generalizing r with
  | nil => simp [claimAll] at h
  | cons name names ih =>
      rcases List.mem_cons.1 h with h | h
      · exact h ▸ claim_not_mem r name
      · have hLater := ih h
        rw [taken_claim] at hLater
        exact fun hMem =>
          hLater (List.mem_cons_of_mem _ hMem)

/- Names claimed in a row are pairwise distinct. -/
theorem nodup_claimAll (r : Registry) (names : List String) :
    (r.claimAll names).1.Nodup := by
  induction names generalizing r with
  | nil => exact List.Pairwise.nil
  | cons name names ih =>
      refine List.nodup_cons.2 ⟨fun hMem => ?_, ih _⟩
      have hFresh := not_mem_of_mem_claimAll hMem
      rw [taken_claim] at hFresh
      exact hFresh List.mem_cons_self

theorem claimAll_append (r : Registry) (names more : List String) :
    (r.claimAll (names ++ more)).1 =
      (r.claimAll names).1 ++
        ((r.claimAll names).2.claimAll more).1 := by
  induction names generalizing r with
  | nil => rfl
  | cons name names ih =>
      rw [List.cons_append, claimAll, claimAll, ih, List.cons_append]

theorem forall₂_isGivenFor_claimAll
    (r : Registry)
    (names : List String) :
    List.Forall₂ IsGivenFor names (r.claimAll names).1 := by
  induction names generalizing r with
  | nil => exact List.Forall₂.nil
  | cons name names ih =>
      exact List.Forall₂.cons (isGivenFor_claim r name) (ih _)

/- Names claimed in a row are given out for those asked for. -/
theorem exists_isGivenFor_of_mem_claimAll
    {r : Registry}
    {names : List String}
    {given : String}
    (h : given ∈ (r.claimAll names).1) :
    ∃ name ∈ names, IsGivenFor name given := by
  induction names generalizing r with
  | nil => cases h
  | cons name names ih =>
      rcases List.mem_cons.1 h with rfl | h
      · exact ⟨name, List.mem_cons_self, isGivenFor_claim r name⟩
      · rcases ih h with ⟨other, hOther, hGiven⟩
        exact ⟨other, List.mem_cons_of_mem name hOther, hGiven⟩

end Registry

end Name

end TypedClient
