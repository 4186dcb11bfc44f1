import Mathlib.Data.List.Nodup
import Mathlib.Order.Bounds.Basic
import TypedClient.Proofs.Name.Registry

/-
  This file compares the registry of names with a plain one that
  remembers nothing but what it gave out.  The plain one counts up
  from the start at every claim; the registry goes on from the
  last number that it tried.  Both give out the same names, since
  every number that the registry leaves out makes a taken name,
  whichever name it was taken for.

  Key definitions include:
    * `Name.Log.Gives`
    * `Name.Log.IsPlain`
    * `Name.Registry.Search`
    * `Name.Registry.Remembers`
    * `Name.Registry.IsPlainAfter`

  Key theorems include:
    * `Name.Log.IsPlain.unique`
    * `Name.Registry.search_claim`
    * `Name.Registry.Remembers.claim`
    * `Name.Registry.isPlainAfter`
-/

namespace TypedClient

namespace Name

------------------------------------------------------------
-- Plain claims
------------------------------------------------------------

/-
  The claims made so far, in their order: each name with the one
  that was given out for it.
-/
abbrev Log :=
  List (String × String)

namespace Log

/- The names given out so far. -/
def given (log : Log) : List String :=
  log.map Prod.snd

/-
  The number that a taken name is counted from.  A name that was
  given out as it is counts as the first of its kind.
-/
def start (log : Log) (name : String) : Nat :=
  if (name, name) ∈ log then 2 else 1

/-
  What a registry without numbers gives out: a free name as it is,
  a taken one with the least number that makes it free.
-/
structure Gives (log : Log) (name answer : String) : Prop where
  itself : answer = name ↔ name ∉ given log
  least : name ∈ given log → ∃ k,
    IsLeast {k | start log name ≤ k ∧ numbered name k ∉ given log} k ∧
      answer = numbered name k

/- The logs of a registry without numbers. -/
inductive IsPlain : Log → Prop where
  | empty : IsPlain []
  | claim {log : Log} {name answer : String}
      (hLog : IsPlain log)
      (hGives : Gives log name answer) :
      IsPlain (log ++ [(name, answer)])

theorem mem_given_concat
    {log : Log}
    {name answer other : String} :
    other ∈ given (log ++ [(name, answer)]) ↔
      other ∈ given log ∨ other = answer := by
  simp [given]

/- A claim changes the start of a name that it gives out as it is. -/
theorem start_concat
    (log : Log)
    (name answer other : String) :
    start (log ++ [(name, answer)]) other =
      if other = name ∧ other = answer then 2
      else start log other := by
  have hMem : (other, other) ∈ log ++ [(name, answer)] ↔
      (other, other) ∈ log ∨ other = name ∧ other = answer := by
    simp
  unfold start
  by_cases hNow : other = name ∧ other = answer
  · rw [if_pos hNow, if_pos (hMem.2 (Or.inr hNow))]
  · rw [if_neg hNow]
    simp only [hMem, hNow, or_false]

/- No start lies above two. -/
theorem start_le_two (log : Log) (name : String) :
    start log name ≤ 2 := by
  unfold start
  split
  · exact Nat.le_refl 2
  · exact Nat.le_succ 1

/- Only one name can be given out for a name. -/
theorem Gives.unique
    {log : Log}
    {name first second : String}
    (hFirst : Gives log name first)
    (hSecond : Gives log name second) : first = second := by
  by_cases hTaken : name ∈ given log
  · rcases hFirst.least hTaken with ⟨j, hj, rfl⟩
    rcases hSecond.least hTaken with ⟨k, hk, rfl⟩
    rw [hj.unique hk]
  · rw [hFirst.itself.2 hTaken, hSecond.itself.2 hTaken]

/- A name that is not given out as it is gets a number. -/
theorem Gives.numbered_of_ne
    {log : Log}
    {name answer : String}
    (h : Gives log name answer)
    (hNe : answer ≠ name) : ∃ k, answer = numbered name k := by
  have hTaken : name ∈ given log := by
    by_contra hFree
    exact hNe (h.itself.2 hFree)
  rcases h.least hTaken with ⟨k, _, hAnswer⟩
  exact ⟨k, hAnswer⟩

theorem Gives.not_mem
    {log : Log}
    {name answer : String}
    (h : Gives log name answer) : answer ∉ given log := by
  by_cases hTaken : name ∈ given log
  · rcases h.least hTaken with ⟨k, hk, rfl⟩
    exact hk.1.2
  · exact h.itself.2 hTaken ▸ hTaken

/- The claims determine the log. -/
theorem IsPlain.unique
    {first second : Log}
    (hFirst : IsPlain first)
    (hSecond : IsPlain second)
    (hNames : first.map Prod.fst = second.map Prod.fst) :
    first = second := by
  induction hFirst generalizing second with
  | empty => exact (List.map_eq_nil_iff.1 hNames.symm).symm
  | claim hLog hGives ih =>
      cases hSecond with
      | empty => simp at hNames
      | claim hOther hAlso =>
          rw [List.map_append, List.map_append] at hNames
          rcases List.append_inj' hNames rfl with ⟨hRest, hLast⟩
          cases ih hOther hRest
          cases List.cons.inj hLast |>.1
          rw [hGives.unique hAlso]

/- A name given out for another one is that one with a number. -/
theorem IsPlain.numbered_of_ne
    {log : Log}
    (h : IsPlain log)
    {name answer : String}
    (hMem : (name, answer) ∈ log)
    (hNe : answer ≠ name) : ∃ k, answer = numbered name k := by
  induction h with
  | empty => cases hMem
  | claim hLog hGives ih =>
      rcases List.mem_append.1 hMem with hMem | hMem
      · exact ih hMem
      · cases List.mem_singleton.1 hMem
        exact hGives.numbered_of_ne hNe

theorem IsPlain.nodup_given
    {log : Log}
    (h : IsPlain log) : (given log).Nodup := by
  induction h with
  | empty => exact List.Pairwise.nil
  | claim hLog hGives ih =>
      rw [given, List.map_append]
      exact List.nodup_append'.2 ⟨ih, List.nodup_singleton _,
        List.disjoint_singleton.2 hGives.not_mem⟩

end Log

namespace Registry

------------------------------------------------------------
-- The search
------------------------------------------------------------

/-
  The search for a free name that nothing bounds.  From a count
  and a candidate, it ends at a count and a free name; as long as
  the candidate is taken, the next number is tried.
-/
inductive Search
    (taken : List String)
    (name : String) :
    (count : Nat) → (candidate : String) →
      (last : Nat) → (answer : String) → Prop where
  | done {k : Nat} {candidate : String}
      (hFree : candidate ∉ taken) :
      Search taken name k candidate k candidate
  | next {k last : Nat} {candidate answer : String}
      (hTaken : candidate ∈ taken)
      (hLater : Search taken name (k + 1) (numbered name (k + 1))
        last answer) :
      Search taken name k candidate last answer

/- The bounded search goes the way of the one without a bound. -/
theorem search_firstFree
    {taken : List String}
    {name : String}
    {fuel k : Nat}
    (h : numbered name (firstFree taken name fuel k) ∉ taken) :
    Search taken name k (numbered name k)
      (firstFree taken name fuel k)
      (numbered name (firstFree taken name fuel k)) := by
  induction fuel generalizing k with
  | zero => exact Search.done h
  | succ fuel ih =>
      rw [firstFree] at h ⊢
      split at h
      next hTaken =>
        rw [if_pos hTaken]
        exact Search.next hTaken (ih h)
      next hFree =>
        rw [if_neg hFree]
        exact Search.done hFree

/- Every claim ends: it does what the search without a bound does. -/
theorem search_claim (r : Registry) (name : String) :
    ∃ last, Search r.taken name (r.count name) name last
        (r.claim name).1 ∧
      (r.claim name).2 = r.record name (r.claim name).1 last := by
  unfold claim
  split
  next hTaken =>
    have hFree := numbered_firstFree_not_mem r.taken name
      (r.count name + 1)
    exact ⟨_, Search.next hTaken (search_firstFree hFree), rfl⟩
  next hFree => exact ⟨_, Search.done hFree, rfl⟩

/-
  A search that starts at a free name ends there.  One that starts
  at a taken name ends at the first number above its count that
  makes a free name.
-/
theorem Search.cases
    {taken : List String}
    {name candidate answer : String}
    {count last : Nat}
    (h : Search taken name count candidate last answer) :
    candidate ∉ taken ∧ last = count ∧ answer = candidate ∨
      candidate ∈ taken ∧ count < last ∧
        answer = numbered name last ∧ answer ∉ taken ∧
        ∀ j, count < j → j < last → numbered name j ∈ taken := by
  induction h with
  | done hFree => exact Or.inl ⟨hFree, rfl, rfl⟩
  | @next k last candidate answer hTaken hLater ih =>
      right
      rcases ih with ⟨hFree, rfl, rfl⟩ |
        ⟨hNext, hLess, hAnswer, hFree, hBetween⟩
      · exact ⟨hTaken, Nat.lt_succ_self k, rfl, hFree,
          fun _ hLow hHigh => by omega⟩
      · refine ⟨hTaken, by omega, hAnswer, hFree, ?_⟩
        intro j hLow hHigh
        by_cases hEq : j = k + 1
        · exact hEq ▸ hNext
        · exact hBetween j (by omega) hHigh

------------------------------------------------------------
-- What a registry remembers
------------------------------------------------------------

/-
  What the numbers of a registry stand for after the claims of a
  log.  `passed` says that the numbers which a claim will not try
  again are of no use: from the start up to the last one tried,
  all of them make taken names.
-/
structure Remembers (r : Registry) (log : Log) : Prop where
  taken : ∀ name, name ∈ r.taken ↔ name ∈ log.given
  reached : ∀ name, log.start name ≤ r.count name + 1
  passed : ∀ name j, log.start name ≤ j → j ≤ r.count name →
    numbered name j ∈ log.given

theorem remembers_empty : empty.Remembers [] where
  taken := fun _ => Iff.rfl
  reached := fun _ => Nat.le_refl 1
  passed := fun _ _ hLow hHigh =>
    absurd (Nat.le_trans hLow hHigh) (Nat.not_succ_le_zero 0)

/- A record changes the number of its name only. -/
theorem count_record
    (r : Registry)
    (name answer other : String)
    (k : Nat) :
    (r.record name answer k).count other =
      if other = name then max k 1 else r.count other := by
  unfold count record
  by_cases hEq : other = name
  · rw [if_pos hEq, hEq, List.lookup_cons_self, Option.getD_some]
  · have hNot : (other == name) = false := beq_false_of_ne hEq
    rw [if_neg hEq, List.lookup_cons, hNot]

/-
  Between the start and the number that a search ends at, all make
  taken names: those up to the count by what is remembered, those
  above it by the search.
-/
theorem Remembers.mem_given
    {r : Registry}
    {log : Log}
    (h : r.Remembers log)
    {name : String}
    {last : Nat}
    (hBetween : ∀ j, r.count name < j → j < last →
      numbered name j ∈ r.taken)
    {j : Nat}
    (hLow : log.start name ≤ j)
    (hHigh : j < last) : numbered name j ∈ log.given := by
  by_cases hPassed : j ≤ r.count name
  · exact h.passed name j hLow hPassed
  · exact (h.taken _).1
      (hBetween j (Nat.lt_of_not_le hPassed) hHigh)

/- A claim gives out what the plain registry gives out. -/
theorem Remembers.gives
    {r : Registry}
    {log : Log}
    (h : r.Remembers log)
    (name : String) : log.Gives name (r.claim name).1 := by
  rcases search_claim r name with ⟨last, hSearch, _⟩
  rcases hSearch.cases with ⟨hFree, _, hAnswer⟩ |
    ⟨hTaken, hLess, hAnswer, hFree, hBetween⟩
  · rw [h.taken] at hFree
    exact ⟨iff_of_true hAnswer hFree, fun hMem =>
      absurd hMem hFree⟩
  · have hNe : (r.claim name).1 ≠ name := fun hEq =>
      hFree (hEq.symm ▸ hTaken)
    rw [hAnswer, h.taken] at hFree
    rw [h.taken] at hTaken
    refine ⟨iff_of_false hNe fun hNot => hNot hTaken,
      fun _ => ⟨last, ⟨⟨?_, hFree⟩, ?_⟩, hAnswer⟩⟩
    · exact Nat.le_trans (h.reached name) hLess
    · rintro j ⟨hLow, hUnused⟩
      by_contra hEarly
      exact hUnused
        (h.mem_given hBetween hLow (Nat.lt_of_not_le hEarly))

theorem exists_search_and_count (r : Registry) (name : String) :
    ∃ last, Search r.taken name (r.count name) name last
        (r.claim name).1 ∧
      ∀ other, (r.claim name).2.count other =
        if other = name then max last 1 else r.count other := by
  rcases search_claim r name with ⟨last, hSearch, hRecord⟩
  refine ⟨last, hSearch, fun other => ?_⟩
  rw [hRecord, count_record]

/- A claim counts on from no number behind the start. -/
theorem Remembers.reached_claim
    {r : Registry}
    {log : Log}
    (h : r.Remembers log)
    (name other : String) :
    Log.start (log ++ [(name, (r.claim name).1)]) other ≤
      (r.claim name).2.count other + 1 := by
  rcases exists_search_and_count r name with ⟨last, _, hCount⟩
  have hStart := Log.start_le_two log other
  rw [Log.start_concat, hCount]
  by_cases hEq : other = name
  · rw [if_pos hEq]
    split
    · omega
    · omega
  · rw [if_neg hEq, if_neg fun hNow => hEq hNow.1]
    exact h.reached other

/-
  The numbers that a claim passes make taken names: those between
  the count and the last number by the search, and the last number
  by the claim itself.
-/
theorem Remembers.passed_claim
    {r : Registry}
    {log : Log}
    (h : r.Remembers log)
    {name other : String}
    {j : Nat}
    (hLow :
      Log.start (log ++ [(name, (r.claim name).1)]) other ≤ j)
    (hHigh : j ≤ (r.claim name).2.count other) :
    numbered other j ∈
      Log.given (log ++ [(name, (r.claim name).1)]) := by
  rcases exists_search_and_count r name with
    ⟨last, hSearch, hCount⟩
  have hStart := Log.start_le_two log other
  rw [Log.mem_given_concat]
  rw [hCount] at hHigh
  rw [Log.start_concat] at hLow
  by_cases hEq : other = name
  · subst hEq
    rw [if_pos rfl] at hHigh
    rcases hSearch.cases with ⟨_, hLast, hAnswer⟩ |
      ⟨hTaken, hLess, hAnswer, hFree, hBetween⟩
    · -- given out as it is, the name is counted from two
      rw [if_pos ⟨rfl, hAnswer.symm⟩] at hLow
      exact Or.inl (h.passed other j (by omega) (by omega))
    · have hNe : other ≠ (r.claim other).1 := fun hNow =>
        hFree (hNow ▸ hTaken)
      rw [if_neg fun hNow => hNe hNow.2] at hLow
      by_cases hEq : j = last
      · exact Or.inr (hEq ▸ hAnswer.symm)
      · exact Or.inl (h.mem_given hBetween hLow (by omega))
  · rw [if_neg hEq] at hHigh
    rw [if_neg fun hNow => hEq hNow.1] at hLow
    exact Or.inl (h.passed other j hLow hHigh)

/- A claim leaves a registry that remembers it. -/
theorem Remembers.claim
    {r : Registry}
    {log : Log}
    (h : r.Remembers log)
    (name : String) :
    (r.claim name).2.Remembers
      (log ++ [(name, (r.claim name).1)]) where
  taken := by
    intro other
    rw [taken_claim, List.mem_cons, Log.mem_given_concat, h.taken,
      or_comm]
  reached := h.reached_claim name
  passed := fun _ _ => h.passed_claim

------------------------------------------------------------
-- Runs
------------------------------------------------------------

/- Claims in a row go on with a plain log as a plain registry does. -/
theorem Remembers.claimAll
    {r : Registry}
    {log : Log}
    (h : r.Remembers log)
    (hLog : log.IsPlain)
    (names : List String) :
    Log.IsPlain (log ++ names.zip (r.claimAll names).1) ∧
      (r.claimAll names).2.Remembers
        (log ++ names.zip (r.claimAll names).1) := by
  induction names generalizing r log with
  | nil =>
      rw [Registry.claimAll, List.zip_nil_left, List.append_nil]
      exact ⟨hLog, h⟩
  | cons name names ih =>
      have hLater := ih (h.claim name) (hLog.claim (h.gives name))
      rw [List.append_assoc, List.singleton_append] at hLater
      exact hLater

/- What a fresh registry gives out for names, as a log. -/
def logOf (names : List String) : Log :=
  names.zip (empty.claimAll names).1

/- A fresh registry after claims of names. -/
def after (names : List String) : Registry :=
  (empty.claimAll names).2

/-
  A registry after claims of names, as seen from the plain one.

    * `log`: what was given out is all that a plain registry could
      have given out for the same claims
    * `next`: what comes next is so too, and the unbounded search
      for it ends
    * `suffixed`: a name given out for another one is that one
      with a number
    * `nodup`: no name was given out twice
    * `has`: the registry has exactly the names given out
-/
structure IsPlainAfter (names : List String) : Prop where
  log : ∀ log : Log, log.IsPlain ∧ log.map Prod.fst = names ↔
    log = logOf names
  next : ∀ name, ∃ last answer,
    Search (after names).taken name ((after names).count name)
        name last answer ∧
      (after names).claim name =
        (answer, (after names).record name answer last) ∧
      (logOf names).Gives name answer
  suffixed : ∀ name answer, (name, answer) ∈ logOf names →
    answer ≠ name → ∃ k, answer = numbered name k
  nodup : (logOf names).given.Nodup
  has : ∀ name, (after names).has name = true ↔
    name ∈ (logOf names).given

/-
  A registry gives out what the plain one gives out, whatever is
  claimed.
-/
theorem isPlainAfter (names : List String) :
    IsPlainAfter names := by
  have hRun := remembers_empty.claimAll Log.IsPlain.empty names
  rw [List.nil_append] at hRun
  have hPlain : (logOf names).IsPlain := hRun.1
  have hAfter : (after names).Remembers (logOf names) := hRun.2
  have hNames : (logOf names).map Prod.fst = names :=
    List.map_fst_zip (length_claimAll empty names).ge
  refine ⟨fun log => ⟨fun h => ?_, fun h => ?_⟩, fun name => ?_,
    fun name answer => hPlain.numbered_of_ne,
    hPlain.nodup_given, fun name => ?_⟩
  · exact h.1.unique hPlain (h.2.trans hNames.symm)
  · rw [h]
    exact ⟨hPlain, hNames⟩
  · rcases search_claim (after names) name with
      ⟨last, hSearch, hRecord⟩
    exact ⟨last, _, hSearch, Prod.ext rfl hRecord,
      hAfter.gives name⟩
  · rw [has, decide_eq_true_iff]
    exact hAfter.taken name

/-
  A name that was given out for another one is counted from one,
  a name that was given out as it is from two.
-/
example :
    (empty.claimAll ["A", "A", "A2", "A2", "A"]).1 =
      ["A", "A2", "A21", "A22", "A3"] := by
  decide

end Registry

end Name

end TypedClient
