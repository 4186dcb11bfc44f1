import Mathlib.Data.Nat.Digits.Defs
import TypedClient.Proofs.Document.Writable
import TypedClient.Proofs.Json.Grammar
import TypedClient.Proofs.Json.WellFormed
import TypedClient.Proofs.Text.Ascii

/-
  This file shows that a JSON value can be written again.  Its
  integers are short enough, since those that are too long are
  not read, and it is nested no deeper than its text.

  Key theorems include:
    * `Json.ofDigits_lt`
    * `Json.depth_source`
    * `Json.writable_written`
-/

namespace TypedClient

namespace Json

open Document (ItemsShort EntriesShort itemsDepth entriesDepth)

------------------------------------------------------------
-- Integers
------------------------------------------------------------

/- Digits write a number below the power of ten behind them. -/
theorem ofDigits_lt
    {ds : List Char}
    (h : IsDigits ds) :
    ofDigits (digitValues ds) < 10 ^ ds.length := by
  have hFold (n : Nat) :
      (digitValues ds).foldl (fun n d => n * 10 + d) n <
        (n + 1) * 10 ^ ds.length := by
    induction ds generalizing n with
    | nil => simp [digitValues]
    | cons c ds ih =>
        have hOthers : IsDigits ds := fun d hD =>
          h d (List.mem_cons_of_mem c hD)
        have hDigit : c.toNat - 48 < 10 :=
          Text.forall_alphanum
            (P := fun c => c.isDigit = true → c.toNat - 48 < 10)
            (by decide)
            (Text.isAlphanum_of_isDigit (h c List.mem_cons_self))
            (h c List.mem_cons_self)
        have hNext := ih hOthers (n * 10 + (c.toNat - 48))
        have hLe : (n * 10 + (c.toNat - 48) + 1) ≤ (n + 1) * 10 := by
          omega
        refine Nat.lt_of_lt_of_le hNext ?_
        calc (n * 10 + (c.toNat - 48) + 1) * 10 ^ ds.length
            ≤ (n + 1) * 10 * 10 ^ ds.length :=
              Nat.mul_le_mul_right _ hLe
          _ = (n + 1) * 10 ^ (c :: ds).length := by
              rw [List.length_cons, Nat.pow_succ', Nat.mul_assoc]
  have hAll := hFold 0
  rwa [Nat.zero_add, Nat.one_mul] at hAll

/- A number that is not too long is short when written again. -/
theorem isShort_numeral
    {n : Numeral}
    (h : n.Fits) : (Document.ofJson n.value).IsShort := by
  unfold Numeral.value
  cases hExponent : n.exponent with
  | some e => trivial
  | none =>
      dsimp only
      split
      next hFraction =>
        have hLength := h ⟨hFraction, hExponent⟩
        have hNonempty : 0 < n.whole.length :=
          List.length_pos_iff.2 fun hNil =>
            digitValues_whole_ne_nil n (by rw [hNil]; rfl)
        have hAbs : (Double.signed n.negative
            (ofDigits (digitValues n.whole))).natAbs =
              ofDigits (digitValues n.whole) := by
          unfold Double.signed
          split
          next => exact (Int.natAbs_neg _).trans (Int.natAbs_natCast _)
          next => exact Int.natAbs_natCast _
        change (Number.decimalDigits (Double.signed n.negative
          (ofDigits (digitValues n.whole))).natAbs).length ≤ _
        rw [hAbs]
        exact Nat.le_trans (Nat.toDigits_length 10 _ _ hNonempty
          (ofDigits_lt n.hWhole)) hLength
      next => trivial

/- A number has no depth. -/
theorem depth_numeral (n : Numeral) :
    (Document.ofJson n.value).depth = 0 := by
  unfold Numeral.value
  cases n.exponent with
  | some e => rfl
  | none =>
      dsimp only
      split
      · rfl
      · rfl

------------------------------------------------------------
-- Values
------------------------------------------------------------

theorem itemsShort_of_forall
    {vs : List Json}
    (h : ∀ v ∈ vs, (Document.ofJson v).IsShort) :
    ItemsShort (Document.ofItems vs) := by
  induction vs with
  | nil => trivial
  | cons v vs ih =>
      exact ⟨h v List.mem_cons_self,
        ih fun u hU => h u (List.mem_cons_of_mem v hU)⟩

theorem entriesShort_of_forall
    {ms : List (RawText × Json)}
    (h : ∀ m ∈ ms, (Document.ofJson m.2).IsShort) :
    EntriesShort (Document.ofMembers ms) := by
  induction ms with
  | nil => trivial
  | cons m ms ih =>
      exact ⟨⟨trivial, h m List.mem_cons_self⟩,
        ih fun u hU => h u (List.mem_cons_of_mem m hU)⟩

mutual

/- A value whose integers are not too long is short. -/
theorem isShort_source
    {s : Source}
    (h : s.Fits) : (Document.ofJson s.value).IsShort := by
  cases s with
  | word w hWord =>
      simp only [words, List.mem_cons, List.not_mem_nil, or_false]
        at hWord
      rcases hWord with rfl | rfl | rfl | rfl | rfl | rfl
      all_goals trivial
  | number n => exact isShort_numeral h
  | string t => trivial
  | emptyArray g => trivial
  | array g v others =>
      exact ⟨isShort_source h.1,
        itemsShort_of_forall (isShort_items h.2)⟩
  | emptyObject g => trivial
  | object g k v others =>
      refine entriesShort_of_forall fun m hM => ?_
      rcases List.mem_cons.1 (mem_of_mem_ofPairs hM) with rfl | hM
      · exact isShort_source h.1
      · exact isShort_members h.2 m hM

/- So are the items of the rest of an array. -/
theorem isShort_items
    {i : Items}
    (h : i.Fits) :
    ∀ v ∈ i.values, (Document.ofJson v).IsShort := by
  cases i with
  | nil g =>
      intro v hV
      cases hV
  | cons g a s others =>
      intro v hV
      rcases List.mem_cons.1 hV with rfl | hV
      · exact isShort_source h.1
      · exact isShort_items h.2 v hV

/- So are the values of the rest of an object. -/
theorem isShort_members
    {ms : Members}
    (h : ms.Fits) :
    ∀ m ∈ ms.pairs, (Document.ofJson m.2).IsShort := by
  cases ms with
  | nil g =>
      intro m hM
      cases hM
  | cons g a k s others =>
      intro m hM
      rcases List.mem_cons.1 hM with rfl | hM
      · exact isShort_source h.1
      · exact isShort_members h.2 m hM

end

------------------------------------------------------------
-- Depth
------------------------------------------------------------

/- Items are no deeper than each of them. -/
theorem itemsDepth_le
    {vs : List Json}
    {n : Nat}
    (h : ∀ v ∈ vs, (Document.ofJson v).depth ≤ n) :
    itemsDepth (Document.ofItems vs) ≤ n := by
  induction vs with
  | nil => exact Nat.zero_le n
  | cons v vs ih =>
      exact max_le (h v List.mem_cons_self)
        (ih fun u hU => h u (List.mem_cons_of_mem v hU))

/- Members are no deeper than each of their values. -/
theorem entriesDepth_le
    {ms : List (RawText × Json)}
    {n : Nat}
    (h : ∀ m ∈ ms, (Document.ofJson m.2).depth ≤ n) :
    entriesDepth (Document.ofMembers ms) ≤ n := by
  induction ms with
  | nil => exact Nat.zero_le n
  | cons m ms ih =>
      exact max_le (max_le (Nat.zero_le n) (h m List.mem_cons_self))
        (ih fun u hU => h u (List.mem_cons_of_mem m hU))

mutual

/- A value is no deeper than the tree that it is read from. -/
theorem depth_source (s : Source) :
    (Document.ofJson s.value).depth ≤ s.nesting := by
  cases s with
  | word w hWord =>
      simp only [words, List.mem_cons, List.not_mem_nil, or_false]
        at hWord
      rcases hWord with rfl | rfl | rfl | rfl | rfl | rfl
      all_goals exact Nat.zero_le _
  | number n => exact (depth_numeral n).le
  | string t => exact Nat.zero_le _
  | emptyArray g => exact Nat.le_refl _
  | array g v others =>
      refine Nat.succ_le_succ (max_le_max (depth_source v) ?_)
      exact itemsDepth_le (depth_items others)
  | emptyObject g => exact Nat.le_refl _
  | object g k v others =>
      refine Nat.succ_le_succ (entriesDepth_le fun m hM => ?_)
      rcases List.mem_cons.1 (mem_of_mem_ofPairs hM) with rfl | hM
      · exact le_max_of_le_left (depth_source v)
      · exact le_max_of_le_right (depth_members others m hM)

/- So are the items of the rest of an array. -/
theorem depth_items (i : Items) :
    ∀ v ∈ i.values, (Document.ofJson v).depth ≤ i.nesting := by
  cases i with
  | nil g =>
      intro v hV
      cases hV
  | cons g a s others =>
      intro v hV
      rcases List.mem_cons.1 hV with rfl | hV
      · exact le_max_of_le_left (depth_source s)
      · exact le_max_of_le_right (depth_items others v hV)

/- So are the values of the rest of an object. -/
theorem depth_members (ms : Members) :
    ∀ m ∈ ms.pairs, (Document.ofJson m.2).depth ≤ ms.nesting := by
  cases ms with
  | nil g =>
      intro m hM
      cases hM
  | cons g a k s others =>
      intro m hM
      rcases List.mem_cons.1 hM with rfl | hM
      · exact le_max_of_le_left (depth_source s)
      · exact le_max_of_le_right (depth_members others m hM)

end

/- A value that is read from JSON is writable if it is shallow. -/
theorem writable_written
    {w : Written}
    (h : w.IsReadable)
    (hNesting : w.source.nesting ≤ Document.maxDepth) :
    (Document.ofJson w.source.value).Writable where
  short := isShort_source h.fits
  shallow := (depth_source w.source).trans hNesting

end Json

end TypedClient
