import TypedClient.Proofs.Yaml.Layout
import TypedClient.Proofs.Yaml.Opening
import TypedClient.Proofs.Yaml.SharedNumber

/-
  This file shows that the table of a shared JSON text is simple:
  each scalar has a value, keys are texts, and collections stand
  in front of their parts.

  Key definitions include:
    * `Yaml.Nodes.Along`
    * `Yaml.Nodes.Holds`

  Key theorems include:
    * `Yaml.Nodes.simple_source`
    * `Yaml.Nodes.areSimple_source`
-/

namespace TypedClient

namespace Yaml

namespace Nodes

open Json (Source Items Members Key)

variable {nodes : Nodes}
variable {n : Place}

------------------------------------------------------------
-- Nodes in a row
------------------------------------------------------------

/- Nodes have a property on the places from `n` on. -/
def Along
    (P : Place → Node → Prop)
    (n : Place)
    (ns : List Node) : Prop :=
  ∀ (i : Nat) (m : Node), ns[i]? = some m → P (n + i) m

/- The first one has it on the first place. -/
theorem along_cons_iff
    {P : Place → Node → Prop}
    {m : Node}
    {ns : List Node} :
    Along P n (m :: ns) ↔ P n m ∧ Along P (n + 1) ns := by
  constructor
  · intro h
    refine ⟨h 0 m rfl, fun i k hK => ?_⟩
    have hNext := h (i + 1) k hK
    rwa [Nat.add_comm i 1, ← Nat.add_assoc] at hNext
  · rintro ⟨hFirst, hNext⟩ i k hK
    cases i with
    | zero =>
        cases hK
        exact hFirst
    | succ i =>
        have hBehind := hNext i k hK
        rwa [Nat.add_assoc, Nat.add_comm 1 i] at hBehind

/- The later ones have it behind the earlier ones. -/
theorem along_append_iff
    {P : Place → Node → Prop}
    {ms ns : List Node} :
    Along P n (ms ++ ns) ↔
      Along P n ms ∧ Along P (n + ms.length) ns := by
  induction ms generalizing n with
  | nil =>
      exact ⟨fun h => ⟨fun i m hM => (nomatch hM), h⟩, And.right⟩
  | cons m ms ih =>
      have hLength : n + (m :: ms).length = n + 1 + ms.length := by
        rw [List.length_cons, Nat.add_comm ms.length 1,
          Nat.add_assoc]
      rw [List.cons_append, along_cons_iff, along_cons_iff, ih,
        hLength, and_assoc]

/- A table holds nodes on the places from `n` on. -/
def Holds (nodes : Nodes) : Place → List Node → Prop :=
  Along fun place m => nodes[place]? = some m

/- Those nodes are simple. -/
def HoldsSimple (nodes : Nodes) : Place → List Node → Prop :=
  Along fun place m => m.IsSimple nodes place

theorem holdsSimple_nil : nodes.HoldsSimple n [] :=
  fun _ _ hM => nomatch hM

theorem holdsSimple_singleton
    {m : Node}
    (h : m.IsSimple nodes n) : nodes.HoldsSimple n [m] :=
  along_cons_iff.2 ⟨h, holdsSimple_nil⟩

theorem lt_size_of_holds
    {m : Node}
    {ns : List Node}
    (h : nodes.Holds n (m :: ns)) : n < nodes.size :=
  (Array.getElem?_eq_some_iff.1 (along_cons_iff.1 h).1).1

/- A value has a first node. -/
theorem lt_size_of_source
    {v : Source}
    (h : nodes.Holds n (v.nodes n)) : n < nodes.size := by
  cases v with
  | word => exact lt_size_of_holds h
  | number => exact lt_size_of_holds h
  | string => exact lt_size_of_holds h
  | emptyArray => exact lt_size_of_holds h
  | array => exact lt_size_of_holds h
  | emptyObject => exact lt_size_of_holds h
  | object => exact lt_size_of_holds h

theorem along_source_append_iff
    {P : Place → Node → Prop}
    {v : Source}
    {ns : List Node} :
    Along P n (v.nodes n ++ ns) ↔
      Along P n (v.nodes n) ∧ Along P (n + v.size) ns := by
  rw [along_append_iff, v.length_nodes]

------------------------------------------------------------
-- Places of parts
------------------------------------------------------------

/- The items of an array stand in the table, from `n` on. -/
theorem places_items
    {i : Items}
    {n : Place}
    (h : nodes.Holds n (i.nodes n)) :
    ∀ p ∈ i.places n, n ≤ p ∧ p < nodes.size := by
  cases i with
  | nil g =>
      intro p hP
      cases hP
  | cons g a v others =>
      rcases along_source_append_iff.1 h with ⟨hV, hOthers⟩
      intro p hP
      rcases List.mem_cons.1 hP with rfl | hP
      · exact ⟨Nat.le_refl _, lt_size_of_source hV⟩
      · rcases places_items hOthers p hP with ⟨hLe, hLt⟩
        exact ⟨Nat.le_trans (Nat.le_add_right n _) hLe, hLt⟩

/-
  The entries of an object stand in the table, from `n` on, and
  their keys are texts.
-/
theorem places_members
    {m : Members}
    {n : Place}
    (h : nodes.Holds n (m.nodes n)) :
    ∀ e ∈ m.entries n, (n ≤ e.1 ∧ e.1 < nodes.size) ∧
      (n ≤ e.2 ∧ e.2 < nodes.size) ∧
        ∃ t, nodes[e.1]? = some (.scalar .str t) := by
  cases m with
  | nil g =>
      intro e hE
      cases hE
  | cons g a k v others =>
      have hLt := lt_size_of_holds h
      rcases along_cons_iff.1 h with ⟨hKey, hBehind⟩
      rcases along_source_append_iff.1 hBehind with ⟨hV, hOthers⟩
      intro e hE
      rcases List.mem_cons.1 hE with rfl | hE
      · exact ⟨⟨Nat.le_refl _, hLt⟩,
          ⟨Nat.le_succ n, lt_size_of_source hV⟩, ⟨_, hKey⟩⟩
      · rcases places_members hOthers e hE with
          ⟨hFirst, hSecond, hText⟩
        have hLe : n ≤ n + 1 + v.size := by
          rw [Nat.add_assoc]
          exact Nat.le_add_right n _
        exact ⟨⟨Nat.le_trans hLe hFirst.1, hFirst.2⟩,
          ⟨Nat.le_trans hLe hSecond.1, hSecond.2⟩, hText⟩

------------------------------------------------------------
-- Trees
------------------------------------------------------------

theorem simple_key (k : Key) : k.node.IsSimple nodes n :=
  .scalar rfl rfl

mutual

/- The nodes of a shared value are simple. -/
theorem simple_source
    {v : Source}
    {n : Place}
    (hShared : v.IsShared)
    (hFits : v.Fits)
    (h : nodes.Holds n (v.nodes n)) :
    nodes.HoldsSimple n (v.nodes n) := by
  cases v with
  | word w hWord =>
      rcases scalarValue_word hWord hShared with
        ⟨tag, rfl, hTag, hValue⟩
      exact holdsSimple_singleton (.scalar hTag hValue)
  | number m =>
      rcases scalarValue_numeral hShared hFits with
        ⟨tag, rfl, hTag, hValue⟩
      exact holdsSimple_singleton (.scalar hTag hValue)
  | string s => exact holdsSimple_singleton (.scalar rfl rfl)
  | emptyArray g =>
      exact holdsSimple_singleton (.sequence fun i hI => nomatch hI)
  | array g v others =>
      rcases along_cons_iff.1 h with ⟨-, hBehind⟩
      rcases along_source_append_iff.1 hBehind with ⟨hV, hOthers⟩
      refine along_cons_iff.2 ⟨.sequence fun i hI => ?_,
        along_source_append_iff.2
          ⟨simple_source hShared.2.1 hFits.1 hV,
            simple_items hShared.2.2 hFits.2 hOthers⟩⟩
      rcases List.mem_cons.1 hI with rfl | hI
      · exact ⟨Nat.lt_succ_self n, lt_size_of_source hV⟩
      · rcases places_items hOthers i hI with ⟨hLe, hLt⟩
        exact ⟨Nat.le_trans (Nat.le_add_right _ _) hLe, hLt⟩
  | emptyObject g =>
      exact holdsSimple_singleton (.mapping
        (fun e hE => nomatch hE) fun e hE => nomatch hE)
  | object g k v others =>
      rcases along_cons_iff.1 h with ⟨-, hBehind⟩
      have hKeyLt := lt_size_of_holds hBehind
      rcases along_cons_iff.1 hBehind with ⟨hKey, hValues⟩
      rcases along_source_append_iff.1 hValues with ⟨hV, hOthers⟩
      refine along_cons_iff.2 ⟨.mapping (fun e hE => ?_)
        fun e hE => ?_, along_cons_iff.2 ⟨simple_key k,
          along_source_append_iff.2
            ⟨simple_source hShared.2.2.1 hFits.1 hV,
              simple_members hShared.2.2.2 hFits.2 hOthers⟩⟩⟩
      · rcases List.mem_cons.1 hE with rfl | hE
        · exact ⟨⟨Nat.lt_succ_self n, hKeyLt⟩,
            ⟨Nat.lt_add_of_pos_right (Nat.succ_pos 1),
              lt_size_of_source hV⟩⟩
        · rcases places_members hOthers e hE with
            ⟨hFirst, hSecond, -⟩
          have hLt : n < n + 2 + v.size := by
            rw [Nat.add_assoc]
            exact Nat.lt_add_of_pos_right (by omega)
          exact ⟨⟨Nat.lt_of_lt_of_le hLt hFirst.1, hFirst.2⟩,
            ⟨Nat.lt_of_lt_of_le hLt hSecond.1, hSecond.2⟩⟩
      · rcases List.mem_cons.1 hE with rfl | hE
        · exact ⟨_, hKey⟩
        · exact (places_members hOthers e hE).2.2

/- So are those of the rest of a shared array. -/
theorem simple_items
    {i : Items}
    {n : Place}
    (hShared : i.IsShared)
    (hFits : i.Fits)
    (h : nodes.Holds n (i.nodes n)) :
    nodes.HoldsSimple n (i.nodes n) := by
  cases i with
  | nil g => exact holdsSimple_nil
  | cons g a v others =>
      rcases along_source_append_iff.1 h with ⟨hV, hOthers⟩
      exact along_source_append_iff.2
        ⟨simple_source hShared.2.2.1 hFits.1 hV,
          simple_items hShared.2.2.2 hFits.2 hOthers⟩

/- So are those of the rest of a shared object. -/
theorem simple_members
    {m : Members}
    {n : Place}
    (hShared : m.IsShared)
    (hFits : m.Fits)
    (h : nodes.Holds n (m.nodes n)) :
    nodes.HoldsSimple n (m.nodes n) := by
  cases m with
  | nil g => exact holdsSimple_nil
  | cons g a k v others =>
      rcases along_cons_iff.1 h with ⟨-, hBehind⟩
      rcases along_source_append_iff.1 hBehind with ⟨hV, hOthers⟩
      exact along_cons_iff.2 ⟨simple_key k,
        along_source_append_iff.2
          ⟨simple_source hShared.2.2.2.1 hFits.1 hV,
            simple_members hShared.2.2.2.2 hFits.2 hOthers⟩⟩

end

theorem holds_toArray (ns : List Node) :
    Holds ns.toArray 0 ns := by
  intro i m hM
  rw [Nat.zero_add, List.getElem?_toArray]
  exact hM

/- The table of a shared value is simple. -/
theorem areSimple_source
    {v : Source}
    (hShared : v.IsShared)
    (hFits : v.Fits) :
    AreSimple (v.nodes 0).toArray := by
  intro place m hM
  rw [List.getElem?_toArray] at hM
  have hSimple := simple_source hShared hFits
    (holds_toArray (v.nodes 0)) place m hM
  rwa [Nat.zero_add] at hSimple

end Nodes

end Yaml

end TypedClient
