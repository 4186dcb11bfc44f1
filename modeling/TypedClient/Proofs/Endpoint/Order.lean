import Mathlib.Data.Prod.Lex
import Mathlib.Data.String.Basic
import TypedClient.Proofs.Endpoint.Keys
import TypedClient.Proofs.Schema.Reordering
import TypedClient.Proofs.Text.Order

/-
  This file shows that the emission order of endpoints is strict:
  section, path and method tell any two endpoints of a schema
  apart.  Hence the order does not depend on the order in which a
  schema lists its paths and their methods.

  Key definitions include:
    * `Endpoint.rank`
    * `Endpoint.Lists`

  Key theorems include:
    * `Endpoint.pairwise_rank_of_nodup`
    * `Endpoint.lists_ofSchema`
    * `Endpoint.ofSchema_eq_of_reorders`
-/

namespace TypedClient

namespace Endpoint

variable {schema other : Schema}

------------------------------------------------------------
-- Ranks
------------------------------------------------------------

/-
  The section, path and method, in lexicographic order, where
  texts are ordered by code point.
-/
def rank (e : Endpoint) : List Nat ×ₗ List Nat ×ₗ String :=
  toLex (e.group.codes, toLex (e.path.codes, e.method))

/- Endpoints precede each other in the order of their ranks. -/
theorem precedes_iff
    (a b : Endpoint) : precedes a b = true ↔ rank a ≤ rank b := by
  have hBefore : ∀ {s t : RawText}, s ≠ t →
      (s.codes < t.codes ↔ RawText.ble s t = true) := by
    intro s t hNe
    rw [RawText.ble_iff]
    exact ⟨le_of_lt, fun hLe => lt_of_le_of_ne hLe fun hEq =>
      hNe (RawText.codes_injective hEq)⟩
  rw [rank, rank, Prod.Lex.toLex_le_toLex,
    Prod.Lex.toLex_le_toLex, precedes]
  by_cases hGroup : a.group = b.group
  · by_cases hPath : a.path = b.path
    · simp [hGroup, hPath]
    · have hCodes : a.path.codes ≠ b.path.codes := fun hEq =>
        hPath (RawText.codes_injective hEq)
      simp [hGroup, hPath, hCodes, hBefore hPath]
  · have hCodes : a.group.codes ≠ b.group.codes := fun hEq =>
      hGroup (RawText.codes_injective hEq)
    simp [hGroup, hCodes, hBefore hGroup]

/- Endpoints of one rank have the same key. -/
theorem key_eq_of_rank_eq
    {a b : Endpoint}
    (h : rank a = rank b) : a.key = b.key := by
  have hParts : a.path = b.path ∧ a.method = b.method := by
    simp only [rank, toLex_inj, Prod.mk.injEq] at h
    exact ⟨RawText.codes_injective h.2.1, h.2.2⟩
  rw [key, key, hParts.1, hParts.2]

/- Endpoints with distinct keys are emitted in strict order. -/
theorem pairwise_rank_of_nodup
    (h : ((ofSchema schema).map key).Nodup) :
    (ofSchema schema).Pairwise fun a b => rank a < rank b := by
  have hSorted : (ofSchema schema).Pairwise
      fun a b => precedes a b = true := by
    apply List.pairwise_mergeSort
    · intro a b c hFirst hSecond
      rw [precedes_iff] at hFirst hSecond ⊢
      exact hFirst.trans hSecond
    · intro a b
      rw [Bool.or_eq_true, precedes_iff, precedes_iff]
      exact le_total _ _
  refine hSorted.imp₂ ?_ (List.pairwise_map.1 h)
  intro a b hLe hNe
  refine lt_of_le_of_ne ((precedes_iff a b).1 hLe) fun hEq => ?_
  exact hNe (key_eq_of_rank_eq hEq)

------------------------------------------------------------
-- One endpoint for each path and method
------------------------------------------------------------

/-
  For each method of each path, exactly one endpoint of a schema
  is found: the one of its operation.
-/
theorem filter_ofSchema
    (h : schema.Distinct)
    {item : RawText × Schema.PathItem}
    (hItem : item ∈ schema.paths)
    {operation : Schema.Method × Schema.Operation}
    (hOperation : operation ∈ item.2) :
    ((ofSchema schema).filter fun e =>
        e.path = item.1 && e.method = operation.1.verb) =
      [ofOperation item.1 operation.1 operation.2] := by
  have hMem : ofOperation item.1 operation.1 operation.2 ∈
      ofSchema schema :=
    mem_ofSchema.2 ⟨item, hItem, operation, hOperation, rfl⟩
  have hKeys := nodup_keys_ofSchema h
  have hSame : ∀ e ∈ ofSchema schema,
      (e.path = item.1 && e.method = operation.1.verb) =
        decide (e =
          ofOperation item.1 operation.1 operation.2) := by
    intro e he
    rw [Bool.eq_iff_iff, Bool.and_eq_true, decide_eq_true_iff,
      decide_eq_true_iff, decide_eq_true_iff]
    constructor
    · rintro ⟨hPath, hMethod⟩
      refine List.inj_on_of_nodup_map hKeys he hMem ?_
      rw [key, hPath, hMethod]
      rfl
    · rintro rfl
      exact ⟨rfl, rfl⟩
  rw [List.filter_congr hSame, List.filter_eq,
    List.count_eq_one_of_mem (hKeys.of_map key) hMem]
  rfl

/-
  Endpoints that are those of a schema: exactly one for each
  method of each path, no others, and no two with one key, in
  strict order of their ranks.
-/
structure Lists (es : List Endpoint) (schema : Schema) : Prop where
  each : ∀ item ∈ schema.paths, ∀ operation ∈ item.2,
    (es.filter fun e =>
        e.path = item.1 && e.method = operation.1.verb) =
      [ofOperation item.1 operation.1 operation.2]
  only : ∀ e ∈ es,
    ∃ item ∈ schema.paths, ∃ operation ∈ item.2,
      e = ofOperation item.1 operation.1 operation.2
  keys : (es.map key).Nodup
  increasing : es.Pairwise fun a b => rank a < rank b

/- A schema that lists nothing twice has its endpoints listed. -/
theorem lists_ofSchema
    (h : schema.Distinct) : Lists (ofSchema schema) schema where
  each _ hItem _ hOperation := filter_ofSchema h hItem hOperation
  only _ he := mem_ofSchema.1 he
  keys := nodup_keys_ofSchema h
  increasing := pairwise_rank_of_nodup (nodup_keys_ofSchema h)

------------------------------------------------------------
-- Declaration order
------------------------------------------------------------

theorem perm_declared_of_reorders
    (h : schema.Reorders other) :
    (declared schema).Perm (declared other) := by
  refine h.paths.flatMap fun item other hItem => ?_
  refine hItem.2.map fun a b hOperation => ?_
  simp only [ofOperation, hItem.1, hOperation.1,
    hOperation.2.parameters]

/- Schemas up to order have the same endpoints, in one order. -/
theorem ofSchema_eq_of_reorders
    (hDistinct : schema.Distinct)
    (h : schema.Reorders other) :
    ofSchema other = ofSchema schema := by
  have hPerm : (ofSchema other).Perm (ofSchema schema) :=
    ((perm_declared schema).trans
      ((perm_declared_of_reorders h).trans
        (perm_declared other).symm)).symm
  have hKeys := nodup_keys_ofSchema hDistinct
  have hOther := (hPerm.map key).nodup_iff.2 hKeys
  refine List.Perm.eq_of_pairwise ?_
    (pairwise_rank_of_nodup hOther)
    (pairwise_rank_of_nodup hKeys) hPerm
  -- the order is strict, so no two endpoints precede each other
  intro a b _ _ hLt hGt
  exact absurd hGt (lt_asymm hLt)

end Endpoint

end TypedClient
