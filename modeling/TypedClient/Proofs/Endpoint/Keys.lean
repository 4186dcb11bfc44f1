import Mathlib.Data.List.Nodup
import TypedClient.Proofs.Endpoint.Names
import TypedClient.Proofs.Schema.Distinct
import TypedClient.Proofs.Text.Raw

/-
  This file shows that the keys of endpoints tell them apart: a
  key determines the method and the path, and a schema that lists
  nothing twice has one endpoint for each method and path.

  Key theorems include:
    * `Endpoint.keyOf_injective`
    * `Endpoint.nodup_keys_ofSchema`
-/

namespace TypedClient

namespace Endpoint

------------------------------------------------------------
-- Keys
------------------------------------------------------------

/- A list is cut at the first of an element in one way. -/
theorem append_cons_injective
    {α : Type}
    {c : α}
    {front other behind rest : List α}
    (hFront : c ∉ front)
    (hOther : c ∉ other)
    (h : front ++ c :: behind = other ++ c :: rest) :
    front = other ∧ behind = rest := by
  induction front generalizing other with
  | nil =>
      cases other with
      | nil => exact ⟨rfl, (List.cons.inj h).2⟩
      | cons d ds =>
          exact (hOther ((List.cons.inj h).1 ▸
            List.mem_cons_self)).elim
  | cons b bs ih =>
      cases other with
      | nil =>
          exact (hFront ((List.cons.inj h).1 ▸
            List.mem_cons_self)).elim
      | cons d ds =>
          have hTail := ih
            (fun hMem => hFront (List.mem_cons_of_mem b hMem))
            (fun hMem => hOther (List.mem_cons_of_mem d hMem))
            (List.cons.inj h).2
          rw [(List.cons.inj h).1, hTail.1, hTail.2]
          exact ⟨rfl, rfl⟩

/- The text of a method in requests determines the method. -/
theorem verb_injective
    {m n : Schema.Method}
    (h : m.verb = n.verb) : m = n := by
  revert h
  cases m <;> cases n <;> decide

theorem blank_not_mem_verb (m : Schema.Method) :
    ' ' ∉ m.verb.toList := by
  cases m <;> decide

/- A key determines the method and the path. -/
theorem keyOf_injective
    {m n : Schema.Method}
    {path other : RawText}
    (h : keyOf m.verb path = keyOf n.verb other) :
    m = n ∧ path = other := by
  have hPoints : RawText.ofString m.verb ++ .scalar ' ' :: path =
      RawText.ofString n.verb ++ .scalar ' ' :: other := by
    rw [keyOf, keyOf, RawText.ofString_append,
      RawText.ofString_append, List.append_assoc,
      List.append_assoc] at h
    exact h
  have hBlank (m : Schema.Method) :
      .scalar ' ' ∉ RawText.ofString m.verb :=
    mt RawText.scalar_mem_ofString.1 (blank_not_mem_verb m)
  rcases append_cons_injective (hBlank m) (hBlank n) hPoints with
    ⟨hVerb, hPath⟩
  exact ⟨verb_injective (RawText.ofString_injective hVerb), hPath⟩

------------------------------------------------------------
-- Endpoints of schemas
------------------------------------------------------------

/- The endpoints of a schema that lists nothing twice differ. -/
theorem nodup_keys_ofSchema
    {schema : Schema}
    (h : schema.Distinct) :
    ((ofSchema schema).map key).Nodup := by
  have hPerm := (perm_declared schema).map key
  apply hPerm.nodup_iff.2
  rw [declared, List.map_flatMap, List.nodup_flatMap]
  constructor
  · -- the methods of one path
    intro item hItem
    rw [List.map_map]
    have hMethods := h.methods item hItem
    refine List.Pairwise.map _ (fun a b hNe hEq => ?_)
      (List.pairwise_map.1 hMethods)
    exact hNe (keyOf_injective hEq).1
  · -- two paths
    refine (List.pairwise_map.1 h.paths).imp fun hNe => ?_
    intro k hFirst hSecond
    simp only [List.map_map, List.mem_map] at hFirst hSecond
    rcases hFirst with ⟨a, _, rfl⟩
    rcases hSecond with ⟨b, _, hEq⟩
    exact hNe (keyOf_injective hEq).2.symm

end Endpoint

end TypedClient
