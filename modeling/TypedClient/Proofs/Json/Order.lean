import TypedClient.Json.Basic
import TypedClient.Proofs.Text.Order

/-
  This file shows that the members of an object are listed in the
  order of their keys, each key once.

  Key theorems include:
    * `Json.precedes_sortMembers`
-/

namespace TypedClient

namespace Json

theorem perm_sortMembers (members : List (RawText × Json)) :
    (sortMembers members).Perm members :=
  List.mergeSort_perm members _

theorem pairwise_sortMembers (members : List (RawText × Json)) :
    (sortMembers members).Pairwise fun a b =>
      RawText.ble a.1 b.1 = true :=
  List.pairwise_mergeSort
    (fun a b c => RawText.ble_trans a.1 b.1 c.1)
    (fun a b => RawText.ble_total a.1 b.1) members

/- The members of an object are sorted strictly by their keys. -/
theorem precedes_sortMembers
    {members : List (RawText × Json)}
    (h : (members.map Prod.fst).Nodup) :
    ((sortMembers members).map Prod.fst).Pairwise
      RawText.Precedes := by
  have hSorted := pairwise_sortMembers members
  have hDistinct : ((sortMembers members).map Prod.fst).Nodup :=
    ((perm_sortMembers members).map Prod.fst).nodup_iff.2 h
  have hKeys : ((sortMembers members).map Prod.fst).Pairwise
      fun s t => RawText.ble s t = true :=
    List.pairwise_map.2 hSorted
  exact hKeys.imp₂ (fun s t => RawText.precedes_of_ble) hDistinct

end Json

end TypedClient
