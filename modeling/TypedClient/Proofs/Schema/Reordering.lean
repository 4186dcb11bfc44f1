import Mathlib.Data.List.Forall2
import TypedClient.Schema.Basic

/-
  This file says when two schemas differ in the order of their
  mappings only: the paths, the methods of a path, and the status
  codes of an operation may be listed in any order.

  Key definitions include:
    * `Schema.Reordered`
    * `Schema.Reorders`

  Key theorems include:
    * `Schema.Reordered.map`
    * `Schema.Reordered.flatMap`
-/

namespace TypedClient

namespace Schema

------------------------------------------------------------
-- Lists
------------------------------------------------------------

variable {α β γ : Type}
variable {R : α → β → Prop}
variable {xs : List α}
variable {ys : List β}

/- Lists of elements that are related up to their order. -/
def Reordered
    (R : α → β → Prop)
    (xs : List α)
    (ys : List β) : Prop :=
  ∃ zs : List α, xs.Perm zs ∧ List.Forall₂ R zs ys

namespace Reordered

theorem of_perm
    {R : α → α → Prop}
    {xs ys : List α}
    (hR : ∀ a, R a a)
    (h : xs.Perm ys) : Reordered R xs ys :=
  ⟨ys, h, List.forall₂_same.2 fun a _ => hR a⟩

/- What related elements have in common, they have in any order. -/
theorem map
    {f : α → γ}
    {g : β → γ}
    (hR : ∀ a b, R a b → f a = g b)
    (h : Reordered R xs ys) : (xs.map f).Perm (ys.map g) := by
  rcases h with ⟨zs, hPerm, hRelated⟩
  refine (hPerm.map f).trans (List.Perm.of_eq ?_)
  induction hRelated generalizing xs with
  | nil => rfl
  | cons hFirst _ ih =>
      rw [List.map_cons, List.map_cons, hR _ _ hFirst,
        ih (List.Perm.refl _)]

/- Lists that related elements bring are joined in any order. -/
theorem flatMap
    {f : α → List γ}
    {g : β → List γ}
    (hR : ∀ a b, R a b → (f a).Perm (g b))
    (h : Reordered R xs ys) :
    (xs.flatMap f).Perm (ys.flatMap g) := by
  rcases h with ⟨zs, hPerm, hRelated⟩
  refine (hPerm.flatMap_right f).trans ?_
  induction hRelated generalizing xs with
  | nil => exact List.Perm.refl []
  | cons hFirst _ ih =>
      rw [List.flatMap_cons, List.flatMap_cons]
      exact (hR _ _ hFirst).append (ih (List.Perm.refl _))

end Reordered

------------------------------------------------------------
-- Schemas
------------------------------------------------------------

/- Operations that may list their status codes differently. -/
structure Operation.Reorders
    (operation other : Operation) : Prop where
  parameters : operation.parameters = other.parameters
  codes : operation.codes.Perm other.codes

/- Paths that may list their methods differently. -/
def PathItem.Reorders (item other : PathItem) : Prop :=
  Reordered (fun a b => a.1 = b.1 ∧ a.2.Reorders b.2) item other

theorem PathItem.reorders_of_perm
    {item other : PathItem}
    (h : item.Perm other) : PathItem.Reorders item other :=
  Reordered.of_perm
    (fun _ => ⟨rfl, rfl, List.Perm.refl _⟩) h

/- Schemas that may list what they have in different orders. -/
structure Reorders (schema other : Schema) : Prop where
  title : schema.title = other.title
  version : schema.version = other.version
  paths :
    Reordered (fun a b => a.1 = b.1 ∧ PathItem.Reorders a.2 b.2)
      schema.paths other.paths

end Schema

end TypedClient
