import TypedClient.Package.Units
import TypedClient.Proofs.Endpoint.Order

/-
  This file shows that a generation does not depend on the order
  in which a document lists paths, methods and status codes.

  Key theorems include:
    * `Generation.run_eq_of_reorders`
    * `Generation.lists_and_run_eq_of_reorders`
-/

namespace TypedClient

namespace Generation

open Schema (PathItem)

variable {schema other : Schema}

/-
  Schemas up to order are sampled alike against any site, and the
  same units are emitted for them.
-/
theorem run_eq_of_reorders
    (hDistinct : schema.Distinct)
    (h : schema.Reorders other)
    (site : Option Site) : run other site = run schema site := by
  simp only [run, Units.ofSamples,
    Endpoint.ofSchema_eq_of_reorders hDistinct h,
    h.title, h.version]

/-
  The endpoints of a document are listed completely, without
  repetition and in strict order.  Neither the list nor anything
  that is generated from it depends on the order of the document.
-/
theorem lists_and_run_eq_of_reorders
    {d : Document}
    (h : Schema.ofDocument d = .ok schema) :
    Endpoint.Lists (Endpoint.ofSchema schema) schema ∧
      ∀ other, schema.Reorders other →
        Endpoint.ofSchema other = Endpoint.ofSchema schema ∧
          ∀ site, run other site = run schema site := by
  have hDistinct := Schema.distinct_of_ofDocument h
  refine ⟨Endpoint.lists_ofSchema hDistinct, ?_⟩
  intro other hReorders
  exact ⟨Endpoint.ofSchema_eq_of_reorders hDistinct hReorders,
    run_eq_of_reorders hDistinct hReorders⟩

------------------------------------------------------------
-- A document in two orders
------------------------------------------------------------

/- A document with a path that offers two methods. -/
def twoMethodDocument : Document :=
  let offer (name : String) : Document × Document :=
    (.ofString name, .mapping [])
  .mapping
    [(.ofString "paths",
      .mapping
        [(.ofString "/b", .mapping [offer "post", offer "get"]),
          (.ofString "/a", .mapping [offer "get"])])]

/- The schema with a path that offers two methods. -/
def twoMethodSchema : Schema :=
  ⟨"", "",
    [("/b", [(.post, ⟨[], []⟩), (.get, ⟨[], []⟩)]),
      ("/a", [(.get, ⟨[], []⟩)])]⟩

/- The schema with its paths and methods in the other order. -/
def turnedSchema : Schema :=
  ⟨"", "",
    [("/a", [(.get, ⟨[], []⟩)]),
      ("/b", [(.get, ⟨[], []⟩), (.post, ⟨[], []⟩)])]⟩

/- The two schemas differ in their order only. -/
theorem reorders_turnedSchema :
    twoMethodSchema.Reorders turnedSchema where
  title := rfl
  version := rfl
  paths := by
    refine ⟨_, List.Perm.swap _ _ _, ?_⟩
    refine List.Forall₂.cons ⟨rfl, ?_⟩
      (List.Forall₂.cons ⟨rfl, ?_⟩ List.Forall₂.nil)
    · exact PathItem.reorders_of_perm (List.Perm.refl _)
    · exact PathItem.reorders_of_perm (List.Perm.swap _ _ _)

/- The same is generated for both orders of the document. -/
theorem run_turnedSchema :
    Schema.ofDocument twoMethodDocument = .ok twoMethodSchema ∧
      Endpoint.ofSchema turnedSchema =
        Endpoint.ofSchema twoMethodSchema ∧
      ∀ site, run turnedSchema site = run twoMethodSchema site := by
  have hDocument :
      Schema.ofDocument twoMethodDocument = .ok twoMethodSchema :=
    rfl
  exact ⟨hDocument, (lists_and_run_eq_of_reorders hDocument).2 _
    reorders_turnedSchema⟩

end Generation

end TypedClient
