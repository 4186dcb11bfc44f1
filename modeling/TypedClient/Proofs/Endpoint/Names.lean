import TypedClient.Endpoint.Basic
import TypedClient.Proofs.Name.Form

/-
  This file shows where the endpoints of a schema come from, and
  that the name of every endpoint is in Pascal case, whatever
  characters its path has.

  Key definitions include:
    * `Endpoint.declared`

  Key theorems include:
    * `Endpoint.mem_ofSchema`
    * `Endpoint.isPascal_pathName`
    * `Endpoint.isPascal_funcNameOf`
-/

namespace TypedClient

namespace Endpoint

------------------------------------------------------------
-- Names
------------------------------------------------------------

/- The name of a path is in Pascal case. -/
theorem isPascal_pathName (path : RawText) :
    Name.IsPascal (pathName path) :=
  Name.isPascal_guardDigit_pascal _

/- The text of a method in capitals is its text in requests. -/
theorem capitals_text (m : Schema.Method) :
    capitals m.text = m.verb := by
  cases m <;> decide

theorem isPascal_title_verb (m : Schema.Method) :
    Name.IsPascal (String.ofList (Text.title m.verb.toList)) := by
  cases m <;> decide

/- The name of a method and a path is in Pascal case. -/
theorem isPascal_funcNameOf
    (m : Schema.Method)
    (path : RawText) : Name.IsPascal (funcNameOf m.text path) := by
  have hPath := isPascal_pathName path
  simp only [funcNameOf, capitals_text]
  split
  · exact hPath
  · exact (isPascal_title_verb m).append hPath.isAlphanum

------------------------------------------------------------
-- Origin
------------------------------------------------------------

/- The endpoints of a schema, in the order of declaration. -/
def declared (schema : Schema) : List Endpoint :=
  schema.paths.flatMap fun item =>
    item.2.map fun operation =>
      ofOperation item.1 operation.1 operation.2

/- Endpoints are emitted as they are declared, up to order. -/
theorem perm_declared (schema : Schema) :
    (ofSchema schema).Perm (declared schema) :=
  List.mergeSort_perm _ _

/- The endpoints of a schema are those of its operations. -/
theorem mem_ofSchema
    {schema : Schema}
    {e : Endpoint} :
    e ∈ ofSchema schema ↔
      ∃ item ∈ schema.paths, ∃ operation ∈ item.2,
        e = ofOperation item.1 operation.1 operation.2 := by
  rw [(perm_declared schema).mem_iff, declared, List.mem_flatMap]
  constructor
  · rintro ⟨item, hItem, hMem⟩
    rcases List.mem_map.1 hMem with ⟨operation, hOperation, hEq⟩
    exact ⟨item, hItem, operation, hOperation, hEq.symm⟩
  · rintro ⟨item, hItem, operation, hOperation, hEq⟩
    exact ⟨item, hItem,
      List.mem_map.2 ⟨operation, hOperation, hEq.symm⟩⟩

/- An endpoint of a schema has one of the methods. -/
theorem exists_method_of_mem_ofSchema
    {schema : Schema}
    {e : Endpoint}
    (h : e ∈ ofSchema schema) :
    ∃ m : Schema.Method, e.method = m.verb ∧
      e.funcName = funcNameOf m.text e.path := by
  rcases mem_ofSchema.1 h with ⟨item, _, operation, _, rfl⟩
  exact ⟨operation.1, rfl, rfl⟩

end Endpoint

end TypedClient
