import TypedClient.Proofs.Emit.ClientSpacing
import TypedClient.Proofs.Package.Collision
import TypedClient.Proofs.Package.Unreadable

/-
  This file shows that formatting changes nothing in what is
  generated: neither in models of a table that inference leads
  to, nor in a client of endpoints whose paths no character
  breaks.

  Key definitions include:
    * `Shape.IsResponse`

  Key theorems include:
    * `Shape.IsResponse.isPascal`
    * `Emit.staysAsIs_models_of_reachable`
    * `Emit.staysAsIs_client_ofSchema`
    * `Generation.isResponse_of_mem_shapes_run`
    * `Generation.formatting_keeps_units`
-/

namespace TypedClient

open Source (StaysAsIs)

------------------------------------------------------------
-- Shapes of responses
------------------------------------------------------------

/- A shape that is inferred from a response of some endpoint. -/
def Shape.IsResponse (s : Shape) : Prop :=
  ∃ (m : Schema.Method) (path : RawText) (value : Json)
      (table : Shape.Table),
    value.WellFormed ∧
      (Shape.inferResponse (Endpoint.funcNameOf m.text path) value
        table).result = some s

/- The shape of a response refers to records with names. -/
theorem Shape.IsResponse.isPascal
    {s : Shape}
    {n : String}
    (h : s.IsResponse)
    (hn : n ∈ s.references) : Name.IsPascal n := by
  rcases h with ⟨m, path, value, table, hValue, hShape⟩
  rw [Shape.inferResponse_eq_onto] at hShape
  have hFound :=
    (Shape.closed_findResponse _ value).result s hShape n hn
  rcases List.mem_map.1 hFound.1 with ⟨r, hr, rfl⟩
  exact (Shape.wellFormed_of_mem_findResponse m path hValue
    r hr).name

------------------------------------------------------------
-- Units
------------------------------------------------------------

namespace Emit

/- Formatting leaves the models of a reachable table as they are. -/
theorem staysAsIs_models_of_reachable
    {table : Shape.Table}
    (h : Shape.Reachable table)
    (title version : RawText) :
    StaysAsIs (models table.records title version) := by
  refine staysAsIs_models h.wellFormed ?_ title version
  intro r hr f hf n hn
  exact printable_of_isPascal
    (h.isPascal_of_mem_references hr hf hn)

/- Formatting leaves the client of a schema as it is. -/
theorem staysAsIs_client_ofSchema
    {schema : Schema}
    {shapes : List (RawText × Shape)}
    (hShapes : ∀ k s, (k, s) ∈ shapes → s.IsResponse)
    (hSome : Endpoint.ofSchema schema ≠ [])
    (hPaths : ∀ e ∈ Endpoint.ofSchema schema,
      IsUnbroken e.path) :
    StaysAsIs (client (Endpoint.ofSchema schema) shapes) := by
  have hPrintable := printable_ofSchema schema
  refine staysAsIs_client hSome
    ⟨hPrintable.1, hPaths, hPrintable.2, ?_⟩
  intro e _ r hRecord
  have hResponse := hShapes _ _ (mem_of_responseRecord? hRecord)
  exact printable_of_isPascal
    (hResponse.isPascal (List.mem_singleton.2 rfl))

end Emit

------------------------------------------------------------
-- Generations
------------------------------------------------------------

namespace Generation

variable {schema : Schema}
variable {site : Option Site}

/- The shapes of a generation are those of responses. -/
theorem isResponse_of_mem_shapes_run
    {k : RawText}
    {s : Shape}
    (h : (k, s) ∈ (run schema site).units.shapes) :
    s.IsResponse := by
  rcases mem_shapes_run.1 h with ⟨e, he, _, own, hOwn⟩
  rcases Option.bind_eq_some_iff.1 hOwn with
    ⟨asked, _, hSample⟩
  rcases Sample.own?_eq_some hSample with
    ⟨value, hPayload, hFound⟩
  have hMem := (List.mem_filter.1 he).1
  rcases Endpoint.exists_method_of_mem_ofSchema hMem with
    ⟨m, _, hName⟩
  refine ⟨m, e.path, value, .empty,
    Sample.wellFormed_of_payload? hPayload, ?_⟩
  rw [← hName, hFound]

theorem staysAsIs_models_run
    (schema : Schema)
    (site : Option Site) :
    StaysAsIs (run schema site).units.models :=
  Emit.staysAsIs_models_of_reachable
    (reachable_table_run schema site) schema.title schema.version

theorem staysAsIs_client_run
    (hSome : Endpoint.ofSchema schema ≠ [])
    (hPaths : ∀ e ∈ Endpoint.ofSchema schema,
      Emit.IsUnbroken e.path) :
    StaysAsIs (run schema site).units.client :=
  Emit.staysAsIs_client_ofSchema
    (fun _ _ => isResponse_of_mem_shapes_run) hSome hPaths

/-
  Formatting never changes units.  The models of a table that is
  led to by responses and merges are left as they are, whatever
  title and version there is, and so is the client of a schema
  with endpoints, whatever shapes its responses have, unless a
  character in a path ends a line.  The units of generations are
  such units.
-/
theorem formatting_keeps_units :
    (∀ table title version, Shape.Reachable table →
      StaysAsIs (Emit.models table.records title version)) ∧
      (∀ schema shapes,
        (∀ k s, (k, s) ∈ shapes → s.IsResponse) →
          Endpoint.ofSchema schema ≠ [] →
            (∀ e ∈ Endpoint.ofSchema schema,
              Emit.IsUnbroken e.path) →
              StaysAsIs
                (Emit.client (Endpoint.ofSchema schema) shapes)) ∧
      ∀ schema site,
        StaysAsIs (run schema site).units.models ∧
          (Endpoint.ofSchema schema ≠ [] →
            (∀ e ∈ Endpoint.ofSchema schema,
              Emit.IsUnbroken e.path) →
              StaysAsIs (run schema site).units.client) :=
  ⟨fun _ title version h =>
      Emit.staysAsIs_models_of_reachable h title version,
    fun _ _ hShapes hSome hPaths =>
      Emit.staysAsIs_client_ofSchema hShapes hSome hPaths,
    fun schema site => ⟨staysAsIs_models_run schema site,
      fun hSome hPaths => staysAsIs_client_run hSome hPaths⟩⟩

/- A schema with two methods, and a response of one of them. -/
theorem formatting_keeps_units_twins :
    Shape.Reachable
        (run twinSchema (some twinSite)).sampling.table ∧
      ((twin "/a/b").key, Shape.record "ABResponse") ∈
        (run twinSchema (some twinSite)).units.shapes ∧
      Endpoint.ofSchema twinSchema ≠ [] ∧
      (∀ e ∈ Endpoint.ofSchema twinSchema,
        Emit.IsUnbroken e.path) ∧
      StaysAsIs (Emit.models
        (run twinSchema (some twinSite)).sampling.table.records
          "Twins" "1.0") ∧
      StaysAsIs (Emit.client (Endpoint.ofSchema twinSchema)
        (run twinSchema (some twinSite)).units.shapes) := by
  have hTable := reachable_table_run twinSchema (some twinSite)
  have hShape : ((twin "/a/b").key, Shape.record "ABResponse") ∈
      (run twinSchema (some twinSite)).units.shapes :=
    mem_shapes_run.2 ⟨twin "/a/b",
      callable_twinSchema ▸ List.mem_cons_self, rfl, _,
      own?_twin_x⟩
  have hSome : Endpoint.ofSchema twinSchema ≠ [] := by
    rw [ofSchema_twinSchema]
    exact List.cons_ne_nil _ _
  have hPaths : ∀ e ∈ Endpoint.ofSchema twinSchema,
      Emit.IsUnbroken e.path := by
    rw [ofSchema_twinSchema]
    have hSlash : Emit.IsUnbroken (twin "/a/b").path :=
      Emit.isUnbroken_of_printable (by decide)
    have hDash : Emit.IsUnbroken (twin "/a-b").path :=
      Emit.isUnbroken_of_printable (by decide)
    exact List.forall_mem_cons.2
      ⟨hSlash, List.forall_mem_singleton.2 hDash⟩
  exact ⟨hTable, hShape, hSome, hPaths,
    formatting_keeps_units.1 _ "Twins" "1.0" hTable,
    formatting_keeps_units.2.1 twinSchema _
      (fun _ _ => isResponse_of_mem_shapes_run) hSome hPaths⟩

end Generation

end TypedClient
