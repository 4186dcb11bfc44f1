import TypedClient.Package.Units
import TypedClient.Proofs.Endpoint.Keys
import TypedClient.Proofs.Sample.Run

/-
  This file describes a generation by what each endpoint brings
  in by itself.  The endpoints of a schema that is read from a
  document have distinct keys, so each of them finds the shape of
  its own response under its key.

  Key definitions include:
    * `Generation.callable`
    * `Generation.own?`
    * `Generation.twinSchema`
    * `Generation.twinSite`

  Key theorems include:
    * `Generation.table_run`
    * `Generation.mem_shapes_run`
    * `Generation.lookup_shapes_run`
-/

namespace TypedClient

namespace Generation

------------------------------------------------------------
-- Contributions
------------------------------------------------------------

/- The endpoints that a generation samples if it has a site. -/
def callable (schema : Schema) : List Endpoint :=
  Sample.eligible (Endpoint.ofSchema schema)

/- What an endpoint brings in by itself, if there is a site. -/
def own?
    (site : Option Site)
    (e : Endpoint) : Option (Shape × Shape.Table) :=
  site.bind fun s => Sample.own? s.server s.base e

/- What is inferred from the reply to an endpoint is its own. -/
theorem own?_of_payload?
    {site : Site}
    {e : Endpoint}
    {value : Json}
    {shape : Shape}
    {own : Shape.Table}
    (hPayload :
      Sample.payload?
          (site.server (Sample.request site.base e).url) =
        some value)
    (hFound :
      Shape.inferResponse e.funcName value .empty =
        ⟨some shape, own⟩) :
    own? (some site) e = some (shape, own) := by
  simp [own?, Sample.own?, hPayload, hFound]

/- The table of a generation has merged what was brought in. -/
theorem table_run
    (schema : Schema)
    (site : Option Site) :
    (run schema site).sampling.table =
      Shape.Table.empty.mergeAll
        (((callable schema).filterMap (own? site)).map
          Prod.snd) := by
  cases site with
  | none =>
      have hNone : own? none = fun _ => none := rfl
      simp [run, sample, hNone, Shape.Table.mergeAll]
  | some s => exact Sample.table_takeEach _ _ _ _

/- The shapes of a generation are those that were brought in. -/
theorem shapes_run
    (schema : Schema)
    (site : Option Site) :
    (run schema site).units.shapes =
      (callable schema).filterMap fun e =>
        (own? site e).map fun own => (e.key, own.1) := by
  cases site with
  | none =>
      simp [run, sample, Units.ofSamples, Sample.shapes, own?]
  | some s => exact Sample.shapes_takeEach _ _ _ _

/- The table of a generation is reachable. -/
theorem reachable_table_run
    (schema : Schema)
    (site : Option Site) :
    Shape.Reachable (run schema site).sampling.table := by
  cases site with
  | none => exact .empty
  | some s =>
      refine Sample.reachable_takeEach .empty fun e he => ?_
      have hMem := (List.mem_filter.1 he).1
      rcases Endpoint.exists_method_of_mem_ofSchema hMem with
        ⟨m, _, hName⟩
      exact ⟨m, hName⟩

theorem endpoints_samples_run
    (schema : Schema)
    (s : Site) :
    (run schema (some s)).sampling.samples.map Sample.endpoint =
      callable schema :=
  Sample.endpoints_takeEach _ _ _ _

/- A sample is fine if its endpoint brings in a shape. -/
theorem isOk_of_mem_samples_run
    {schema : Schema}
    {site : Site}
    {s : Sample}
    (h : s ∈ (run schema (some site)).sampling.samples) :
    s.isOk = (own? (some site) s.endpoint).isSome :=
  Sample.isOk_of_mem_takeEach h

/- A shape is brought in by an endpoint with the key. -/
theorem mem_shapes_run
    {schema : Schema}
    {site : Option Site}
    {k : RawText}
    {shape : Shape} :
    (k, shape) ∈ (run schema site).units.shapes ↔
      ∃ e ∈ callable schema, e.key = k ∧
        ∃ own, own? site e = some (shape, own) := by
  rw [shapes_run, List.mem_filterMap]
  constructor
  · rintro ⟨e, he, hFound⟩
    rcases Option.map_eq_some_iff.1 hFound with
      ⟨⟨found, own⟩, hOwn, hEq⟩
    cases hEq
    exact ⟨e, he, rfl, own, hOwn⟩
  · rintro ⟨e, he, rfl, own, hOwn⟩
    exact ⟨e, he, by rw [hOwn]; rfl⟩

------------------------------------------------------------
-- Keys
------------------------------------------------------------

/- Under distinct keys, look-up finds each pair. -/
theorem lookup_of_mem
    {α : Type}
    {pairs : List (RawText × α)}
    (hKeys : (pairs.map Prod.fst).Nodup)
    {k : RawText}
    {a : α}
    (h : (k, a) ∈ pairs) : pairs.lookup k = some a := by
  rcases List.append_of_mem h with ⟨front, behind, rfl⟩
  refine List.lookup_eq_some_iff.2 ⟨front, behind, rfl, ?_⟩
  intro p hp
  rw [List.map_append, List.map_cons] at hKeys
  have hDistinct := (List.nodup_append.1 hKeys).2.2 p.1
    (List.mem_map_of_mem hp) k List.mem_cons_self
  simpa using Ne.symm hDistinct

/- The keys of shapes are keys of sampled endpoints, in order. -/
theorem keys_shapes_run_sublist
    (schema : Schema)
    (site : Option Site) :
    ((run schema site).units.shapes.map Prod.fst).Sublist
      ((callable schema).map Endpoint.key) := by
  rw [shapes_run]
  induction callable schema with
  | nil => exact List.Sublist.slnil
  | cons e es ih =>
      rw [List.filterMap_cons]
      cases own? site e with
      | none => exact ih.cons e.key
      | some own => exact ih.cons_cons e.key

/- Endpoints that are sampled have distinct keys. -/
theorem nodup_keys_callable
    {schema : Schema}
    (h : schema.Distinct) :
    ((callable schema).map Endpoint.key).Nodup :=
  (Endpoint.nodup_keys_ofSchema h).sublist
    (List.filter_sublist.map Endpoint.key)

theorem nodup_keys_shapes_run
    {schema : Schema}
    (h : schema.Distinct)
    (site : Option Site) :
    ((run schema site).units.shapes.map Prod.fst).Nodup := by
  exact (nodup_keys_callable h).sublist
    (keys_shapes_run_sublist schema site)

/- An endpoint finds the shape that it brought in. -/
theorem lookup_shapes_run
    {schema : Schema}
    (h : schema.Distinct)
    {site : Option Site}
    {k : RawText}
    {shape : Shape} :
    (run schema site).units.shapes.lookup k = some shape ↔
      (k, shape) ∈ (run schema site).units.shapes := by
  constructor
  · intro hLookup
    rcases List.lookup_eq_some_iff.1 hLookup with
      ⟨front, behind, hShapes, _⟩
    rw [hShapes]
    simp
  · exact lookup_of_mem (nodup_keys_shapes_run h site)

------------------------------------------------------------
-- Two paths of one name
------------------------------------------------------------

/- A document with two paths that derive the same name. -/
def twinDocument : Document :=
  let item : Document :=
    .mapping [(.ofString "get", .mapping [])]
  .mapping
    [(.ofString "paths",
      .mapping
        [(.ofString "/a/b", item), (.ofString "/a-b", item)])]

/- The schema with two paths that derive the same name. -/
def twinSchema : Schema :=
  let item : Schema.PathItem := [(.get, ⟨[], []⟩)]
  ⟨"", "", [("/a/b", item), ("/a-b", item)]⟩

/- The text of an object with a number under a key. -/
def twinBody (key : Char) : List Char :=
  ['{', '"', key, '"', ':', '1', '}']

/- The response that brings the object in. -/
def twinReply (key : Char) : Reply :=
  let body := (twinBody key).map fun c => UInt8.ofNat c.toNat
  .response ⟨200, body, .zero false⟩

/- A site that replies to the two paths with two objects. -/
def twinSite : Site :=
  { server := fun url =>
      if url = "/a/b" then twinReply 'x' else twinReply 'y'
    base := "" }

theorem ofDocument_twinDocument :
    Schema.ofDocument twinDocument = .ok twinSchema := by
  rfl

end Generation

end TypedClient
