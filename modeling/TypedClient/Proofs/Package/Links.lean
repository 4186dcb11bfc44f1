import TypedClient.Proofs.Emit.Imports
import TypedClient.Proofs.Package.Run

/-
  This file shows that all references in a generation lead to
  records that it defines: those of the shapes of responses,
  those between records, and those of the client to the models.
  A sample that fails leaves nothing behind, and a record that
  replaces another one keeps its name in the table.

  Key definitions include:
    * `Generation.Linked`

  Key theorems include:
    * `Generation.mem_decodedRecords_run`
    * `Generation.classNames_run`
    * `Generation.importedNames_run`
    * `Generation.linked_run`
-/

namespace TypedClient

namespace Generation

/-
  A generation in which no reference dangles.  The shapes of
  responses and the fields of records refer to records of the
  table, and fields to those of longer names only, hence without
  cycles.  The models define one class for each record of the
  table, in order.  The client imports the records that responses
  have for shapes, each once, in order; if there are none, it has
  no such import.
-/
structure Linked (g : Generation) : Prop where
  shapes : ∀ k shape, (k, shape) ∈ g.units.shapes →
    ∀ n ∈ shape.references, ∃ r,
      g.sampling.table.get? n = some r
  fields : ∀ r ∈ g.sampling.table.records, ∀ f ∈ r.fields,
    ∀ n ∈ f.shape.references,
      (∃ s, g.sampling.table.get? n = some s) ∧
        Shape.Extends r.name n
  acyclic : ∀ n,
    ¬ Relation.TransGen g.sampling.table.Refers n n
  classes : Emit.classNames g.units.models =
    g.sampling.table.records.map Shape.Record.name
  classes_ascend :
    (Emit.classNames g.units.models).Pairwise (· < ·)
  imports : ∀ n,
    n ∈ Emit.importedNames g.units.client ↔
      ∃ k, (k, Shape.record n) ∈ g.units.shapes
  imports_ascend :
    (Emit.importedNames g.units.client).Pairwise (· < ·)
  imports_defined :
    Emit.importedNames g.units.client ⊆
      Emit.classNames g.units.models
  import_needed :
    RawText.ofString Emit.importMark ∈
        Emit.preambleOf g.units.client ↔
      ∃ k n, (k, Shape.record n) ∈ g.units.shapes

variable {schema : Schema}
variable {site : Option Site}

/- The shape of a response refers to records of the table. -/
theorem references_subset_names_run
    {k : RawText}
    {shape : Shape}
    (h : (k, shape) ∈ (run schema site).units.shapes) :
    shape.references ⊆ (run schema site).sampling.table.names := by
  rcases mem_shapes_run.1 h with ⟨e, he, _, own, hOwn⟩
  have hTable : own ∈
      ((callable schema).filterMap (own? site)).map Prod.snd :=
    List.mem_map.2
      ⟨_, List.mem_filterMap.2 ⟨e, he, hOwn⟩, rfl⟩
  rcases Option.bind_eq_some_iff.1 hOwn with ⟨s, _, hSample⟩
  rcases Sample.own?_eq_some hSample with ⟨value, _, hFound⟩
  have hReferences := Shape.references_inferResponse
    (congrArg Shape.Inference.result hFound)
  rw [hFound] at hReferences
  intro n hn
  rw [table_run]
  exact Shape.Table.mem_names_mergeAll.2
    (Or.inl ⟨own, hTable, hReferences hn⟩)

theorem isPascal_of_mem_names_run
    {n : String}
    (h : n ∈ (run schema site).sampling.table.names) :
    Name.IsPascal n := by
  rcases List.mem_map.1 h with ⟨r, hr, rfl⟩
  exact ((reachable_table_run schema site).wellFormed r hr).name

/- A record that a response has for its shape has a name. -/
theorem isPascal_of_mem_shapes_run
    {k : RawText}
    {n : String}
    (h : (k, Shape.record n) ∈ (run schema site).units.shapes) :
    Name.IsPascal n :=
  isPascal_of_mem_names_run
    (references_subset_names_run h (List.mem_singleton.2 rfl))

/- The records that a client decodes are shapes of responses. -/
theorem mem_decodedRecords_run
    (h : schema.Distinct)
    {n : String} :
    n ∈ Emit.decodedRecords (run schema site).endpoints
        (run schema site).units.shapes ↔
      ∃ k, (k, Shape.record n) ∈
        (run schema site).units.shapes := by
  rw [Emit.mem_decodedRecords]
  constructor
  · rintro ⟨_, e, _, hRecord⟩
    exact ⟨e.key, Emit.mem_of_responseRecord? hRecord⟩
  · rintro ⟨k, hMem⟩
    rcases mem_shapes_run.1 hMem with ⟨e, he, rfl, _⟩
    refine ⟨?_, e, (List.mem_filter.1 he).1, ?_⟩
    · rintro rfl
      exact absurd (isPascal_of_mem_shapes_run hMem) (by decide)
    · rw [Emit.responseRecord?, (lookup_shapes_run h).2 hMem]
      rfl

/- The models define a class for each record of the table. -/
theorem classNames_run
    (schema : Schema)
    (site : Option Site) :
    Emit.classNames (run schema site).units.models =
      (run schema site).sampling.table.names := by
  have hReachable := reachable_table_run schema site
  apply Emit.classNames_models hReachable.wellFormed
  intro r hr f hf n hn
  exact Emit.oneLine_of_isPascal
    (hReachable.isPascal_of_mem_references hr hf hn)

theorem isPascal_of_mem_decodedRecords_run
    (h : schema.Distinct)
    {n : String}
    (hMem : n ∈ Emit.decodedRecords
      (run schema site).endpoints
      (run schema site).units.shapes) : Name.IsPascal n := by
  rcases (mem_decodedRecords_run h).1 hMem with ⟨k, hShape⟩
  exact isPascal_of_mem_shapes_run hShape

/- The client imports the records that it decodes. -/
theorem importedNames_run
    (h : schema.Distinct)
    (site : Option Site) :
    Emit.importedNames (run schema site).units.client =
      Emit.decodedRecords (run schema site).endpoints
        (run schema site).units.shapes := by
  apply Emit.importedNames_client
  intro n hMem
  exact isPascal_of_mem_decodedRecords_run h hMem

/- The client imports records if a response has one for a shape. -/
theorem importMark_mem_preambleOf_run
    (h : schema.Distinct) :
    RawText.ofString Emit.importMark ∈
        Emit.preambleOf (run schema site).units.client ↔
      ∃ k n, (k, Shape.record n) ∈
        (run schema site).units.shapes := by
  have hPreamble :
      Emit.preambleOf (run schema site).units.client =
        Emit.plain (Emit.clientPreamble
          (Emit.decodedRecords (run schema site).endpoints
            (run schema site).units.shapes)) := by
    apply Emit.preambleOf_client
    intro n hMem
    exact isPascal_of_mem_decodedRecords_run h hMem
  rw [hPreamble, Emit.mem_plain,
    Emit.importMark_mem_clientPreamble]
  constructor
  · intro hSome
    rcases List.exists_mem_of_ne_nil _ hSome with ⟨n, hn⟩
    rcases (mem_decodedRecords_run h).1 hn with ⟨k, hShape⟩
    exact ⟨k, n, hShape⟩
  · rintro ⟨k, n, hShape⟩
    have hn := (mem_decodedRecords_run h).2 ⟨k, hShape⟩
    exact List.ne_nil_of_mem hn

/-
  In a generation from a document, whatever the server replies,
  no reference dangles.
-/
theorem linked_run
    {d : Document}
    (h : Schema.ofDocument d = .ok schema)
    (site : Option Site) : (run schema site).Linked := by
  have hDistinct := Schema.distinct_of_ofDocument h
  have hClosed := (reachable_table_run schema site).closed
  have hClasses := classNames_run schema site
  have hImports := importedNames_run hDistinct site
  refine
    { shapes := ?_
      fields := ?_
      acyclic := hClosed.not_transGen_refers
      classes := hClasses
      classes_ascend := ?_
      imports := ?_
      imports_ascend := ?_
      imports_defined := ?_
      import_needed := importMark_mem_preambleOf_run hDistinct }
  · intro k shape hShape n hn
    apply Shape.Table.mem_names_iff.1
    exact references_subset_names_run hShape hn
  · intro r hr f hf n hn
    have hField := hClosed r hr f hf n hn
    exact ⟨Shape.Table.mem_names_iff.1 hField.1, hField.2⟩
  · rw [hClasses]
    exact List.pairwise_map.2
      (run schema site).sampling.table.sorted
  · intro n
    rw [hImports, mem_decodedRecords_run hDistinct]
  · rw [hImports]
    exact Emit.pairwise_sortedOnce _
  · rw [hImports, hClasses]
    intro n hn
    rcases (mem_decodedRecords_run hDistinct).1 hn with
      ⟨k, hShape⟩
    exact references_subset_names_run hShape
      (List.mem_singleton.2 rfl)

/- Records of one name that replace each other do not dangle. -/
theorem linked_run_twins :
    (run twinSchema (some twinSite)).Linked :=
  linked_run ofDocument_twinDocument (some twinSite)

end Generation

end TypedClient
