import TypedClient.Proofs.Package.Run

/-
  This file says when the records of a response survive the rest
  of a generation.  An endpoint always keeps the shape of its
  response; but records of one name replace each other, and two
  paths may derive one name.  A record stays as it is if the last
  sample behind it that brings in a record of its name brings in
  the same one.

  Key definitions include:
    * `Generation.ownTables`
    * `Generation.KeepsRecords`

  Key theorems include:
    * `Generation.get?_table_run`
    * `Generation.records_kept_iff`
    * `Generation.keepsRecords_iff`
-/

namespace TypedClient

namespace Generation

open Shape (Record Table)

------------------------------------------------------------
-- Survival
------------------------------------------------------------

/- The tables that endpoints bring in by themselves, in order. -/
def ownTables
    (site : Site)
    (endpoints : List Endpoint) : List Table :=
  (endpoints.filterMap (own? (some site))).map Prod.snd

variable {schema : Schema}
variable {site : Site}

/- A table is brought in by one of the endpoints. -/
theorem mem_ownTables
    {endpoints : List Endpoint}
    {own : Table} :
    own ∈ ownTables site endpoints ↔
      ∃ e ∈ endpoints, ∃ shape,
        own? (some site) e = some (shape, own) := by
  rw [ownTables, List.mem_map]
  constructor
  · rintro ⟨⟨shape, _⟩, hMem, rfl⟩
    rcases List.mem_filterMap.1 hMem with ⟨e, he, hOwn⟩
    exact ⟨e, he, shape, hOwn⟩
  · rintro ⟨e, he, shape, hOwn⟩
    exact ⟨_, List.mem_filterMap.2 ⟨e, he, hOwn⟩, rfl⟩

/-
  Under the name of a record of an endpoint, the table behind a
  generation has the last record that an endpoint behind it
  brings in, or else the record itself.
-/
theorem get?_table_run
    {before after : List Endpoint}
    {e : Endpoint}
    {shape : Shape}
    {own : Table}
    {r : Record}
    {n : String}
    (hSplit : callable schema = before ++ e :: after)
    (hOwn : own? (some site) e = some (shape, own))
    (h : own.get? n = some r) :
    (run schema (some site)).sampling.table.get? n =
      some ((Table.latest? n (ownTables site after)).getD r) := by
  have hTables :
      ((callable schema).filterMap
          (own? (some site))).map Prod.snd =
        ownTables site before ++ own :: ownTables site after := by
    rw [hSplit, List.filterMap_append,
      List.filterMap_cons_some hOwn, List.map_append]
    rfl
  rw [table_run, hTables, Table.get?_mergeAll,
    Table.latest?_append, Table.latest?, h]
  cases Table.latest? n (ownTables site after) <;> rfl

/- A sample that is fine is of an endpoint with a shape. -/
theorem exists_own?_of_isOk
    {s : Sample}
    (hs : s ∈ (run schema (some site)).sampling.samples)
    (hOk : s.isOk = true) :
    s.endpoint ∈ callable schema ∧
      ∃ shape own,
        own? (some site) s.endpoint = some (shape, own) ∧
          (s.endpoint.key, shape) ∈
            (run schema (some site)).units.shapes := by
  have hEndpoint : s.endpoint ∈ callable schema := by
    rw [← endpoints_samples_run schema site]
    exact List.mem_map_of_mem hs
  have hSome := isOk_of_mem_samples_run hs
  rw [hOk] at hSome
  rcases Option.isSome_iff_exists.1 hSome.symm with
    ⟨⟨shape, own⟩, hOwn⟩
  exact ⟨hEndpoint, shape, own, hOwn,
    mem_shapes_run.2 ⟨_, hEndpoint, rfl, own, hOwn⟩⟩

/-
  The shape of a response in full is found under the key of its
  endpoint, and the records in it are those of the table in the
  end if and only if, for each of their names, the last sample
  behind this one that brings in a record of the name brings in
  the same record.
-/
theorem records_kept_iff
    {d : Document}
    (h : Schema.ofDocument d = .ok schema)
    {before after : List Sample}
    {s : Sample}
    (hSamples : (run schema (some site)).sampling.samples =
      before ++ s :: after)
    (hOk : s.isOk = true) :
    let g := run schema (some site)
    let e := s.endpoint
    let reply := site.server (Sample.request site.base e).url
    ∃ value shape own,
      Sample.payload? reply = some value ∧
        Shape.inferResponse e.funcName value .empty =
          ⟨some shape, own⟩ ∧
        g.units.shapes.lookup e.key = some shape ∧
        ((∀ n r, own.get? n = some r →
            g.sampling.table.get? n = some r) ↔
          ∀ n r later, own.get? n = some r →
            Table.latest? n
                (ownTables site (after.map Sample.endpoint)) =
              some later →
            later = r) := by
  intro g e reply
  have hMem : s ∈ g.sampling.samples := by
    simp [g, hSamples]
  have hSplit : callable schema =
      before.map Sample.endpoint ++
        e :: after.map Sample.endpoint := by
    rw [← endpoints_samples_run schema site, hSamples,
      List.map_append, List.map_cons]
  rcases exists_own?_of_isOk hMem hOk with
    ⟨_, shape, own, hOwn, hShape⟩
  rcases Sample.own?_eq_some hOwn with
    ⟨value, hValue, hFound⟩
  refine ⟨value, shape, own, hValue, hFound, ?_, ?_⟩
  · exact (lookup_shapes_run
      (Schema.distinct_of_ofDocument h)).2 hShape
  · constructor
    · intro hKept n r later hRecord hLater
      have hFinal := get?_table_run hSplit hOwn hRecord
      rw [hKept n r hRecord, hLater] at hFinal
      exact (Option.some.inj hFinal).symm
    · intro hSame n r hRecord
      rw [get?_table_run hSplit hOwn hRecord]
      cases hLater : Table.latest? n
          (ownTables site (after.map Sample.endpoint)) with
      | none => rfl
      | some later =>
          exact congrArg some (hSame n r later hRecord hLater)

------------------------------------------------------------
-- Agreement
------------------------------------------------------------

/-
  A generation in which every response in full finds its shape
  under the key of its endpoint and its records in the table.
-/
def KeepsRecords (schema : Schema) (site : Site) : Prop :=
  let g := run schema (some site)
  ∀ s ∈ g.sampling.samples, s.isOk = true →
    ∀ value,
      Sample.payload?
          (site.server
            (Sample.request site.base s.endpoint).url) =
        some value →
      let found :=
        Shape.inferResponse s.endpoint.funcName value .empty
      g.units.shapes.lookup s.endpoint.key = found.result ∧
        ∀ n r, found.table.get? n = some r →
          g.sampling.table.get? n = some r

/- A record that an endpoint brings in is kept. -/
theorem KeepsRecords.get?_table
    (hKeeps : KeepsRecords schema site)
    {own : Table}
    (hOwn : own ∈ ownTables site (callable schema))
    {n : String}
    {r : Record}
    (hRecord : own.get? n = some r) :
    (run schema (some site)).sampling.table.get? n = some r := by
  rcases mem_ownTables.1 hOwn with ⟨e, he, shape, hFound⟩
  rw [← endpoints_samples_run schema site] at he
  rcases List.mem_map.1 he with ⟨s, hs, rfl⟩
  have hOk : s.isOk = true := by
    rw [isOk_of_mem_samples_run hs, hFound]
    rfl
  rcases Sample.own?_eq_some hFound with
    ⟨value, hValue, hInferred⟩
  have hKept := (hKeeps s hs hOk value hValue).2
  rw [hInferred] at hKept
  exact hKept n r hRecord

/-
  All responses keep their records if and only if any two of them
  that bring in records of one name bring in the same record.
-/
theorem keepsRecords_iff (h : schema.Distinct) :
    KeepsRecords schema site ↔
      ∀ own ∈ ownTables site (callable schema),
        ∀ other ∈ ownTables site (callable schema),
          ∀ n r s, own.get? n = some r →
            other.get? n = some s → r = s := by
  constructor
  · intro hKeeps own hOwn other hOther n r s hr hs
    have hFirst := hKeeps.get?_table hOwn hr
    have hSecond := hKeeps.get?_table hOther hs
    exact Option.some.inj (hFirst.symm.trans hSecond)
  · intro hAgree s hs hOk value hValue
    rcases exists_own?_of_isOk hs hOk with
      ⟨hEndpoint, shape, own, hOwn, hShape⟩
    rcases Sample.own?_eq_some hOwn with
      ⟨_, hPayload, hInferred⟩
    cases hValue.symm.trans hPayload
    rw [hInferred]
    refine ⟨(lookup_shapes_run h).2 hShape, ?_⟩
    intro n r hRecord
    have hMem : own ∈ ownTables site (callable schema) :=
      mem_ownTables.2 ⟨_, hEndpoint, shape, hOwn⟩
    rcases List.append_of_mem hEndpoint with
      ⟨before, after, hSplit⟩
    rw [get?_table_run hSplit hOwn hRecord]
    cases hLater :
        Table.latest? n (ownTables site after) with
    | none => rfl
    | some later =>
        rcases Table.mem_of_latest? hLater with
          ⟨other, hOther, hFound⟩
        rcases mem_ownTables.1 hOther with ⟨e, he, hBringsIn⟩
        have hBehind : e ∈ callable schema := by
          rw [hSplit]
          exact List.mem_append_right _
            (List.mem_cons_of_mem _ he)
        have hOtherMem := mem_ownTables.2
          ⟨e, hBehind, hBringsIn⟩
        exact congrArg some
          (hAgree other hOtherMem own hMem n _ _ hFound hRecord)

------------------------------------------------------------
-- Two paths of one name
------------------------------------------------------------

/- The endpoint of one of two paths of one name. -/
def twin (path : RawText) : Endpoint :=
  .ofOperation path .get ⟨[], []⟩

/- The value of the response of one of two paths. -/
def twinValue (key : Char) : Json :=
  .object [([.scalar key], .int 1)]

/- The record of the response of one of two paths. -/
def twinRecord (name attr : String) (key : Char) : Record :=
  ⟨"ABResponse",
    [⟨name, attr, .primitive .int, [.scalar key]⟩]⟩

theorem ofSchema_twinSchema :
    Endpoint.ofSchema twinSchema =
      [twin "/a/b", twin "/a-b"] := by
  have hSorted : [twin "/a/b", twin "/a-b"].Pairwise
      fun a b => Endpoint.precedes a b = true := by
    decide
  exact List.mergeSort_of_pairwise hSorted

theorem callable_twinSchema :
    callable twinSchema = [twin "/a/b", twin "/a-b"] := by
  rw [callable, ofSchema_twinSchema]
  decide

/- What one of the two responses brings in. -/
theorem payload?_twinReply
    {key : Char}
    (hText : Text.decode?
        ((twinBody key).map fun c => UInt8.ofNat c.toNat) =
      some ((twinBody key).map .scalar))
    (hValue : Json.decode ((twinBody key).map .scalar) =
      .ok (twinValue key)) :
    Sample.payload? (twinReply key) = some (twinValue key) := by
  refine Sample.payload?_eq_some_iff.2
    ⟨_, rfl, ⟨rfl, List.cons_ne_nil _ _⟩, ?_⟩
  rw [Json.decodeBytes, hText]
  exact hValue

theorem payload?_twinReply_x :
    Sample.payload? (twinReply 'x') = some (twinValue 'x') :=
  payload?_twinReply (by decide +kernel) rfl

theorem payload?_twinReply_y :
    Sample.payload? (twinReply 'y') = some (twinValue 'y') :=
  payload?_twinReply (by decide +kernel) rfl

/- What is inferred from one of the two responses. -/
theorem inferResponse_twinValue
    {name attr : String}
    {key : Char}
    (h : Shape.findObject (Shape.find 968) "ABResponse"
        [([.scalar key], .int 1)] =
      ⟨some (.record "ABResponse"), [twinRecord name attr key]⟩) :
    Shape.inferResponse "AB" (twinValue key) .empty =
      ⟨some (.record "ABResponse"),
        Table.empty.insert (twinRecord name attr key)⟩ := by
  have hFind : Shape.findResponse "AB" (twinValue key) =
      Shape.findObject (Shape.find 968) "ABResponse"
        (Json.sortMembers [([.scalar key], .int 1)]) :=
    rfl
  rw [Shape.inferResponse_eq_onto, hFind, Json.sortMembers,
    List.mergeSort_singleton, h]
  rfl

theorem own?_twin_x :
    own? (some twinSite) (twin "/a/b") =
      some (.record "ABResponse",
        Table.empty.insert (twinRecord "X" "x" 'x')) :=
  own?_of_payload? payload?_twinReply_x
    (inferResponse_twinValue rfl)

theorem own?_twin_y :
    own? (some twinSite) (twin "/a-b") =
      some (.record "ABResponse",
        Table.empty.insert (twinRecord "Y" "y" 'y')) :=
  own?_of_payload? payload?_twinReply_y
    (inferResponse_twinValue rfl)

/- The second response is inferred in full. -/
theorem samples_twinSchema :
    ∃ s t,
      (run twinSchema (some twinSite)).sampling.samples =
          [s, t] ∧
        t.endpoint = twin "/a-b" ∧ t.isOk = true := by
  have hEndpoints := endpoints_samples_run twinSchema twinSite
  rw [callable_twinSchema] at hEndpoints
  rcases List.map_eq_cons_iff.1 hEndpoints with
    ⟨s, others, hSamples, _, hOthers⟩
  rcases List.map_eq_singleton_iff.1 hOthers with
    ⟨t, rfl, hSecond⟩
  have hMem : t ∈
      (run twinSchema (some twinSite)).sampling.samples := by
    simp [hSamples]
  refine ⟨s, t, hSamples, hSecond, ?_⟩
  rw [isOk_of_mem_samples_run hMem, hSecond, own?_twin_y]
  rfl

/- The record of the second response replaces that of the first. -/
theorem not_keepsRecords_twins :
    Schema.ofDocument twinDocument = .ok twinSchema ∧
      ¬ KeepsRecords twinSchema twinSite := by
  refine ⟨ofDocument_twinDocument, fun hKeeps => ?_⟩
  have hDistinct :=
    Schema.distinct_of_ofDocument ofDocument_twinDocument
  have hFirst : twin "/a/b" ∈ callable twinSchema := by
    rw [callable_twinSchema]
    exact List.mem_cons_self
  have hSecond : twin "/a-b" ∈ callable twinSchema := by
    rw [callable_twinSchema]
    exact List.mem_cons_of_mem _ List.mem_cons_self
  -- both bring in a record of one name, with different fields
  have hSame := (keepsRecords_iff hDistinct).1 hKeeps
    _ (mem_ownTables.2 ⟨_, hFirst, _, own?_twin_x⟩)
    _ (mem_ownTables.2 ⟨_, hSecond, _, own?_twin_y⟩)
    "ABResponse" (twinRecord "X" "x" 'x')
    (twinRecord "Y" "y" 'y') rfl rfl
  exact absurd hSame (by decide)

/- The second endpoint keeps its record: none comes behind it. -/
theorem records_kept_twins :
    ∃ shape own,
      Shape.inferResponse "AB" (twinValue 'y') .empty =
          ⟨some shape, own⟩ ∧
        ∀ n r, own.get? n = some r →
          (run twinSchema
            (some twinSite)).sampling.table.get? n = some r := by
  rcases samples_twinSchema with
    ⟨s, t, hSamples, hEndpoint, hOk⟩
  have hSplit :
      (run twinSchema (some twinSite)).sampling.samples =
        [s] ++ t :: [] :=
    hSamples
  rcases records_kept_iff ofDocument_twinDocument hSplit hOk with
    ⟨value, shape, own, hPayload, hFound, _, hKept⟩
  have hValue : value = twinValue 'y' := by
    rw [hEndpoint] at hPayload
    exact Option.some.inj
      (hPayload.symm.trans payload?_twinReply_y)
  have hName : t.endpoint.funcName = "AB" := by
    rw [hEndpoint]
    rfl
  rw [hName, hValue] at hFound
  refine ⟨shape, own, hFound, hKept.2 ?_⟩
  intro n r later _ hLater
  cases hLater

end Generation

end TypedClient
