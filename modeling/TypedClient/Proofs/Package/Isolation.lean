import TypedClient.Proofs.Package.Collision
import TypedClient.Proofs.Shape.Place

/-
  This file says how far the response to one endpoint reaches.
  Two generations whose servers differ in that response only have
  the samples and shapes of all other endpoints in common, and all
  records but those whose names start with the endpoint's name.
  A response that fails leaves nothing behind.

  Key definitions include:
    * `Generation.Isolated`

  Key theorems include:
    * `Generation.prefix_of_get?_own`
    * `Generation.units_run_congr`
    * `Generation.isolated_run`
-/

namespace TypedClient

namespace Generation

open Shape (Table responseSuffix)

variable {schema : Schema}
variable {site : Site}
variable {e : Endpoint}

------------------------------------------------------------
-- Other endpoints
------------------------------------------------------------

theorem method_of_mem_callable
    (h : e ∈ callable schema) : e.method = "GET" := by
  have hCallable := (List.mem_filter.1 h).2
  rw [Endpoint.isCallable, Bool.and_eq_true] at hCallable
  exact of_decide_eq_true hCallable.1

/- Endpoints that are sampled differ in the address requested. -/
theorem url_ne_of_mem_callable
    (hDistinct : schema.Distinct)
    {d : Endpoint}
    (hd : d ∈ callable schema)
    (he : e ∈ callable schema)
    (hNe : d ≠ e)
    (base : String) :
    (Sample.request base d).url ≠ (Sample.request base e).url := by
  intro hUrl
  have hPath : d.path = e.path :=
    List.append_cancel_left hUrl
  have hKey : d.key = e.key := by
    rw [Endpoint.key, Endpoint.key, hPath,
      method_of_mem_callable hd, method_of_mem_callable he]
  exact hNe (List.inj_on_of_nodup_map
    (nodup_keys_callable hDistinct) hd he hKey)

/-
  The endpoints that are sampled, split at one of them.  All
  others are requested at other addresses.
-/
theorem exists_split_callable
    (hDistinct : schema.Distinct)
    (he : e ∈ callable schema)
    (base : String) :
    ∃ before after,
      callable schema = before ++ e :: after ∧
        ∀ d ∈ before ++ after,
          (Sample.request base d).url ≠
            (Sample.request base e).url := by
  have hNodup : (callable schema).Nodup :=
    (nodup_keys_callable hDistinct).of_map _
  rcases List.append_of_mem he with ⟨before, after, hSplit⟩
  refine ⟨before, after, hSplit, fun d hd => ?_⟩
  rw [hSplit] at hNodup
  have hOthers := (List.nodup_cons.1
    (List.nodup_middle.1 hNodup)).1
  have hMem : d ∈ callable schema := by
    rw [hSplit]
    exact List.perm_middle.mem_iff.2
      (List.mem_cons_of_mem e hd)
  refine url_ne_of_mem_callable hDistinct hMem he ?_ base
  rintro rfl
  exact hOthers hd

/- What an endpoint brings in depends on the reply to it only. -/
theorem own?_congr
    {server : Server}
    {d : Endpoint}
    (h : server (Sample.request site.base d).url =
      site.server (Sample.request site.base d).url) :
    own? (some { site with server := server }) d =
      own? (some site) d := by
  simp only [own?, Option.bind_some, Sample.own?, h]

/- The sample of an endpoint by itself. -/
def sampled (site : Site) (e : Endpoint) : Sample :=
  (Sample.take site.server site.base e .empty).1

/- The samples of a generation, split at one endpoint. -/
theorem samples_run_of_split
    {before after : List Endpoint}
    (hSplit : callable schema = before ++ e :: after)
    (site : Site) :
    (run schema (some site)).sampling.samples =
      before.map (sampled site) ++
        sampled site e :: after.map (sampled site) := by
  have hSamples : (run schema (some site)).sampling.samples =
      (callable schema).map (sampled site) :=
    Sample.samples_takeEach _ _ _ _
  rw [hSamples, hSplit, List.map_append, List.map_cons]

/- The sample of an endpoint depends on the reply to it only. -/
theorem sampled_congr
    {server : Server}
    {d : Endpoint}
    (h : server (Sample.request site.base d).url =
      site.server (Sample.request site.base d).url) :
    sampled { site with server := server } d =
      sampled site d := by
  simp only [sampled, Sample.take, h]

------------------------------------------------------------
-- Own records
------------------------------------------------------------

/- The records of a response have names that start with its own. -/
theorem prefix_of_get?_own
    {shape : Shape}
    {own : Table}
    (h : own? (some site) e = some (shape, own))
    {n : String}
    {r : Shape.Record}
    (hRecord : own.get? n = some r) :
    (e.funcName ++ responseSuffix).toList <+: n.toList := by
  rcases Sample.own?_eq_some h with ⟨value, _, hFound⟩
  have hOwn := congrArg Shape.Inference.table hFound
  simp only [Shape.inferResponse_eq_onto, Shape.Finding.onto]
    at hOwn
  rw [← hOwn] at hRecord
  have hName : n ∈ ((Shape.findResponse e.funcName
      value).records.map Shape.Record.name) := by
    have hMem := Table.mem_names_insertAll.1
      (Table.mem_names_iff.2 ⟨r, hRecord⟩)
    rcases hMem with hNew | hOld
    · exact hNew
    · cases hOld
  rcases List.mem_map.1 hName with ⟨s, hs, rfl⟩
  exact Shape.prefix_name_of_mem_find hs

------------------------------------------------------------
-- Parts of a generation
------------------------------------------------------------

/- The units of a generation depend on what is brought in only. -/
theorem units_run_congr
    {one other : Option Site}
    (h : ∀ d ∈ callable schema, own? one d = own? other d) :
    (run schema one).units = (run schema other).units := by
  have hShapes : (run schema one).units.shapes =
      (run schema other).units.shapes := by
    rw [shapes_run, shapes_run]
    exact List.filterMap_congr fun d hd => by rw [h d hd]
  have hTable : (run schema one).sampling.table =
      (run schema other).sampling.table := by
    rw [table_run, table_run, List.filterMap_congr h]
  simp only [run, Units.ofSamples] at hShapes hTable ⊢
  rw [hShapes, hTable]

/- Under other keys, the shape of an endpoint is not found. -/
theorem lookup_shapes_of_ne
    {key : RawText}
    (hKey : key ≠ e.key)
    (one : Option Site)
    (before after : List Endpoint) :
    let shapes := List.filterMap fun d =>
      (own? one d).map fun own => (d.key, own.1)
    (shapes (before ++ e :: after)).lookup key =
      (shapes (before ++ after)).lookup key := by
  intro shapes
  simp only [shapes, List.filterMap_append, List.lookup_append,
    List.filterMap_cons]
  cases own? one e with
  | none => rfl
  | some own =>
      simp only [Option.map_some, List.lookup_cons,
        beq_eq_false_iff_ne.2 hKey]

/-
  Under names that do not start as those of an endpoint do, the
  table has what the other endpoints bring in.
-/
theorem get?_table_run_of_split
    {before after : List Endpoint}
    (hSplit : callable schema = before ++ e :: after)
    {n : String}
    (hName :
      ¬ (e.funcName ++ responseSuffix).toList <+: n.toList) :
    (run schema (some site)).sampling.table.get? n =
      (Table.latest? n (ownTables site (before ++ after))).or
        (Table.empty.get? n) := by
  have hOthers :
      Table.latest? n (ownTables site (before ++ e :: after)) =
        Table.latest? n (ownTables site (before ++ after)) := by
    simp only [ownTables, List.filterMap_append, List.map_append,
      Table.latest?_append]
    cases hOwn : own? (some site) e with
    | none => rw [List.filterMap_cons_none hOwn]
    | some found =>
        have hNone : found.2.get? n = none :=
          Option.eq_none_iff_forall_ne_some.2 fun r hRecord =>
            hName (prefix_of_get?_own hOwn hRecord)
        rw [List.filterMap_cons_some hOwn, List.map_cons,
          Table.latest?, hNone, Option.or_none]
  rw [table_run, Table.get?_mergeAll, ← hOthers, hSplit,
    ownTables]

------------------------------------------------------------
-- Isolation
------------------------------------------------------------

/-
  Two generations that the response to one endpoint tells apart.
  They request the same, and have the samples and the shapes of
  all other endpoints in common, and all records whose names do
  not start as those of the response do.  If the response fails
  in both of them, then they have the same units.
-/
structure Isolated
    (e : Endpoint)
    (g h : Generation) : Prop where
  endpoints : g.endpoints = h.endpoints
  requests : g.sampling.requests = h.sampling.requests
  samples :
    ∃ before s t after,
      g.sampling.samples = before ++ s :: after ∧
        h.sampling.samples = before ++ t :: after ∧
        s.endpoint = e ∧ t.endpoint = e
  shapes :
    ∀ key, key ≠ e.key →
      g.units.shapes.lookup key = h.units.shapes.lookup key
  records :
    ∀ n : String,
      ¬ (e.funcName ++ responseSuffix).toList <+: n.toList →
        g.sampling.table.get? n = h.sampling.table.get? n
  units :
    (∀ s ∈ g.sampling.samples ++ h.sampling.samples,
        s.endpoint = e → s.isOk = false) →
      g.units = h.units

/- An endpoint whose sample fails brings in nothing. -/
theorem own?_eq_none_of_samples
    (he : e ∈ callable schema)
    (h : ∀ s ∈ (run schema (some site)).sampling.samples,
      s.endpoint = e → s.isOk = false) :
    own? (some site) e = none := by
  rw [← endpoints_samples_run schema site] at he
  rcases List.mem_map.1 he with ⟨s, hs, rfl⟩
  have hOk := isOk_of_mem_samples_run hs
  rw [h s hs rfl] at hOk
  exact Option.isNone_iff_eq_none.1
    (Option.isSome_eq_false_iff.1 hOk.symm)

/-
  Two servers that reply alike to all requests but the one for an
  endpoint lead to generations that only it tells apart.
-/
theorem isolated_of_split
    {server : Server}
    {before after : List Endpoint}
    (hSplit : callable schema = before ++ e :: after)
    (hAgree : ∀ d ∈ before ++ after,
      server (Sample.request site.base d).url =
        site.server (Sample.request site.base d).url) :
    Isolated e (run schema (some site))
      (run schema (some { site with server := server })) := by
  have hOwn : ∀ d ∈ before ++ after,
      own? (some { site with server := server }) d =
        own? (some site) d :=
    fun d hd => own?_congr (hAgree d hd)
  constructor
  case endpoints => rfl
  case requests =>
    exact (Sample.requests_takeEach _ _ _ _).trans
      (Sample.requests_takeEach _ _ _ _).symm
  case samples =>
    have hBefore : before.map
        (sampled { site with server := server }) =
          before.map (sampled site) :=
      List.map_congr_left fun d hd =>
        sampled_congr (hAgree d (List.mem_append_left _ hd))
    have hAfter : after.map
        (sampled { site with server := server }) =
          after.map (sampled site) :=
      List.map_congr_left fun d hd =>
        sampled_congr (hAgree d (List.mem_append_right _ hd))
    have hOther := samples_run_of_split hSplit
      { site with server := server }
    rw [hBefore, hAfter] at hOther
    exact ⟨_, _, _, _, samples_run_of_split hSplit site, hOther,
      Sample.endpoint_take _ _ e _, Sample.endpoint_take _ _ e _⟩
  case shapes =>
    intro key hKey
    rw [shapes_run, shapes_run, hSplit,
      lookup_shapes_of_ne hKey, lookup_shapes_of_ne hKey]
    congr 1
    exact List.filterMap_congr fun d hd => by rw [hOwn d hd]
  case records =>
    intro n hName
    rw [get?_table_run_of_split hSplit hName,
      get?_table_run_of_split hSplit hName, ownTables, ownTables,
      List.filterMap_congr hOwn]
  case units =>
    -- with both responses failed, no endpoint tells the two apart
    intro hFail
    have hMem : e ∈ callable schema := by
      rw [hSplit]
      exact List.mem_append_right _ List.mem_cons_self
    have hNone := own?_eq_none_of_samples hMem fun s hs =>
      hFail s (List.mem_append_left _ hs)
    have hOther := own?_eq_none_of_samples hMem fun s hs =>
      hFail s (List.mem_append_right _ hs)
    refine units_run_congr fun d hd => ?_
    rw [hSplit] at hd
    rcases List.mem_cons.1 (List.perm_middle.mem_iff.1 hd) with
      rfl | hd
    · rw [hNone, hOther]
    · exact (hOwn d hd).symm

/-
  The response to an endpoint does not reach further than its own
  sample, its own shape and the records under its own name.  If
  all responses fail, then the units are those without a server.
-/
theorem isolated_run
    {d : Document}
    (h : Schema.ofDocument d = .ok schema)
    (he : e ∈ callable schema)
    {server : Server}
    (hServer : ∀ url, url ≠ (Sample.request site.base e).url →
      server url = site.server url) :
    let g := run schema (some site)
    Isolated e g
        (run schema (some { site with server := server })) ∧
      ((∀ s ∈ g.sampling.samples, s.isOk = false) →
        g.units = (run schema none).units) := by
  intro g
  constructor
  · rcases exists_split_callable
        (Schema.distinct_of_ofDocument h) he site.base with
      ⟨before, after, hSplit, hOthers⟩
    exact isolated_of_split hSplit fun d hd =>
      hServer _ (hOthers d hd)
  · intro hFail
    refine units_run_congr fun d hd => ?_
    exact own?_eq_none_of_samples hd fun s hs _ => hFail s hs

/- A server that does not reply to the first of two paths. -/
def lateServer : Server := fun url =>
  if url = "/a/b" then .failed "timed out" (.zero false)
  else twinSite.server url

/- The first of two paths is out of reach, the second is not. -/
theorem isolated_run_twins :
    lateServer "/a/b" ≠ twinSite.server "/a/b" ∧
      Isolated (twin "/a/b") (run twinSchema (some twinSite))
        (run twinSchema
          (some { twinSite with server := lateServer })) := by
  have hMem : twin "/a/b" ∈ callable twinSchema := by
    rw [callable_twinSchema]
    exact List.mem_cons_self
  have hLate : lateServer "/a/b" ≠ twinSite.server "/a/b" := by
    intro hEq
    cases hEq
  refine ⟨hLate, ?_⟩
  exact (isolated_run ofDocument_twinDocument hMem
    fun url hUrl => if_neg hUrl).1

end Generation

end TypedClient
