import TypedClient.Proofs.Package.Isolation
import TypedClient.Proofs.Sample.Session
import TypedClient.Sample.Report

/-
  This file keeps the accounts of the sampling of a schema.  Each
  endpoint that can be called without input is requested once, in
  order, whatever came back before; there is one sample for each
  request, and the summary adds up.

  Key definitions include:
    * `Report.summaryOf`
    * `Generation.Accounts`
    * `Generation.Follows`

  Key theorems include:
    * `Sample.keys_shapes`
    * `Generation.nodup_urls_callable`
    * `Generation.accounts_converse`
    * `Generation.accounts_of_ofDocument`
-/

namespace TypedClient

------------------------------------------------------------
-- Summaries
------------------------------------------------------------

/- The summary of samples, of which some counts are given. -/
def Report.summaryOf
    (called inferred skipped : Nat)
    (samples : List Sample) : String :=
  let bytes := samples.foldl (fun n s => n + s.size) 0
  let time := samples.foldl (fun t s => t.add s.elapsed)
    (Double.zero false)
  "GET summary: " ++ toString called ++ " called, " ++
    toString inferred ++ " inferred, " ++
    toString skipped ++ " skipped | " ++
    bytesText bytes ++ " total data | " ++
    millisText time ++ " total time"

theorem Report.exists_skipped (samples : List Sample) :
    let inferred := (samples.filter Sample.isOk).length
    ∃ skipped, samples.length = inferred + skipped ∧
      summary samples =
        summaryOf samples.length inferred skipped samples := by
  intro inferred
  have hLe : inferred ≤ samples.length :=
    List.length_filter_le _ _
  exact ⟨samples.length - inferred, by omega, rfl⟩

/- The keys of shapes are those of the samples that are fine. -/
theorem Sample.keys_shapes
    {samples : List Sample}
    (h : ∀ s ∈ samples, s.shape.isSome = s.isOk) :
    (shapes samples).map Prod.fst =
      (samples.filter isOk).map fun s => s.endpoint.key := by
  induction samples with
  | nil => rfl
  | cons s ss ih =>
      have hOthers := ih fun t ht =>
        h t (List.mem_cons_of_mem s ht)
      have hShape := h s List.mem_cons_self
      unfold shapes at hOthers ⊢
      cases hOk : s.isOk with
      | false =>
          rw [List.filterMap_cons_none (by simp [hOk]),
            List.filter_cons_of_neg (by simp [hOk]), hOthers]
      | true =>
          rw [hOk] at hShape
          rcases Option.isSome_iff_exists.1 hShape with
            ⟨shape, hSome⟩
          rw [List.filterMap_cons_some
              (b := (s.endpoint.key, shape)) (by simp [hOk, hSome]),
            List.filter_cons_of_pos hOk, List.map_cons,
            List.map_cons, hOthers]

namespace Generation

variable {schema : Schema}

------------------------------------------------------------
-- Addresses
------------------------------------------------------------

/- No address is requested for two endpoints. -/
theorem nodup_urls_callable
    (h : schema.Distinct)
    (base : String) :
    ((callable schema).map fun e =>
      (Sample.request base e).url).Nodup := by
  have hNodup : (callable schema).Nodup :=
    (nodup_keys_callable h).of_map _
  exact List.pairwise_map.2
    (hNodup.imp_of_mem fun hd he hNe =>
      url_ne_of_mem_callable h hd he hNe base)

------------------------------------------------------------
-- Accounts
------------------------------------------------------------

/-
  The accounts of a session with endpoints under a base address.

    * `asked`: each endpoint is requested once, in order, below
      the base address without the slashes at its end, and
      nothing else is
    * `once`: no address is requested twice
    * `endpoints`: there is one sample for each endpoint, in order
    * `shown`: the observer gets these samples, in order
    * `turns`: each sample is shown before the next request
    * `entries`: no two shapes have one key
    * `inferred`: there is one shape for each sample that is fine
    * `summary`: what is called is inferred or skipped
-/
structure Accounts
    (es : List Endpoint)
    (base : String)
    (s : Sample.Session) : Prop where
  asked : ∃ (front : String) (count : Nat),
    base = front ++ String.ofList (List.replicate count '/') ∧
      front.toList.getLast? ≠ some '/' ∧
      s.log.filterMap Sample.Event.request? =
        es.map fun e => ⟨"GET", front ++ e.path, none⟩
  once : ((s.log.filterMap Sample.Event.request?).map
    Request.url).Nodup
  endpoints : s.samples.map Sample.endpoint = es
  shown : s.log.filterMap Sample.Event.sample? = s.samples
  turns : s.log = s.samples.flatMap (Sample.exchange base)
  entries : ((Sample.shapes s.samples).map Prod.fst).Nodup
  inferred : (Sample.shapes s.samples).length =
    (s.samples.filter Sample.isOk).length
  summary : ∃ skipped,
    es.length = (Sample.shapes s.samples).length + skipped ∧
      Report.summary s.samples =
        Report.summaryOf es.length
          (Sample.shapes s.samples).length skipped s.samples

/- A session accounts for endpoints with distinct keys. -/
theorem accounts_converse
    {es : List Endpoint}
    {base : String}
    (hKeys : (es.map Endpoint.key).Nodup)
    (hUrls : (es.map fun e => (Sample.request base e).url).Nodup)
    (partner : Sample.Partner) :
    Accounts es base
      (Sample.converse partner base [] .empty es) := by
  let s := Sample.converse partner base [] .empty es
  have hEndpoints : s.samples.map Sample.endpoint = es :=
    Sample.endpoints_converse partner base [] .empty es
  have hRequests := Sample.requests_converse partner base .empty es
  have hShapes : (Sample.shapes s.samples).map Prod.fst =
      (s.samples.filter Sample.isOk).map fun t =>
        t.endpoint.key :=
    Sample.keys_shapes fun t ht =>
      Sample.isSome_shape_of_mem_converse ht
  have hInferred : (Sample.shapes s.samples).length =
      (s.samples.filter Sample.isOk).length := by
    have hLength := congrArg List.length hShapes
    rwa [List.length_map, List.length_map] at hLength
  constructor
  case asked =>
    rcases Request.exists_slashes_trimBase base with
      ⟨⟨count, hBase⟩, hLast⟩
    refine ⟨Request.trimBase base, count, ?_, hLast, hRequests⟩
    apply String.toList_injective
    rw [hBase, String.toList_append, String.toList_ofList]
  case once =>
    rw [hRequests, List.map_map]
    exact hUrls
  case endpoints => exact hEndpoints
  case shown => exact Sample.samples_converse partner base .empty es
  case turns => exact Sample.log_converse partner base [] .empty es
  case entries =>
    have hSublist :
        ((s.samples.filter Sample.isOk).map fun t =>
          t.endpoint.key).Sublist (es.map Endpoint.key) := by
      rw [← hEndpoints, List.map_map]
      exact List.filter_sublist.map _
    rw [hShapes]
    exact hKeys.sublist hSublist
  case inferred => exact hInferred
  case summary =>
    have hLength : s.samples.length = es.length := by
      rw [← hEndpoints, List.length_map]
    rcases Report.exists_skipped s.samples with
      ⟨skipped, hSum, hSummary⟩
    rw [hLength, ← hInferred] at hSum hSummary
    exact ⟨skipped, hSum, hSummary⟩

/- A generation whose sampling is what happened in a session. -/
structure Follows
    (g : Generation)
    (s : Sample.Session) : Prop where
  sampling : g.sampling = s.toRun
  shapes : g.units.shapes = Sample.shapes s.samples

theorem follows_of_sampling
    {site : Option Site}
    {s : Sample.Session}
    (h : (run schema site).sampling = s.toRun) :
    Follows (run schema site) s where
  sampling := h
  shapes := congrArg (fun r : Sample.Run => Sample.shapes r.samples) h

/-
  Sampling accounts for the endpoints of a schema that are got by
  a path with nothing to fill in, whoever replies and whatever was
  replied before.  A generation for some server follows what
  happens, and so does the one for the server that replies, if it
  is a server.
-/
theorem accounts_of_ofDocument
    {d : Document}
    (h : Schema.ofDocument d = .ok schema)
    (partner : Sample.Partner)
    (base : String) :
    let es := (Endpoint.ofSchema schema).filter fun e =>
      e.method = "GET" && !e.isDynamic
    let s := Sample.converse partner base [] .empty
      (Sample.eligible (Endpoint.ofSchema schema))
    Accounts es base s ∧
      (∃ server, Follows (run schema (some ⟨server, base⟩)) s) ∧
      ∀ server, partner = .ofServer server →
        Follows (run schema (some ⟨server, base⟩)) s := by
  intro es s
  have hDistinct := Schema.distinct_of_ofDocument h
  have hUrls := nodup_urls_callable hDistinct base
  refine ⟨?_, ?_, ?_⟩
  · exact accounts_converse (nodup_keys_callable hDistinct) hUrls
      partner
  · rcases Sample.exists_server_converse partner [] .empty hUrls
      with ⟨server, hSame⟩
    exact ⟨server, follows_of_sampling
      (Sample.toRun_converse_eq hSame).symm⟩
  · rintro server rfl
    exact follows_of_sampling (Sample.toRun_converse_eq
      (Sample.converse_server server base [] .empty _)).symm

/- A partner that replies to the first request only. -/
def tiredPartner : Sample.Partner :=
  fun log r =>
    if log.isEmpty then twinSite.server r.url
    else .failed "timed out" (.zero false)

/- Of two endpoints, the second one gets no reply. -/
theorem accounts_of_ofDocument_tired :
    Schema.ofDocument twinDocument = .ok twinSchema ∧
      Accounts [twin "/a/b", twin "/a-b"] "http://api//"
        (Sample.converse tiredPartner "http://api//" [] .empty
          [twin "/a/b", twin "/a-b"]) := by
  refine ⟨ofDocument_twinDocument, ?_⟩
  have hAccounts := (accounts_of_ofDocument
    ofDocument_twinDocument tiredPartner "http://api//").1
  rw [← callable_twinSchema]
  exact hAccounts

end Generation

end TypedClient
