import TypedClient.Proofs.Sample.Outcome

/-
  This file follows a run of samples as it happens: a log of the
  requests that are made and of the samples that are shown to an
  observer, with a partner whose replies may depend on all that
  happened before.  No endpoint is requested twice, so such a
  partner is no more than a server.

  Key definitions include:
    * `Sample.Event`
    * `Sample.Partner`
    * `Sample.Session`
    * `Sample.converse`

  Key theorems include:
    * `Sample.log_converse`
    * `Sample.requests_converse`
    * `Sample.toRun_converse_eq`
    * `Sample.converse_server`
    * `Sample.exists_server_converse`
-/

namespace TypedClient

------------------------------------------------------------
-- Addresses
------------------------------------------------------------

/- What is cut off a base address are the slashes at its end. -/
theorem Request.exists_slashes_trimBase (base : String) :
    (∃ count, base.toList =
      (trimBase base).toList ++ List.replicate count '/') ∧
      (trimBase base).toList.getLast? ≠ some '/' := by
  let isSlash : Char → Bool := fun c => c = '/'
  have hTrim : (trimBase base).toList =
      (base.toList.reverse.dropWhile isSlash).reverse :=
    String.toList_ofList
  constructor
  · refine ⟨(base.toList.reverse.takeWhile isSlash).length, ?_⟩
    have hSlashes : base.toList.reverse.takeWhile isSlash =
        List.replicate
          (base.toList.reverse.takeWhile isSlash).length '/' := by
      refine List.eq_replicate_of_mem fun c hc => ?_
      exact of_decide_eq_true
        (List.all_eq_true.1 List.all_takeWhile c hc)
    have hSplit := congrArg List.reverse
      (List.takeWhile_append_dropWhile (p := isSlash)
        (l := base.toList.reverse))
    rw [List.reverse_append, List.reverse_reverse, hSlashes,
      List.reverse_replicate] at hSplit
    rw [hTrim]
    exact hSplit.symm
  · rw [hTrim, List.getLast?_reverse]
    intro hHead
    have hNot := List.head?_dropWhile_not isSlash
      base.toList.reverse
    rw [hHead] at hNot
    cases hNot

namespace Sample

open Shape (Table)

------------------------------------------------------------
-- Sessions
------------------------------------------------------------

/- A request that is made, or a sample that is shown. -/
inductive Event where
  | asked (r : Request Json)
  | shown (s : Sample)

/- The request of an event that is one. -/
def Event.request? : Event → Option (Request Json)
  | asked r => some r
  | shown _ => none

/- The sample of an event that shows one. -/
def Event.sample? : Event → Option Sample
  | asked _ => none
  | shown s => some s

/- What replies to requests, given all that happened before. -/
abbrev Partner :=
  List Event → Request Json → Reply

/- A server replies the same whatever happened before. -/
def Partner.ofServer (server : Server) : Partner :=
  fun _ r => server r.url

/- A run of samples with the log of what happened in it. -/
structure Session where
  log : List Event
  samples : List Sample
  table : Table

/- The run of a session. -/
def Session.toRun (s : Session) : Run :=
  ⟨s.log.filterMap Event.request?, s.samples, s.table⟩

/-
  Request endpoints one after another, and show each sample as
  soon as it is there.
-/
def converse
    (partner : Partner)
    (base : String)
    (log : List Event)
    (table : Table) : List Endpoint → Session
  | [] => ⟨log, [], table⟩
  | e :: es =>
      let asked := request base e
      let taken := ofReply e (partner log asked) table
      let others := converse partner base
        (log ++ [.asked asked, .shown taken.1]) taken.2 es
      { others with samples := taken.1 :: others.samples }

/- The events that belong to a sample. -/
def exchange (base : String) (s : Sample) : List Event :=
  [.asked (request base s.endpoint), .shown s]

theorem endpoint_ofReply
    (e : Endpoint)
    (reply : Reply)
    (table : Table) : (ofReply e reply table).1.endpoint = e :=
  endpoint_take (fun _ => reply) "" e table

/- The samples of a session are of its endpoints, in order. -/
theorem endpoints_converse
    (partner : Partner)
    (base : String)
    (log : List Event)
    (table : Table)
    (es : List Endpoint) :
    (converse partner base log table es).samples.map endpoint =
      es := by
  induction es generalizing log table with
  | nil => rfl
  | cons e es ih =>
      simp only [converse, List.map_cons, endpoint_ofReply, ih]

/- A session logs one exchange for each sample, in order. -/
theorem log_converse
    (partner : Partner)
    (base : String)
    (log : List Event)
    (table : Table)
    (es : List Endpoint) :
    (converse partner base log table es).log =
      log ++ (converse partner base log table es).samples.flatMap
        (exchange base) := by
  induction es generalizing log table with
  | nil => simp [converse]
  | cons e es ih =>
      simp only [converse, List.flatMap_cons, exchange,
        endpoint_ofReply]
      rw [ih, List.append_assoc]

/- A sample of a session has a shape if it is fine. -/
theorem isSome_shape_of_mem_converse
    {partner : Partner}
    {base : String}
    {log : List Event}
    {table : Table}
    {es : List Endpoint}
    {s : Sample}
    (h : s ∈ (converse partner base log table es).samples) :
    s.shape.isSome = s.isOk := by
  induction es generalizing log table with
  | nil => cases h
  | cons e es ih =>
      rcases List.mem_cons.1 h with rfl | h
      · exact isSome_shape_ofReply e _ table
      · exact ih h

/- A session requests each of its endpoints once, in order. -/
theorem requests_converse
    (partner : Partner)
    (base : String)
    (table : Table)
    (es : List Endpoint) :
    (converse partner base [] table es).log.filterMap
        Event.request? =
      es.map (request base) := by
  have hEach : ∀ s : Sample,
      (exchange base s).filterMap Event.request? =
        [request base s.endpoint] :=
    fun _ => rfl
  have hRequests := congrArg (List.map (request base))
    (endpoints_converse partner base [] table es)
  rw [List.map_map] at hRequests
  rw [log_converse, List.nil_append, List.filterMap_flatMap]
  simp only [hEach, ← List.map_eq_flatMap]
  exact hRequests

/- A session shows its samples, in order. -/
theorem samples_converse
    (partner : Partner)
    (base : String)
    (table : Table)
    (es : List Endpoint) :
    (converse partner base [] table es).log.filterMap
        Event.sample? =
      (converse partner base [] table es).samples := by
  have hEach : ∀ s : Sample,
      (exchange base s).filterMap Event.sample? = [s] :=
    fun _ => rfl
  rw [log_converse, List.nil_append, List.filterMap_flatMap]
  simp only [hEach, ← List.map_eq_flatMap, List.map_id']

------------------------------------------------------------
-- Servers
------------------------------------------------------------

/- A session is a run if it has the samples and the table of it. -/
theorem toRun_converse_eq
    {partner : Partner}
    {server : Server}
    {base : String}
    {table : Table}
    {es : List Endpoint}
    (h : let s := converse partner base [] table es
      let run := takeEach server base table es
      s.samples = run.samples ∧ s.table = run.table) :
    (converse partner base [] table es).toRun =
      takeEach server base table es := by
  rw [Session.toRun, requests_converse, h.1, h.2,
    ← requests_takeEach server base table es]

/- A session and a run of one server have the same samples. -/
theorem converse_server
    (server : Server)
    (base : String)
    (log : List Event)
    (table : Table)
    (es : List Endpoint) :
    let s := converse (.ofServer server) base log table es
    let run := takeEach server base table es
    s.samples = run.samples ∧ s.table = run.table := by
  induction es generalizing log table with
  | nil => exact ⟨rfl, rfl⟩
  | cons e es ih =>
      have hOthers := ih
        (log ++ [.asked (request base e),
          .shown (take server base e table).1])
        (take server base e table).2
      exact ⟨congrArg _ hOthers.1, hOthers.2⟩

/- Servers that reply alike to all requests lead to one run. -/
theorem takeEach_congr
    {server other : Server}
    {base : String}
    {es : List Endpoint}
    (h : ∀ e ∈ es, server (request base e).url =
      other (request base e).url)
    (table : Table) :
    takeEach server base table es =
      takeEach other base table es := by
  induction es generalizing table with
  | nil => rfl
  | cons e es ih =>
      have hFirst := h e List.mem_cons_self
      have hOthers := ih fun d hd =>
        h d (List.mem_cons_of_mem e hd)
      simp only [takeEach, take, hFirst, hOthers]

/-
  A session in which no address is requested twice is the run of
  some server: the one that replies to each address as the
  partner did when its turn came.
-/
theorem exists_server_converse
    (partner : Partner)
    {base : String}
    (log : List Event)
    (table : Table)
    {es : List Endpoint}
    (h : (es.map fun e => (request base e).url).Nodup) :
    ∃ server : Server,
      let s := converse partner base log table es
      let run := takeEach server base table es
      s.samples = run.samples ∧ s.table = run.table := by
  induction es generalizing log table with
  | nil => exact ⟨fun _ => .failed "" (.zero false), rfl, rfl⟩
  | cons e es ih =>
      rcases List.nodup_cons.1 h with ⟨hNew, hOthers⟩
      let asked := request base e
      let taken := ofReply e (partner log asked) table
      rcases ih (log ++ [.asked asked, .shown taken.1]) taken.2
          hOthers with ⟨others, hSamples, hTable⟩
      let server : Server := fun url =>
        if url = asked.url then partner log asked else others url
      have hAsked : server asked.url = partner log asked :=
        if_pos rfl
      have hOther : ∀ url, url ≠ asked.url →
          server url = others url :=
        fun url hUrl => if_neg hUrl
      have hFirst : take server base e table = taken :=
        congrArg (ofReply e · table) hAsked
      have hSame : takeEach server base taken.2 es =
          takeEach others base taken.2 es := by
        refine takeEach_congr (fun d hd => hOther _ ?_) taken.2
        intro hUrl
        exact hNew (List.mem_map.2 ⟨d, hd, hUrl⟩)
      refine ⟨server, ?_, ?_⟩
      · simp only [takeEach, hFirst, hSame]
        exact congrArg (taken.1 :: ·) hSamples
      · simp only [takeEach, hFirst, hSame]
        exact hTable

end Sample

end TypedClient
