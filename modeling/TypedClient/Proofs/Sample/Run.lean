import TypedClient.Proofs.Json.WellFormed
import TypedClient.Proofs.Shape.Reference
import TypedClient.Sample.Basic

/-
  This file describes a run of samples by what each endpoint
  brings in by itself: the shape of its own response and a table
  of the records in it.  The table behind a run is all of these
  tables, merged in the order of the endpoints.

  Key definitions include:
    * `Sample.payload?`
    * `Sample.own?`

  Key theorems include:
    * `Sample.take_of_own_none`
    * `Sample.take_of_own_some`
    * `Sample.table_takeEach`
    * `Sample.shapes_takeEach`
    * `Sample.reachable_takeEach`
-/

namespace TypedClient

namespace Sample

------------------------------------------------------------
-- One sample
------------------------------------------------------------

/- The value that a reply brings, if it is one in JSON. -/
def payload? (reply : Reply) : Option Json :=
  match reply with
  | .failed _ _ => none
  | .response r =>
      if r.status ≠ 200 ∨ r.body.isEmpty then none
      else (Json.decodeBytes r.body).toOption

/-
  What an endpoint brings in by itself: the shape of the value
  that the server replies with, and the table of the records in
  it, unless there is no value or it is nested too deeply.
-/
def own?
    (server : Server)
    (base : String)
    (e : Endpoint) : Option (Shape × Shape.Table) :=
  (payload? (server (request base e).url)).bind fun value =>
    let found := Shape.inferResponse e.funcName value .empty
    found.result.map fun shape => (shape, found.table)

/- A response that has the good status and a body. -/
structure IsComplete (r : Response) : Prop where
  status : r.status = 200
  body : r.body ≠ []

/- A complete response is decoded. -/
theorem IsComplete.ofReply_eq
    {r : Response}
    (h : IsComplete r)
    (e : Endpoint)
    (table : Shape.Table) :
    ofReply e (.response r) table =
      match Json.decodeBytes r.body with
      | .error _ => (ofResponse e r .notJson, table)
      | .ok value => ofJson e r value table := by
  have hBody : ¬ r.body.isEmpty = true := fun hEmpty =>
    h.body (List.isEmpty_iff.1 hEmpty)
  exact (if_neg (not_not_intro h.status)).trans (if_neg hBody)

/- A value is brought by a complete response that decodes to it. -/
theorem payload?_eq_some_iff
    {reply : Reply}
    {value : Json} :
    payload? reply = some value ↔
      ∃ r, reply = .response r ∧ IsComplete r ∧
        Json.decodeBytes r.body = .ok value := by
  constructor
  · intro h
    cases reply with
    | failed error elapsed => cases h
    | response r =>
        simp only [payload?] at h
        split at h
        next => cases h
        next hComplete =>
          rcases not_or.1 hComplete with ⟨hStatus, hBody⟩
          have hGood : IsComplete r := ⟨Decidable.not_not.1 hStatus,
            fun hNil => hBody (List.isEmpty_iff.2 hNil)⟩
          cases hJson : Json.decodeBytes r.body with
          | error error =>
              rw [hJson] at h
              cases h
          | ok v =>
              rw [hJson] at h
              cases h
              exact ⟨r, rfl, hGood, hJson⟩
  · rintro ⟨r, rfl, hComplete, hJson⟩
    simp [payload?, hComplete.status, hComplete.body, hJson,
      Except.toOption]

theorem wellFormed_of_payload?
    {reply : Reply}
    {value : Json}
    (h : payload? reply = some value) : value.WellFormed := by
  rcases payload?_eq_some_iff.1 h with ⟨r, _, _, hJson⟩
  exact Json.wellFormed_of_decodeBytes hJson

/- What an endpoint brings in is inferred from its reply. -/
theorem own?_eq_some
    {server : Server}
    {base : String}
    {e : Endpoint}
    {shape : Shape}
    {own : Shape.Table}
    (h : own? server base e = some (shape, own)) :
    ∃ value : Json,
      payload? (server (request base e).url) = some value ∧
      Shape.inferResponse e.funcName value .empty =
        ⟨some shape, own⟩ := by
  rcases Option.bind_eq_some_iff.1 h with
    ⟨value, hValue, hFound⟩
  rcases Option.map_eq_some_iff.1 hFound with
    ⟨found, hResult, hEq⟩
  cases hEq
  refine ⟨value, hValue, ?_⟩
  rw [← hResult]

/- A sample is of the endpoint that was requested. -/
theorem endpoint_take
    (server : Server)
    (base : String)
    (e : Endpoint)
    (table : Shape.Table) :
    (take server base e table).1.endpoint = e := by
  simp only [take, ofReply]
  split
  · rfl
  · split
    · rfl
    · split
      · rfl
      · split
        · rfl
        · simp only [ofJson]
          split <;> rfl

/- A reply without a value leaves the table as it is. -/
theorem ofReply_of_payload?_eq_none
    {reply : Reply}
    (h : payload? reply = none)
    (e : Endpoint)
    (table : Shape.Table) :
    (ofReply e reply table).1.isOk = false ∧
      (ofReply e reply table).2 = table := by
  cases reply with
  | failed error elapsed => exact ⟨rfl, rfl⟩
  | response r =>
      simp only [payload?] at h
      simp only [ofReply]
      by_cases hStatus : r.status ≠ 200
      · rw [if_pos hStatus]
        exact ⟨rfl, rfl⟩
      · by_cases hEmpty : r.body.isEmpty = true
        · rw [if_neg hStatus, if_pos hEmpty]
          exact ⟨rfl, rfl⟩
        · rw [if_neg (not_or.2 ⟨hStatus, hEmpty⟩)] at h
          rw [if_neg hStatus, if_neg hEmpty]
          cases hDecoded : Json.decodeBytes r.body with
          | error _ => exact ⟨rfl, rfl⟩
          | ok value =>
              rw [hDecoded] at h
              cases h

/- The value that a reply brings is inferred. -/
theorem ofReply_of_payload?_eq_some
    {reply : Reply}
    {value : Json}
    (h : payload? reply = some value)
    (e : Endpoint)
    (table : Shape.Table) :
    ∃ r, ofReply e reply table = ofJson e r value table := by
  rcases payload?_eq_some_iff.1 h with ⟨r, rfl, hComplete, hJson⟩
  refine ⟨r, ?_⟩
  rw [hComplete.ofReply_eq, hJson]

/- An endpoint that brings in nothing leaves the table as it is. -/
theorem take_of_own_none
    {server : Server}
    {base : String}
    {e : Endpoint}
    (h : own? server base e = none)
    (table : Shape.Table) :
    (take server base e table).1.isOk = false ∧
      (take server base e table).2 = table := by
  rw [own?] at h
  rw [take]
  cases hValue : payload? (server (request base e).url) with
  | none => exact ofReply_of_payload?_eq_none hValue e table
  | some value =>
      rw [hValue] at h
      have hNone := Option.map_eq_none_iff.1 h
      rcases ofReply_of_payload?_eq_some hValue e table with
        ⟨r, hSample⟩
      rw [hSample]
      simp only [ofJson, hNone]
      exact ⟨rfl, trivial⟩

/- An endpoint that brings something in has it merged. -/
theorem take_of_own_some
    {server : Server}
    {base : String}
    {e : Endpoint}
    {shape : Shape}
    {own : Shape.Table}
    (h : own? server base e = some (shape, own))
    (table : Shape.Table) :
    (take server base e table).1.isOk = true ∧
      (take server base e table).1.shape = some shape ∧
      (take server base e table).2 = table.merge own := by
  rcases own?_eq_some h with ⟨value, hValue, hFound⟩
  rcases ofReply_of_payload?_eq_some hValue e table with
    ⟨r, hSample⟩
  rw [take, hSample]
  simp only [ofJson, hFound]
  exact ⟨rfl, trivial, trivial⟩

------------------------------------------------------------
-- Runs
------------------------------------------------------------

/- The samples of a run are of its endpoints, in order. -/
theorem endpoints_takeEach
    (server : Server)
    (base : String)
    (table : Shape.Table)
    (es : List Endpoint) :
    (takeEach server base table es).samples.map endpoint =
      es := by
  induction es generalizing table with
  | nil => rfl
  | cons e es ih =>
      simp only [takeEach, List.map_cons, endpoint_take, ih]

/- The sample of an endpoint does not depend on the table. -/
theorem fst_take_eq
    (server : Server)
    (base : String)
    (e : Endpoint)
    (t u : Shape.Table) :
    (take server base e t).1 = (take server base e u).1 := by
  simp only [take, ofReply]
  split
  · rfl
  · split
    · rfl
    · split
      · rfl
      · split
        · rfl
        · simp only [ofJson]
          split <;> rfl

/- The samples of a run are taken of each endpoint by itself. -/
theorem samples_takeEach
    (server : Server)
    (base : String)
    (table : Shape.Table)
    (es : List Endpoint) :
    (takeEach server base table es).samples =
      es.map fun e => (take server base e .empty).1 := by
  induction es generalizing table with
  | nil => rfl
  | cons e es ih =>
      simp only [takeEach, List.map_cons, ih,
        fst_take_eq server base e table .empty]

/- Each endpoint of a run is requested once, in order. -/
theorem requests_takeEach
    (server : Server)
    (base : String)
    (table : Shape.Table)
    (es : List Endpoint) :
    (takeEach server base table es).requests =
      es.map (request base) := by
  induction es generalizing table with
  | nil => rfl
  | cons e es ih =>
      simp only [takeEach, List.map_cons, ih]

/- A sample of a run is fine if its endpoint brings in a shape. -/
theorem isOk_of_mem_takeEach
    {server : Server}
    {base : String}
    {table : Shape.Table}
    {es : List Endpoint}
    {s : Sample}
    (h : s ∈ (takeEach server base table es).samples) :
    s.isOk = (own? server base s.endpoint).isSome := by
  induction es generalizing table with
  | nil => cases h
  | cons e es ih =>
      rcases List.mem_cons.1 h with rfl | h
      · rw [endpoint_take]
        cases hOwn : own? server base e with
        | none => exact (take_of_own_none hOwn table).1
        | some own => exact (take_of_own_some hOwn table).1
      · exact ih h

/- The table behind a run has merged what was brought in. -/
theorem table_takeEach
    (server : Server)
    (base : String)
    (table : Shape.Table)
    (es : List Endpoint) :
    (takeEach server base table es).table =
      table.mergeAll
        ((es.filterMap (own? server base)).map Prod.snd) := by
  induction es generalizing table with
  | nil => rfl
  | cons e es ih =>
      simp only [takeEach, ih]
      cases hOwn : own? server base e with
      | none =>
          rw [(take_of_own_none hOwn table).2,
            List.filterMap_cons_none hOwn]
      | some own =>
          rw [(take_of_own_some hOwn table).2.2,
            List.filterMap_cons_some hOwn]
          rfl

/- The shapes of a run are those that were brought in. -/
theorem shapes_takeEach
    (server : Server)
    (base : String)
    (table : Shape.Table)
    (es : List Endpoint) :
    shapes (takeEach server base table es).samples =
      es.filterMap fun e =>
        (own? server base e).map fun own => (e.key, own.1) := by
  induction es generalizing table with
  | nil => rfl
  | cons e es ih =>
      have hEndpoint := endpoint_take server base e table
      have hOthers := ih (take server base e table).2
      simp only [shapes] at hOthers
      simp only [takeEach, shapes, List.filterMap_cons, hOthers]
      cases hOwn : own? server base e with
      | none =>
          simp [(take_of_own_none hOwn table).1]
      | some own =>
          have hTaken := take_of_own_some hOwn table
          simp [hTaken.1, hTaken.2.1, hEndpoint]

/- The tables that runs lead to are reachable. -/
theorem reachable_takeEach
    {server : Server}
    {base : String}
    {table : Shape.Table}
    {es : List Endpoint}
    (hTable : Shape.Reachable table)
    (hEndpoints : ∀ e ∈ es, ∃ m : Schema.Method,
      e.funcName = Endpoint.funcNameOf m.text e.path) :
    Shape.Reachable (takeEach server base table es).table := by
  induction es generalizing table with
  | nil => exact hTable
  | cons e es ih =>
      refine ih ?_ fun d hd =>
        hEndpoints d (List.mem_cons_of_mem e hd)
      cases hOwn : own? server base e with
      | none =>
          rw [(take_of_own_none hOwn table).2]
          exact hTable
      | some own =>
          rw [(take_of_own_some hOwn table).2.2]
          rcases hEndpoints e List.mem_cons_self with
            ⟨m, hName⟩
          rcases own?_eq_some hOwn with
            ⟨value, hValue, hFound⟩
          rw [hName] at hFound
          have hOwnTable := Shape.Reachable.respond .empty m
            e.path (wellFormed_of_payload? hValue)
          rw [hFound] at hOwnTable
          exact hTable.merge hOwnTable

end Sample

end TypedClient
