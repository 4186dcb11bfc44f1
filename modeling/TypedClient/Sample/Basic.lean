import TypedClient.Endpoint.Basic
import TypedClient.Json.Decode
import TypedClient.Shape.Infer

/-
  This file requests each endpoint that can be called without
  input and infers the shape of what comes back.  The records of
  a sample reach the table only if the whole sample is inferred.

  Key definitions include:
    * `Reply`
    * `Request`
    * `Sample.Outcome`
    * `Sample`
    * `Sample.take`
    * `Sample.takeAll`
-/

namespace TypedClient

------------------------------------------------------------
-- Requests and replies
------------------------------------------------------------

/- A response of a server: a status, a body and its duration. -/
structure Response where
  status : Int
  body : Text.Bytes
  elapsed : Double

/- What comes of a request: a response, or a failure on the way. -/
inductive Reply where
  | response (r : Response)
  | failed (error : String) (elapsed : Double)

/- What a server replies to a request for each address. -/
abbrev Server :=
  RawText → Reply

/- A request, with a body of some kind if it has one. -/
structure Request (β : Type) where
  method : String
  url : RawText
  body : Option β
deriving Repr

namespace Request

/- An address without the slashes at its end. -/
def trimBase (base : String) : String :=
  String.ofList
    (base.toList.reverse.dropWhile (· = '/')).reverse

/- The request for a path below a base address. -/
def below
    {β : Type}
    (base method : String)
    (path : RawText)
    (body : Option β) : Request β :=
  ⟨method, RawText.ofString (trimBase base) ++ path, body⟩

end Request

------------------------------------------------------------
-- Samples
------------------------------------------------------------

/- What became of a sample. -/
inductive Sample.Outcome where
  | ok
  | transportError
  | badStatus
  | empty
  | notJson
  | notInferable
deriving DecidableEq, Repr

namespace Sample.Outcome

/- All outcomes. -/
def all : List Outcome :=
  [ok, transportError, badStatus, empty, notJson, notInferable]

/- The word for an outcome. -/
def text : Outcome → String
  | ok => "ok"
  | transportError => "error"
  | badStatus => "status"
  | empty => "empty"
  | notJson => "not JSON"
  | notInferable => "not inferable"

/- The outcome that a word stands for. -/
def ofText? (s : String) : Option Outcome :=
  all.find? fun o => o.text = s

end Sample.Outcome

/- What happened when an endpoint was requested. -/
structure Sample where
  endpoint : Endpoint
  outcome : Sample.Outcome
  status : Option Int
  size : Int
  elapsed : Double
  error : String
  shape : Option Shape
deriving Repr

namespace Sample

/- Whether a shape was inferred. -/
def isOk (s : Sample) : Bool :=
  s.outcome = .ok

/- The sample of a response without an inferred shape. -/
def ofResponse
    (e : Endpoint)
    (r : Response)
    (outcome : Outcome) : Sample :=
  { endpoint := e
    outcome := outcome
    status := some r.status
    size := r.body.length
    elapsed := r.elapsed
    error := ""
    shape := none }

/- The message for a sample that is nested too deeply. -/
def tooDeepMessage : String :=
  "sample nested too deeply"

/- The sample of a decoded response. -/
def ofJson
    (e : Endpoint)
    (r : Response)
    (value : Json)
    (table : Shape.Table) : Sample × Shape.Table :=
  let found := Shape.inferResponse e.funcName value .empty
  match found.result with
  | some shape =>
      ({ ofResponse e r .ok with shape := some shape },
        table.merge found.table)
  | none =>
      ({ ofResponse e r .notInferable with
        error := tooDeepMessage }, table)

/- The sample of a reply. -/
def ofReply
    (e : Endpoint)
    (reply : Reply)
    (table : Shape.Table) : Sample × Shape.Table :=
  match reply with
  | .failed error elapsed =>
      (⟨e, .transportError, none, 0, elapsed, error, none⟩,
        table)
  | .response r =>
      if r.status ≠ 200 then (ofResponse e r .badStatus, table)
      else if r.body.isEmpty then
        (ofResponse e r .empty, table)
      else
        match Json.decodeBytes r.body with
        | .error _ => (ofResponse e r .notJson, table)
        | .ok value => ofJson e r value table

/- The request that samples an endpoint. -/
def request (base : String) (e : Endpoint) : Request Json :=
  Request.below base "GET" e.path none

/- Request an endpoint. -/
def take
    (server : Server)
    (base : String)
    (e : Endpoint)
    (table : Shape.Table) : Sample × Shape.Table :=
  ofReply e (server (request base e).url) table

------------------------------------------------------------
-- Runs
------------------------------------------------------------

/-
  A run of samples: the requests that were made, the samples, and
  the table behind them.
-/
structure Run where
  requests : List (Request Json)
  samples : List Sample
  table : Shape.Table

/- The endpoints that are sampled. -/
def eligible (endpoints : List Endpoint) : List Endpoint :=
  endpoints.filter Endpoint.isCallable

/- Request endpoints one after another. -/
def takeEach
    (server : Server)
    (base : String)
    (table : Shape.Table) : List Endpoint → Run
  | [] => ⟨[], [], table⟩
  | e :: es =>
      let taken := take server base e table
      let others := takeEach server base taken.2 es
      { others with
        requests := request base e :: others.requests
        samples := taken.1 :: others.samples }

/- Sample all endpoints that can be called without input. -/
def takeAll
    (server : Server)
    (base : String)
    (endpoints : List Endpoint) : Run :=
  takeEach server base .empty (eligible endpoints)

/- The shapes that were inferred, by endpoint. -/
def shapes (samples : List Sample) : List (RawText × Shape) :=
  samples.filterMap fun s =>
    if s.isOk then s.shape.map (s.endpoint.key, ·) else none

end Sample

end TypedClient
