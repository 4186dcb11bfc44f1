import TypedClient.Emit.Client
import TypedClient.Emit.Models
import TypedClient.Sample.Basic

/-
  This file runs a generation: endpoints are sampled, shapes are
  collected, and both units are emitted.

  Key definitions include:
    * `Units`
    * `Generation`
    * `Generation.run`
-/

namespace TypedClient

/-
  The emitted units, the shapes of responses by endpoint, and the
  number of records.
-/
structure Units where
  models : RawText
  client : RawText
  shapes : List (RawText × Shape)
  recordCount : Nat

/- The units of a schema whose endpoints were sampled. -/
def Units.ofSamples
    (schema : Schema)
    (endpoints : List Endpoint)
    (samples : List Sample)
    (table : Shape.Table) : Units :=
  let shapes := Sample.shapes samples
  { models :=
      Emit.models table.records schema.title schema.version
    client := Emit.client endpoints shapes
    shapes := shapes
    recordCount := table.records.length }

/- A server and the address that requests to it start with. -/
structure Site where
  server : Server
  base : String

/- What a generation did and made. -/
structure Generation where
  endpoints : List Endpoint
  sampling : Sample.Run
  units : Units

namespace Generation

/- The sampling of endpoints, if there is a site to sample. -/
def sample
    (site : Option Site)
    (endpoints : List Endpoint) : Sample.Run :=
  match site with
  | none => ⟨[], [], .empty⟩
  | some s => Sample.takeAll s.server s.base endpoints

/- Generate both units from a schema. -/
def run
    (schema : Schema)
    (site : Option Site) : Generation :=
  let endpoints := Endpoint.ofSchema schema
  let found := sample site endpoints
  { endpoints := endpoints
    sampling := found
    units := Units.ofSamples schema endpoints found.samples
      found.table }

end Generation

end TypedClient
