import TypedClient.Main
import TypedClient.Proofs.CommandLine.Failure
import TypedClient.Proofs.CommandLine.Search
import TypedClient.Proofs.Emit.Containment
import TypedClient.Proofs.Emit.Literals
import TypedClient.Proofs.Emit.MethodNames
import TypedClient.Proofs.Emit.Placeholders
import TypedClient.Proofs.Emit.Sampled
import TypedClient.Proofs.Emit.Template
import TypedClient.Proofs.Emit.TypeNames
import TypedClient.Proofs.Endpoint.Order
import TypedClient.Proofs.Json.Classification
import TypedClient.Proofs.Json.Number
import TypedClient.Proofs.Name.Log
import TypedClient.Proofs.Name.Respelling
import TypedClient.Proofs.Name.Spelling
import TypedClient.Proofs.Number.Midpoint
import TypedClient.Proofs.Number.Nearest
import TypedClient.Proofs.Package.Accounts
import TypedClient.Proofs.Package.Annotations
import TypedClient.Proofs.Package.Collision
import TypedClient.Proofs.Package.Formatting
import TypedClient.Proofs.Package.Isolation
import TypedClient.Proofs.Package.Links
import TypedClient.Proofs.Package.Reordering
import TypedClient.Proofs.Package.Unreadable
import TypedClient.Proofs.Package.Upkeep
import TypedClient.Proofs.Sample.Outcome
import TypedClient.Proofs.Sample.Session
import TypedClient.Proofs.Schema.Formats
import TypedClient.Proofs.Schema.Reading
import TypedClient.Proofs.Shape.Conformance
import TypedClient.Proofs.Shape.Depth
import TypedClient.Proofs.Shape.Place
import TypedClient.Proofs.Shape.Scratch
import TypedClient.Proofs.Source.Docstring
import TypedClient.Proofs.Source.Formatted
import TypedClient.Proofs.Source.Literal
