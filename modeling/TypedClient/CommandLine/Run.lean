import TypedClient.CommandLine.Options
import TypedClient.Package.Write
import TypedClient.Sample.Report
import TypedClient.Schema.Load

/-
  This file runs command lines on a file tree, among servers, and
  collects everything that can be seen of the run.

  Key definitions include:
    * `CommandLine.World`
    * `CommandLine.Crash`
    * `CommandLine.Result`
    * `CommandLine.run`
-/

namespace TypedClient

namespace CommandLine

------------------------------------------------------------
-- Surroundings
------------------------------------------------------------

/-
  What a run meets besides the file tree: the server that has the
  schema, the one whose endpoints are sampled, and the files that
  cannot be read though they are there.
-/
structure World where
  schema : Server
  endpoints : Server
  unread : Schema.ReadFaults

/-
  Why a run breaks off without a message: the schema or the
  package has a fault that nobody handles, or a line of the output
  has a surrogate.
-/
inductive Crash where
  | schema (e : Schema.Failure)
  | output
  | package (e : Package.Fault)
deriving DecidableEq, Repr

/-
  What can be seen of a run: its exit code, its output, the
  requests that it made, the tree that it leaves, and why it broke
  off, if it did.
-/
structure Result where
  exitCode : Nat
  output : String
  requests : List (Request Json)
  tree : FileTree
  crash : Option Crash

/- Lines as output. -/
def lineText (lines : List String) : String :=
  String.join (lines.map (· ++ "\n"))

/- The lines in front of the first one that has a surrogate. -/
def printed : List RawText → List String
  | [] => []
  | line :: lines =>
      match line.toString? with
      | some s => s :: printed lines
      | none => []

------------------------------------------------------------
-- Generation
------------------------------------------------------------

/- The options of a generation. -/
structure Plan where
  base : String
  out : FileTree.Path
  schemaPath : String
  schemaFile : Option FileTree.Path
  noSample : Bool

namespace Plan

/- The address of the schema. -/
def schemaUrl (p : Plan) : String :=
  Request.trimBase p.base ++ p.schemaPath

/- The line that says where the schema is sought. -/
def openingLine (p : Plan) : String :=
  match p.schemaFile with
  | some file => "Loading schema from " ++ file.text ++ "..."
  | none => "Fetching swagger schema..."

/- The requests that are made for the schema. -/
def schemaRequests (p : Plan) : List (Request Json) :=
  match p.schemaFile with
  | some _ => []
  | none => [⟨"GET", p.schemaUrl, none⟩]

/- The schema that is sought. -/
def schema
    (p : Plan)
    (world : World)
    (tree : FileTree) : Except Schema.Failure Schema :=
  match p.schemaFile with
  | some file => Schema.ofFile world.unread tree file
  | none =>
      Schema.ofReply p.schemaUrl (world.schema p.schemaUrl)

/- The site that is sampled. -/
def site (p : Plan) (world : World) : Option Site :=
  if p.noSample then none
  else some ⟨world.endpoints, p.base⟩

end Plan

/- The line about a schema. -/
def schemaLine (schema : Schema) : RawText :=
  RawText.ofString "Parsed schema: " ++ schema.title ++
    RawText.ofString " v" ++ schema.version ++
    RawText.ofString
      (", " ++ toString schema.paths.length ++ " paths")

/- The lines above those of the samples. -/
def foundLines (p : Plan) (endpoints : Nat) : List String :=
  ("Found " ++ toString endpoints ++ " endpoints") ::
    (if p.noSample then [] else Report.header)

/- The lines below those of the samples. -/
def summaryLines (p : Plan) (run : Sample.Run) : List String :=
  if p.noSample then [] else ["", Report.summary run.samples]

/- The lines about the files of a package. -/
def packageLines
    (p : Plan)
    (g : Generation)
    (step : Package.Step) : List String :=
  "" :: step.warnings ++
    (if step.fault.isSome then []
      else
        (step.paths.map fun f => "  Created " ++ f.text) ++
          ["Generated " ++ toString g.units.recordCount ++
            " models and " ++ toString g.endpoints.length ++
            " client methods",
            "Done! Generated code in: " ++ p.out.text])

/-
  The result of a run that broke off at a line of its output, with
  the lines before it and the requests for samples.
-/
def brokenOff
    (p : Plan)
    (tree : FileTree)
    (lines : List String)
    (requests : List (Request Json)) : Result :=
  ⟨1, lineText (p.openingLine :: lines),
    p.schemaRequests ++ requests, tree, some .output⟩

/- Write a package that was generated, behind some lines. -/
def writePackage
    (p : Plan)
    (tree : FileTree)
    (g : Generation)
    (lines : List String) : Result :=
  let requests := p.schemaRequests ++ g.sampling.requests
  let step := Package.write tree p.out g.units
  let output := lineText (p.openingLine :: lines ++
    summaryLines p g.sampling ++ packageLines p g step)
  match step.fault with
  | some e => ⟨1, output, requests, step.tree, some (.package e)⟩
  | none => ⟨0, output, requests, step.tree, none⟩

/-
  Generate a package from a schema.  Each sample is told of before
  the next one is requested.
-/
def generatePackage
    (p : Plan)
    (world : World)
    (tree : FileTree)
    (schema : Schema) : Result :=
  let g := Generation.run schema (p.site world)
  match (schemaLine schema).toString? with
  | none => brokenOff p tree [] []
  | some line =>
      let samples := g.sampling.samples.filterMap Report.line?
      let told := printed samples
      let lines := line :: foundLines p g.endpoints.length ++ told
      if told.length < samples.length then
        brokenOff p tree lines
          (g.sampling.requests.take (told.length + 1))
      else writePackage p tree g lines

/- Obtain a schema and generate a package from it. -/
def generate
    (p : Plan)
    (world : World)
    (tree : FileTree) : Result :=
  match p.schema world tree with
  | .ok schema => generatePackage p world tree schema
  | .error (.schema e) =>
      ⟨1, lineText [p.openingLine, "Error: " ++ e.message],
        p.schemaRequests, tree, none⟩
  | .error e =>
      ⟨1, lineText [p.openingLine], p.schemaRequests, tree,
        some (.schema e)⟩

------------------------------------------------------------
-- Removal
------------------------------------------------------------

/- Remove the units of a package. -/
def clean (out : FileTree.Path) (tree : FileTree) : Result :=
  let step := Package.clean tree out
  match step.fault with
  | some e => ⟨1, "", [], step.tree, some (.package e)⟩
  | none =>
      ⟨0, lineText
          ((step.paths.map fun f => "  Removed " ++ f.text) ++
            ["Removed " ++ toString step.paths.length ++
              " files from " ++ out.text]),
        [], step.tree, none⟩

------------------------------------------------------------
-- Command lines
------------------------------------------------------------

/- Run a command line. -/
def run
    (world : World)
    (env : List (String × String))
    (tree : FileTree)
    (args : List String) : Result :=
  match parse tree env args with
  | .error e => ⟨2, lineText e.lines, [], tree, none⟩
  | .ok (.help command) =>
      ⟨0, lineText (helpPage command), [], tree, none⟩
  | .ok (.clean out) => clean out tree
  | .ok (.generate base out schemaPath schemaFile noSample) =>
      generate ⟨base, out, schemaPath, schemaFile, noSample⟩
        world tree

end CommandLine

end TypedClient
