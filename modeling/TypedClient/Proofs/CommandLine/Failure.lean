import TypedClient.Proofs.CommandLine.Options
import TypedClient.Proofs.CommandLine.Search
import TypedClient.Proofs.Schema.Reading

/-
  This file says in which ways a generation may find no schema,
  and what a command line leaves behind then: nothing but one
  request for the schema, at most.

  Key definitions include:
    * `Schema.GivesNone`
    * `CommandLine.Plan.Fails`
    * `CommandLine.Stopped`

  Key theorems include:
    * `Schema.givesNone_iff`
    * `CommandLine.fails_iff`
    * `CommandLine.stopped_run`
-/

namespace TypedClient

------------------------------------------------------------
-- Texts
------------------------------------------------------------

namespace Schema

/-
  The ways in which a text gives no schema.

    * `unread`: no document is read from it
    * `noPaths`: its document has no mapping of paths
    * `unwritten`: a part of its document that is needed as a
      text cannot be written as one
-/
inductive GivesNone (text : List Char) : Prop
  | unread {e : Document.Fault}
      (h : Yaml.read text = .error e) : GivesNone text
  | noPaths {d : Document}
      (hRead : Yaml.read text = .ok d)
      (hNone : ∀ ps, ¬ HasPaths d ps) : GivesNone text
  | unwritten {d t : Document}
      {entries paths : List (Document × Document)}
      {e : Document.Fault}
      (hRead : Yaml.read text = .ok d)
      (hPaths : pathsEntries? d = some (entries, paths))
      (hMem : t ∈ schemaTexts entries paths)
      (hNone : t.label = .error e) : GivesNone text

/- There is no other way. -/
theorem givesNone_iff {text : List Char} :
    GivesNone text ↔ ∃ f, parse text = .error f := by
  constructor
  · intro h
    cases h with
    | @unread e hRead =>
        rw [parse, hRead]
        cases e with
        | malformed => exact ⟨_, rfl⟩
        | _ => exact ⟨_, rfl⟩
    | noPaths hRead hNone =>
        rw [parse, hRead]
        dsimp only
        rw [ofDocument, pathsEntries?_eq_none_iff.2 hNone]
        exact ⟨_, rfl⟩
    | unwritten hRead hPaths hMem hNone =>
        rw [parse, hRead]
        cases needs_ofDocument hPaths with
        | done schema _ hTexts =>
            have hFault := List.findSome?_eq_none_iff.1 hTexts _ hMem
            rw [faultOf?_eq_some_iff.2 hNone] at hFault
            cases hFault
        | stuck e h _ => exact ⟨_, h⟩
  · rintro ⟨f, h⟩
    cases hRead : Yaml.read text with
    | error e => exact .unread hRead
    | ok d =>
        cases hPaths : pathsEntries? d with
        | none =>
            exact .noPaths hRead
              (pathsEntries?_eq_none_iff.1 hPaths)
        | some found =>
            rcases found with ⟨entries, paths⟩
            rw [parse, hRead] at h
            cases needs_ofDocument hPaths with
            | done schema hOk _ =>
                have hBoth := hOk.symm.trans h
                cases hBoth
            | stuck e _ hFault =>
                rcases exists_label_of_firstFault? hFault with
                  ⟨t, hMem, hNone⟩
                exact .unwritten hRead hPaths hMem hNone

end Schema

namespace CommandLine

open Schema (GivesNone givesNone_iff)

------------------------------------------------------------
-- Searches
------------------------------------------------------------

/-
  The ways in which the search for a schema fails.

    * `unreachable`: the request for it fails
    * `refused`: the answer has another status than 200
    * `reply`: the text of the answer gives no schema
    * `unread`: the file cannot be read
    * `undecodable`: the file is not encoded as it has to be
    * `file`: the text of the file gives no schema
-/
inductive Plan.Fails
    (p : Plan)
    (world : World)
    (tree : FileTree) : Prop
  | unreachable {reason : String} {elapsed : Double}
      (hNoFile : p.schemaFile = none)
      (h : world.schema p.schemaUrl = .failed reason elapsed) :
      Fails p world tree
  | refused {r : Response}
      (hNoFile : p.schemaFile = none)
      (h : world.schema p.schemaUrl = .response r)
      (hStatus : r.status ≠ 200) : Fails p world tree
  | reply {r : Response}
      (hNoFile : p.schemaFile = none)
      (h : world.schema p.schemaUrl = .response r)
      (hStatus : r.status = 200)
      (hNone : GivesNone (Text.utf8Lossy r.body)) :
      Fails p world tree
  | unread {file : FileTree.Path} {bytes : Text.Bytes}
      {reason : String}
      (hFile : p.schemaFile = some file)
      (h : tree.file? file = some bytes)
      (hFault : world.unread file = some reason) :
      Fails p world tree
  | undecodable {file : FileTree.Path} {bytes : Text.Bytes}
      (hFile : p.schemaFile = some file)
      (h : tree.file? file = some bytes)
      (hRead : world.unread file = none)
      (hBytes : ∀ content, bytes ≠ Text.utf8 content) :
      Fails p world tree
  | file {file : FileTree.Path} {content : List Char}
      (hFile : p.schemaFile = some file)
      (h : tree.file? file = some (Text.utf8 content))
      (hRead : world.unread file = none)
      (hNone : GivesNone (Text.plainBreaks content)) :
      Fails p world tree

section

variable {p : Plan}
variable {world : World}
variable {tree : FileTree}

/- A reply gives no schema in one of three ways. -/
theorem fails_of_ofReply
    {f : Schema.Failure}
    (hNoFile : p.schemaFile = none)
    (h : Schema.ofReply p.schemaUrl
      (world.schema p.schemaUrl) = .error f) :
    p.Fails world tree := by
  cases hReply : world.schema p.schemaUrl with
  | failed reason elapsed => exact .unreachable hNoFile hReply
  | response r =>
      by_cases hStatus : r.status = 200
      · rw [hReply, Schema.ofReply, if_neg (not_not.2 hStatus)]
          at h
        exact .reply hNoFile hReply hStatus
          (givesNone_iff.2 ⟨f, h⟩)
      · exact .refused hNoFile hReply hStatus

/- So does a file that is there. -/
theorem fails_of_ofFile
    {file : FileTree.Path}
    {bytes : Text.Bytes}
    {f : Schema.Failure}
    (hFile : p.schemaFile = some file)
    (hBytes : tree.file? file = some bytes)
    (h : Schema.ofFile world.unread tree file = .error f) :
    p.Fails world tree := by
  rw [Schema.ofFile, hBytes] at h
  dsimp only at h
  cases hRead : world.unread file with
  | some reason => exact .unread hFile hBytes hRead
  | none =>
      rw [hRead] at h
      cases hText : Text.utf8Strict? bytes with
      | none =>
          refine .undecodable hFile hBytes hRead ?_
          intro content hEq
          rw [Text.utf8Strict?_eq_some_iff.2 hEq] at hText
          cases hText
      | some content =>
          rw [hText] at h
          have hCode := Text.utf8Strict?_eq_some_iff.1 hText
          exact .file hFile (hCode ▸ hBytes) hRead
            (givesNone_iff.2 ⟨f, h⟩)

/- A search that fails in one of these ways has a fault. -/
theorem Plan.Fails.exists_schema
    (h : p.Fails world tree) :
    ∃ f, p.schema world tree = .error f := by
  cases h with
  | unreachable hNoFile h =>
      rw [Plan.schema, hNoFile]
      exact ⟨_, by rw [h]; rfl⟩
  | refused hNoFile h hStatus =>
      rw [Plan.schema, hNoFile]
      exact ⟨_, by rw [h, Schema.ofReply, if_pos hStatus]⟩
  | reply hNoFile h hStatus hNone =>
      rw [Plan.schema, hNoFile]
      dsimp only
      rw [h, Schema.ofReply, if_neg (not_not.2 hStatus)]
      exact givesNone_iff.1 hNone
  | unread hFile h hFault =>
      rw [Plan.schema, hFile]
      dsimp only
      rw [Schema.ofFile, h, hFault]
      exact ⟨_, rfl⟩
  | undecodable hFile h hRead hBytes =>
      rw [Plan.schema, hFile]
      dsimp only
      rw [Schema.ofFile, h, hRead]
      dsimp only
      cases hText : Text.utf8Strict? _ with
      | none => exact ⟨_, rfl⟩
      | some content =>
          exact absurd (Text.utf8Strict?_eq_some_iff.1 hText)
            (hBytes content)
  | file hFile h hRead hNone =>
      rw [Plan.schema, hFile]
      dsimp only
      rw [Schema.ofFile, h, hRead]
      dsimp only
      rw [Text.utf8Strict?_eq_some_iff.2 rfl]
      exact givesNone_iff.1 hNone

/-
  The search of a command line that is accepted fails in one of
  these ways just if it has a fault: its file is there.
-/
theorem fails_iff
    {env : List (String × String)}
    {args : List String}
    (hParse : parse tree env args = .ok p.invocation) :
    p.Fails world tree ↔
      ∃ f, p.schema world tree = .error f := by
  constructor
  · exact Plan.Fails.exists_schema
  · rintro ⟨f, h⟩
    cases hFile : p.schemaFile with
    | none =>
        rw [Plan.schema, hFile] at h
        exact fails_of_ofReply hFile h
    | some file =>
        rw [Plan.schema, hFile] at h
        rw [Plan.invocation, hFile] at hParse
        have hThere := isFile_of_parse hParse
        rcases Option.isSome_iff_exists.1 hThere with
          ⟨bytes, hBytes⟩
        exact fails_of_ofFile hFile hBytes h

end

------------------------------------------------------------
-- Command lines
------------------------------------------------------------

/-
  What is seen of a run that stops since it has no schema.

    * `exitCode`: it says that it failed
    * `unchanged`: it leaves all files and directories as they were
    * `requests`: it has asked for the schema, unless that is in
      a file
    * `once`: it has made no request but that one
    * `unsampled`: no other endpoint matters to it
-/
structure Stopped
    (p : Plan)
    (world : World)
    (env : List (String × String))
    (tree : FileTree)
    (args : List String) : Prop where
  exitCode : (run world env tree args).exitCode = 1
  unchanged : (run world env tree args).tree = tree
  requests : (run world env tree args).requests = p.schemaRequests
  once : (run world env tree args).requests = [] ∨
    (run world env tree args).requests =
      [⟨"GET", p.schemaUrl, none⟩]
  unsampled (endpoints : Server) :
    run { world with endpoints := endpoints } env tree args =
      run world env tree args

/- The requests for a schema are none or one. -/
theorem schemaRequests_cases (p : Plan) :
    p.schemaRequests = [] ∨
      p.schemaRequests = [⟨"GET", p.schemaUrl, none⟩] := by
  unfold Plan.schemaRequests
  cases p.schemaFile with
  | some file => exact Or.inl rfl
  | none => exact Or.inr rfl

/- A generation without a schema, with a message or without. -/
theorem generate_of_error
    {p : Plan}
    {world : World}
    {tree : FileTree}
    {f : Schema.Failure}
    (h : p.schema world tree = .error f) :
    (∃ e, generate p world tree = p.reported tree e) ∨
      generate p world tree = p.broken tree f := by
  unfold generate
  rw [h]
  cases f with
  | schema e => exact Or.inl ⟨e, rfl⟩
  | document e => exact Or.inr rfl
  | undecodable => exact Or.inr rfl

/- A command line stops if its search for a schema has a fault. -/
theorem stopped_of_schema
    {p : Plan}
    {world : World}
    {env : List (String × String)}
    {tree : FileTree}
    {args : List String}
    {f : Schema.Failure}
    (hParse : parse tree env args = .ok p.invocation)
    (hSchema : p.schema world tree = .error f) :
    Stopped p world env tree args := by
  have hRun (world : World) :
      run world env tree args = generate p world tree := by
    rw [run, hParse]
    rfl
  have hSame (endpoints : Server) :
      generate p { world with endpoints := endpoints } tree =
        generate p world tree := by
    have hOther :
        p.schema { world with endpoints := endpoints } tree =
          .error f := hSchema
    unfold generate
    rw [hSchema, hOther]
    cases f with
    | schema e => rfl
    | document e => rfl
    | undecodable => rfl
  have hEnd : (generate p world tree).exitCode = 1 ∧
      (generate p world tree).tree = tree ∧
        (generate p world tree).requests =
          p.schemaRequests := by
    rcases generate_of_error hSchema with ⟨e, h⟩ | h
    · rw [h]
      exact ⟨rfl, rfl, rfl⟩
    · rw [h]
      exact ⟨rfl, rfl, rfl⟩
  rcases hEnd with ⟨hCode, hTree, hRequests⟩
  exact {
    exitCode := by rw [hRun, hCode]
    unchanged := by rw [hRun, hTree]
    requests := by rw [hRun, hRequests]
    once := by
      rw [hRun, hRequests]
      exact schemaRequests_cases p
    unsampled := fun endpoints => by
      rw [hRun, hRun, hSame] }

/-
  The search for a schema of a command line that starts a
  generation fails in one of the ways just if it has a fault, and
  the command line stops then.
-/
theorem stopped_run
    {p : Plan}
    {world : World}
    {env : List (String × String)}
    {tree : FileTree}
    {args : List String}
    (hParse : parse tree env args = .ok p.invocation) :
    (p.Fails world tree ↔
        ∃ f, p.schema world tree = .error f) ∧
      (p.Fails world tree → Stopped p world env tree args) := by
  refine ⟨fails_iff hParse, fun hFails => ?_⟩
  rcases hFails.exists_schema with ⟨f, hSchema⟩
  exact stopped_of_schema hParse hSchema

/- A generation that is given no options. -/
def barePlan : Plan :=
  ⟨"http://localhost:6397", FileTree.Path.ofText "lib",
    "/swagger-schema.json", none, false⟩

/- Servers that have nothing. -/
def bareWorld : World :=
  let missing : Server := fun _ =>
    .response ⟨404, [], .zero false⟩
  ⟨missing, missing, fun _ => none⟩

/- The word for a generation is a command line without options. -/
theorem parse_bare :
    parse .empty [] ["generate"] = .ok barePlan.invocation := by
  have hLong : "generate".startsWith "--" = false := by
    rw [Bool.eq_false_iff, ne_eq, String.startsWith_string_iff]
    decide
  have hShort : "generate".startsWith "-" = false := by
    rw [Bool.eq_false_iff, ne_eq, String.startsWith_string_iff]
    decide
  rw [parse, hLong, hShort]
  · rfl
  · decide

/- Where servers have nothing, it stops. -/
theorem stopped_run_bare :
    parse .empty [] ["generate"] = .ok barePlan.invocation ∧
      barePlan.Fails bareWorld .empty ∧
        Stopped barePlan bareWorld [] .empty ["generate"] := by
  have hFails : barePlan.Fails bareWorld .empty :=
    .refused rfl rfl (by decide)
  exact ⟨parse_bare, hFails, (stopped_run parse_bare).2 hFails⟩

end CommandLine

end TypedClient
