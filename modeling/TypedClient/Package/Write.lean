import TypedClient.Package.FileTree
import TypedClient.Package.Units
import TypedClient.Source.Format

/-
  This file writes the emitted units into a directory as a
  package, and removes them again.

  Key definitions include:
    * `Package.modelsFile`
    * `Package.clientFile`
    * `Package.initFile`
    * `Package.Step`
    * `Package.write`
    * `Package.clean`
-/

namespace TypedClient

namespace Package

------------------------------------------------------------
-- Files
------------------------------------------------------------

/- The file of the models. -/
def modelsFile : String :=
  "models.py"

/- The file of the client. -/
def clientFile : String :=
  "client.py"

/- The file that makes the directory a package. -/
def initFile : String :=
  "__init__.py"

/- The content of the file that makes the directory a package. -/
def initSource : RawText :=
  Emit.unitText (Emit.plain
    ["\"\"\"Generated API client.\"\"\"",
      "",
      "from .client import ApiError, Client, DecodeError",
      "",
      "__all__ = [\"ApiError\", \"Client\", \"DecodeError\"]"])

/- The bytes of a written text, which has no surrogates. -/
def encoded (t : RawText) : Text.Bytes :=
  t.blanked.toUTF8.toList

------------------------------------------------------------
-- Steps
------------------------------------------------------------

/-
  Why a step ends early: the tree cannot be changed so, or a unit
  cannot be read at all.
-/
inductive Fault where
  | tree (e : FileTree.Fault)
  | unreadable (e : Source.Unreadable)
deriving DecidableEq, Repr

/-
  What a step did: the tree behind it, the files that it wrote or
  removed, its warnings, and the fault at which it ended early.
-/
structure Step where
  tree : FileTree
  paths : List FileTree.Path
  warnings : List String
  fault : Option Fault

namespace Step

/- A step that has done nothing yet. -/
def start (tree : FileTree) : Step :=
  ⟨tree, [], [], none⟩

/- End a step early. -/
def fail (s : Step) (e : Fault) : Step :=
  { s with fault := some e }

/- Go on unless the step has ended. -/
def andThen (s : Step) (next : Step → Step) : Step :=
  match s.fault with
  | none => next s
  | some _ => s

/- Change the tree. -/
def change
    (s : Step)
    (f : FileTree → Except FileTree.Fault FileTree) : Step :=
  match f s.tree with
  | .ok tree => { s with tree := tree }
  | .error e => s.fail (.tree e)

/- Change the file of a path. -/
def changeFile
    (s : Step)
    (p : FileTree.Path)
    (f : FileTree → Except FileTree.Fault FileTree) : Step :=
  match f s.tree with
  | .ok tree => { s with tree := tree, paths := s.paths ++ [p] }
  | .error e => s.fail (.tree e)

end Step

------------------------------------------------------------
-- Writing
------------------------------------------------------------

/- The warning about a unit that is written as it is. -/
def warning (p : FileTree.Path) (message : String) : String :=
  "Warning: formatting failed for " ++ p.text ++ ": " ++
    message ++ " (writing unformatted)"

/- Write a unit, formatted if it is accepted. -/
def writeUnit
    (out : FileTree.Path)
    (file : String)
    (text : RawText)
    (s : Step) : Step :=
  let p := out.child file
  match Source.format file text with
  | .ok formatted =>
      s.changeFile p (·.write p (encoded formatted))
  | .error (.mistake message) =>
      { s with warnings := s.warnings ++ [warning p message] }
        |>.changeFile p (·.write p (encoded text))
  | .error (.unreadable e) => s.fail (.unreadable e)

/- Write the file that makes the directory a package, once. -/
def writeInit (out : FileTree.Path) (s : Step) : Step :=
  let p := out.child initFile
  if s.tree.contains p then s
  else s.changeFile p (·.write p (encoded initSource))

/- Write units as a package. -/
def write
    (tree : FileTree)
    (out : FileTree.Path)
    (units : Units) : Step :=
  (Step.start tree).change (·.makeDirectory out)
    |>.andThen (writeUnit out modelsFile units.models)
    |>.andThen (writeUnit out clientFile units.client)
    |>.andThen (writeInit out)

------------------------------------------------------------
-- Removal
------------------------------------------------------------

/- Remove a file if there is one. -/
def removeUnit
    (out : FileTree.Path)
    (file : String)
    (s : Step) : Step :=
  let p := out.child file
  if s.tree.contains p then s.changeFile p (·.remove p)
  else s

/- Remove the units of a package. -/
def clean (tree : FileTree) (out : FileTree.Path) : Step :=
  (Step.start tree)
    |>.andThen (removeUnit out modelsFile)
    |>.andThen (removeUnit out clientFile)

end Package

end TypedClient
