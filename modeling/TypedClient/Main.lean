import TypedClient.CommandLine.Reach
import TypedClient.CommandLine.Run
import TypedClient.Package.Change

/-
  This file runs a command line in the working directory.  No
  server is in reach of it: a schema is read from a file, and all
  requests fail.

  Key definitions include:
    * `CommandLine.here`
    * `CommandLine.runHere`
    * `main`
-/

namespace TypedClient

namespace CommandLine

/- A world in which no server can be reached. -/
def here : World :=
  let refuse : Server := fun url =>
    .failed ("connection refused: " ++ url.blanked) (.zero false)
  ⟨refuse, refuse, fun _ => none⟩

/- The environment variables that are set among some. -/
def readVariables
    (names : List String) : IO (List (String × String)) :=
  names.filterMapM fun name => do
    return (← IO.getEnv name).map fun value => (name, value)

/- A tree with what the disk has at a path. -/
def readPath
    (tree : FileTree)
    (p : FileTree.Path) : IO FileTree := do
  try
    let content ← IO.FS.readBinFile p.text
    return tree.put p content.toList
  catch _ =>
    try
      let full ← IO.FS.realPath p.text
      if ← full.isDir then
        return tree.withDirectory p
      else return tree
    catch _ => return tree

/- Make a change on the disk. -/
def apply : FileTree.Change → IO Unit
  | .make p => IO.FS.createDirAll p.text
  | .write p content =>
      IO.FS.writeBinFile p.text ⟨content.toArray⟩
  | .remove p => IO.FS.removeFile p.text

/-
  Run a command line in the working directory and return its exit
  code.
-/
def runHere (words : List String) : IO UInt32 := do
  let env ← readVariables envNames
  let tree ← (reach env words).foldlM readPath .empty
  let result := run here env tree words
  (tree.changes result.tree).forM apply
  (← IO.getStdout).putStr result.output
  return result.exitCode.toUInt32

end CommandLine

end TypedClient

/- Run a command line. -/
def main (words : List String) : IO UInt32 :=
  TypedClient.CommandLine.runHere words
