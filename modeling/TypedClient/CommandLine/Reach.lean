import TypedClient.CommandLine.Options
import TypedClient.Package.Write

/-
  This file lists the files and the environment variables that a
  command line may look at.

  Key definitions include:
    * `CommandLine.envNames`
    * `CommandLine.reach`
-/

namespace TypedClient

namespace CommandLine

/- The environment variables that stand in for options. -/
def envNames : List String :=
  Command.generate.settings.filterMap Setting.envName?

/- The texts of a word that may name a file. -/
def textsOf (word : String) : List String :=
  [word, String.ofList (word.toList.drop 2)] ++
    (splitValue word).2.toList

/- A path, the paths above it, and the units below it. -/
def around (p : FileTree.Path) : List FileTree.Path :=
  p.above ++ p ::
    [Package.modelsFile, Package.clientFile,
      Package.initFile].map p.child

/- The paths that a command line may look at. -/
def reach
    (env : List (String × String))
    (words : List String) : List FileTree.Path :=
  let texts := words.flatMap textsOf ++ env.map (·.2) ++
    Command.generate.settings.filterMap Setting.default?
  ((texts.map FileTree.Path.ofText).flatMap around).eraseDups

end CommandLine

end TypedClient
