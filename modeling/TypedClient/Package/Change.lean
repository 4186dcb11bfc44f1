import TypedClient.Package.FileTree

/-
  This file lists what has to be done to turn one file tree into
  another.

  Key definitions include:
    * `FileTree.Change`
    * `FileTree.changes`
-/

namespace TypedClient

namespace FileTree

/- A directory is made, or a file is written or removed. -/
inductive Change where
  | make (p : Path)
  | write (p : Path) (content : Text.Bytes)
  | remove (p : Path)
deriving DecidableEq, Repr

/- The changes that turn a tree into another one. -/
def changes (old new : FileTree) : List Change :=
  let made := new.directories.filter fun p =>
    !old.directories.contains p
  let written := new.files.filter fun f =>
    old.file? f.1 ≠ some f.2
  let removed := old.files.filter fun f => !new.isFile f.1
  made.map .make ++ written.map (fun f => .write f.1 f.2) ++
    removed.map (.remove ·.1)

end FileTree

end TypedClient
