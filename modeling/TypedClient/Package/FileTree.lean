import TypedClient.Text.Encoding

/-
  This file defines file trees below a working directory: files
  with their contents, and directories.  What is above a file or
  a directory is a directory in every tree.

  Key definitions include:
    * `FileTree.Path`
    * `FileTree.Path.above`
    * `FileTree`
    * `FileTree.Fault`
    * `FileTree.makeDirectory`
    * `FileTree.write`
    * `FileTree.remove`
-/

namespace TypedClient

------------------------------------------------------------
-- Paths
------------------------------------------------------------

/-
  A path by its parts; the first part of an absolute path is a
  slash.
-/
abbrev FileTree.Path :=
  List String

namespace FileTree.Path

/- Whether a part of a path is written. -/
def isPart (part : String) : Bool :=
  !part.isEmpty && part ≠ "."

/- The path that a text names. -/
def ofText (s : String) : Path :=
  let parts := (s.splitOn "/").filter isPart
  if s.startsWith "/" then "/" :: parts else parts

/- The text of a path. -/
def text (p : Path) : String :=
  match p with
  | [] => "."
  | ["/"] => "/"
  | "/" :: parts => "/" ++ "/".intercalate parts
  | parts => "/".intercalate parts

/- The path of a file in a directory. -/
def child (p : Path) (file : String) : Path :=
  p ++ [file]

/- The paths above a path. -/
def above (p : Path) : List Path :=
  (List.range p.length).map p.take

/- A path is above another one if it is a proper start of it. -/
theorem mem_above {p q : Path} : p ∈ q.above ↔ p <+: q ∧ p ≠ q := by
  unfold above
  rw [List.mem_map]
  constructor
  · rintro ⟨n, hn, rfl⟩
    refine ⟨List.take_prefix n q, fun hEq => ?_⟩
    have hLength := congrArg List.length hEq
    rw [List.length_take] at hLength
    have hBound := List.mem_range.1 hn
    omega
  · rintro ⟨hPrefix, hNe⟩
    refine ⟨p.length, List.mem_range.2 ?_,
      (List.prefix_iff_eq_take.1 hPrefix).symm⟩
    apply Nat.lt_of_le_of_ne hPrefix.length_le
    exact fun hEq => hNe (hPrefix.eq_of_length hEq)

/- What is above something above a path is above the path. -/
theorem above_trans
    {p q r : Path}
    (hFirst : p ∈ q.above)
    (hSecond : q ∈ r.above) : p ∈ r.above := by
  rw [mem_above] at hFirst hSecond ⊢
  refine ⟨hFirst.1.trans hSecond.1, fun hEq => ?_⟩
  apply hFirst.2
  apply hFirst.1.eq_of_length
  apply Nat.le_antisymm hFirst.1.length_le
  rw [hEq]
  exact hSecond.1.length_le

end FileTree.Path

------------------------------------------------------------
-- Trees
------------------------------------------------------------

/-
  Files with their contents, and directories.  Everything above a
  file or a directory is among the directories.
-/
@[ext]
structure FileTree where
  files : List (FileTree.Path × Text.Bytes)
  directories : List FileTree.Path
  files_closed : ∀ f ∈ files, f.1.above ⊆ directories
  directories_closed : ∀ p ∈ directories, p.above ⊆ directories

namespace FileTree

/-
  Why a tree is not changed: a file stands where a directory has
  to be, something in the way is no directory, or a directory
  stands where a file has to be.
-/
inductive Fault where
  | fileExists
  | notDirectory
  | isDirectory
deriving DecidableEq, Repr

/- The tree without files. -/
def empty : FileTree :=
  ⟨[], [], by simp, by simp⟩

/- The content of a file. -/
def file? (t : FileTree) (p : Path) : Option Text.Bytes :=
  t.files.lookup p

/- Whether a path names a file. -/
def isFile (t : FileTree) (p : Path) : Bool :=
  (t.file? p).isSome

/- Whether a path names a directory; the two roots always do. -/
def isDirectory (t : FileTree) (p : Path) : Bool :=
  p = [] || p = ["/"] || p ∈ t.directories

/- Whether anything has a path. -/
def contains (t : FileTree) (p : Path) : Bool :=
  t.isFile p || t.isDirectory p

/- Whether a file stands in the way to a path. -/
def isBlocked (t : FileTree) (p : Path) : Bool :=
  t.files.any fun f => f.1.isPrefixOf p && f.1 ≠ p

/- A tree with directories for all that is above a path. -/
def reaching (t : FileTree) (p : Path) : FileTree where
  files := t.files
  directories := p.above ++ t.directories
  files_closed f hf :=
    List.subset_append_of_subset_right _ (t.files_closed f hf)
  directories_closed q hq := by
    rcases List.mem_append.1 hq with hq | hq
    · exact fun r hr =>
        List.mem_append_left _ (Path.above_trans hr hq)
    · exact List.subset_append_of_subset_right _
        (t.directories_closed q hq)

/- A tree with a directory, and with those above it. -/
def withDirectory (t : FileTree) (p : Path) : FileTree :=
  let reached := t.reaching p
  { files := t.files
    directories := p :: reached.directories
    files_closed f hf :=
      List.subset_cons_of_subset p (reached.files_closed f hf)
    directories_closed q hq := by
      apply List.subset_cons_of_subset p
      rcases List.mem_cons.1 hq with rfl | hq
      · exact List.subset_append_left _ _
      · exact reached.directories_closed q hq }

/- A tree with a directory made, unless a file is in the way. -/
def makeDirectory
    (t : FileTree)
    (p : Path) : Except Fault FileTree :=
  if t.isFile p then .error .fileExists
  else if t.isBlocked p then .error .notDirectory
  else .ok (t.withDirectory p)

/- A tree without a file. -/
def without (t : FileTree) (p : Path) : FileTree :=
  { t with
    files := t.files.filter fun f => f.1 ≠ p
    files_closed := fun f hf =>
      t.files_closed f (List.mem_filter.1 hf).1 }

/- A tree with a file of some content, and all that is above. -/
def put
    (t : FileTree)
    (p : Path)
    (content : Text.Bytes) : FileTree :=
  let reached := (t.without p).reaching p
  { reached with
    files := (p, content) :: reached.files
    files_closed := by
      intro f hf
      rcases List.mem_cons.1 hf with rfl | hf
      · exact List.subset_append_left _ _
      · exact reached.files_closed f hf }

/- A tree with a file written, unless a directory is there. -/
def write
    (t : FileTree)
    (p : Path)
    (content : Text.Bytes) : Except Fault FileTree :=
  if t.isDirectory p then .error .isDirectory
  else if t.isBlocked p then .error .notDirectory
  else .ok (t.put p content)

/- A tree without a file, unless a directory is there. -/
def remove
    (t : FileTree)
    (p : Path) : Except Fault FileTree :=
  if t.isDirectory p then .error .isDirectory
  else .ok (t.without p)

end FileTree

end TypedClient
