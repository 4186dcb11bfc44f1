import TypedClient.Package.Write
import TypedClient.Proofs.Package.FileTree

/-
  This file says which trees differ in one package at most, and
  which directories a package can be written into.  The files of
  a package are too deep to be in the way of its directory, and
  what is made with them is above them.

  Key definitions include:
    * `Package.files`
    * `Package.IsOpen`
    * `Package.Differ`

  Key theorems include:
    * `Package.Differ.isDirectory`
    * `Package.Differ.isOpen`
    * `Package.IsOpen.write_eq`
-/

namespace TypedClient

namespace Package

open FileTree (Path)

variable {tree : FileTree}
variable {out : Path}

------------------------------------------------------------
-- Paths
------------------------------------------------------------

/- The files of a package in a directory. -/
def files (out : Path) : List Path :=
  [out.child modelsFile, out.child clientFile, out.child initFile]

theorem child_inj {file other : String} :
    out.child file = out.child other ↔ file = other := by
  unfold FileTree.Path.child
  constructor
  · intro h
    exact List.singleton_inj.1 (List.append_cancel_left h)
  · intro h
    rw [h]

theorem child_initFile_ne (out : Path) :
    out.child initFile ≠ out.child modelsFile ∧
      out.child initFile ≠ out.child clientFile := by
  rw [Ne, Ne, child_inj, child_inj]
  decide

/- Above a file is what its directory starts with. -/
theorem prefix_child_iff
    {p : Path}
    {file : String} :
    p <+: out.child file ∧ p ≠ out.child file ↔ p <+: out := by
  unfold FileTree.Path.child
  rw [List.prefix_concat_iff]
  constructor
  · rintro ⟨hPrefix, hNe⟩
    exact hPrefix.resolve_left hNe
  · intro hPrefix
    refine ⟨Or.inr hPrefix, fun hEq => ?_⟩
    have hLe := hPrefix.length_le
    rw [hEq, List.length_append, List.length_singleton] at hLe
    omega

theorem exists_child_of_mem_files
    {p : Path}
    (h : p ∈ files out) : ∃ file, p = out.child file := by
  unfold files at h
  simp only [List.mem_cons, List.not_mem_nil, or_false] at h
  rcases h with h | h | h
  · exact ⟨_, h⟩
  · exact ⟨_, h⟩
  · exact ⟨_, h⟩

theorem length_of_mem_files
    {p : Path}
    (h : p ∈ files out) : p.length = out.length + 1 := by
  rcases exists_child_of_mem_files h with ⟨file, rfl⟩
  simp [FileTree.Path.child]

------------------------------------------------------------
-- Open directories
------------------------------------------------------------

/-
  A directory that units can be written into: no file is in its
  way, and none of the units has the name of a directory.
-/
structure IsOpen (tree : FileTree) (out : Path) : Prop where
  notFile : tree.isFile out = false
  notBlocked : tree.isBlocked out = false
  models : tree.isDirectory (out.child modelsFile) = false
  client : tree.isDirectory (out.child clientFile) = false

/-
  Trees that differ in a package at most: in its files, and in
  whether its directory and those above it were made.
-/
structure Differ (out : Path) (before after : FileTree) : Prop where
  others : ∀ p, p ∉ files out → after.file? p = before.file? p
  made : ∀ p, ¬ p <+: out →
    (p ∈ after.directories ↔ p ∈ before.directories)

namespace Differ

variable {before after : FileTree}

theorem refl (out : Path) (tree : FileTree) : Differ out tree tree :=
  ⟨fun _ _ => rfl, fun _ _ => Iff.rfl⟩

theorem trans
    {last : FileTree}
    (h : Differ out before after)
    (hLast : Differ out after last) : Differ out before last :=
  ⟨fun p hp => (hLast.others p hp).trans (h.others p hp),
    fun p hp => (hLast.made p hp).trans (h.made p hp)⟩

/- A file that is written makes a difference in its package. -/
theorem put
    (h : Differ out before after)
    {p : Path}
    (hMem : p ∈ files out)
    (bytes : Text.Bytes) : Differ out before (after.put p bytes) := by
  refine ⟨fun q hq => ?_, fun q hq => ?_⟩
  · have hNe : q ≠ p := fun hEq => hq (hEq ▸ hMem)
    rw [FileTree.file?_put, if_neg hNe, h.others q hq]
  · rcases exists_child_of_mem_files hMem with ⟨file, rfl⟩
    rw [FileTree.mem_directories_put, prefix_child_iff,
      or_iff_right hq, h.made q hq]

/- What is one deeper than the package's directory stays. -/
theorem isDirectory
    (h : Differ out before after)
    {p : Path}
    (hLength : p.length = out.length + 1) :
    after.isDirectory p = before.isDirectory p := by
  have hLonger : ¬ p <+: out := by
    intro hPrefix
    have hLe := hPrefix.length_le
    omega
  rw [Bool.eq_iff_iff, FileTree.isDirectory_iff,
    FileTree.isDirectory_iff, h.made p hLonger]

theorem contains
    (h : Differ out before after)
    {p : Path}
    (hLength : p.length = out.length + 1)
    (hFile : after.file? p = before.file? p) :
    after.contains p = before.contains p := by
  unfold FileTree.contains
  rw [FileTree.isFile_congr hFile, h.isDirectory hLength]

/- A directory stays open if only its package differs. -/
theorem isOpen
    (h : Differ out before after)
    (hOpen : IsOpen before out) : IsOpen after out := by
  -- no file of the package is as short as its directory
  have hShort {q : Path} (hq : q <+: out) :
      after.isFile q = before.isFile q := by
    apply FileTree.isFile_congr
    apply h.others
    intro hMem
    have hSame := length_of_mem_files hMem
    have hLe := hq.length_le
    omega
  constructor
  case notFile =>
    rw [hShort (List.prefix_refl out)]
    exact hOpen.notFile
  case notBlocked =>
    rw [Bool.eq_false_iff]
    intro hBlocked
    rcases FileTree.isBlocked_iff.1 hBlocked with
      ⟨q, hFile, hPrefix, hProper⟩
    rw [hShort hPrefix] at hFile
    have hBefore := FileTree.isBlocked_iff.2
      ⟨q, hFile, hPrefix, hProper⟩
    rw [hOpen.notBlocked] at hBefore
    cases hBefore
  case models =>
    rw [h.isDirectory (by simp [FileTree.Path.child])]
    exact hOpen.models
  case client =>
    rw [h.isDirectory (by simp [FileTree.Path.child])]
    exact hOpen.client

end Differ

/- No file is in the way to the files of an open directory. -/
theorem IsOpen.notBlocked_child
    (h : IsOpen tree out)
    (file : String) :
    tree.isBlocked (out.child file) = false := by
  rw [Bool.eq_false_iff]
  intro hBlocked
  rcases FileTree.isBlocked_iff.1 hBlocked with
    ⟨q, hFile, hPrefix, hProper⟩
  have hAbove : q <+: out :=
    (List.prefix_concat_iff.1 hPrefix).resolve_left hProper
  by_cases hEq : q = out
  · rw [hEq, h.notFile] at hFile
    cases hFile
  · have hOut := FileTree.isBlocked_iff.2 ⟨q, hFile, hAbove, hEq⟩
    rw [h.notBlocked] at hOut
    cases hOut

/- A unit is put into an open directory. -/
theorem IsOpen.write_eq
    (h : IsOpen tree out)
    {file : String}
    (hMem : file ∈ [modelsFile, clientFile])
    (bytes : Text.Bytes) :
    tree.write (out.child file) bytes =
      .ok (tree.put (out.child file) bytes) := by
  have hDirectory : tree.isDirectory (out.child file) = false := by
    simp only [List.mem_cons, List.not_mem_nil, or_false] at hMem
    rcases hMem with rfl | rfl
    · exact h.models
    · exact h.client
  rw [FileTree.write, hDirectory, h.notBlocked_child file]
  rfl

end Package

end TypedClient
