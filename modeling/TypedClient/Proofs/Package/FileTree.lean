import Mathlib.Data.List.Basic
import TypedClient.Package.FileTree

/-
  This file describes file trees by what look-up sees of them:
  the content of every file, and which paths are directories.  A
  change is described by its effect on these.

  Key definitions include:
    * `FileTree.Same`

  Key theorems include:
    * `FileTree.file?_put`
    * `FileTree.file?_without`
    * `FileTree.isDirectory_iff`
    * `FileTree.mem_directories_put`
    * `FileTree.same_of_directories`
-/

namespace TypedClient

namespace FileTree

variable {t u : FileTree}
variable {p q : Path}
variable {content : Text.Bytes}

------------------------------------------------------------
-- Files
------------------------------------------------------------

/- A path without its files is not looked up. -/
theorem lookup_filter_ne
    (files : List (Path × Text.Bytes))
    (p q : Path) :
    (files.filter fun f => f.1 ≠ p).lookup q =
      if q = p then none else files.lookup q := by
  induction files with
  | nil => simp
  | cons f fs ih =>
      rw [List.lookup_cons]
      by_cases hFile : f.1 = p
      · rw [List.filter_cons_of_neg (by simp [hFile]), ih]
        by_cases hPath : q = p
        · simp [hPath]
        · have hNe : (q == f.1) = false := by
            rw [hFile]
            exact beq_false_of_ne hPath
          simp [hPath, hNe]
      · rw [List.filter_cons_of_pos (by simp [hFile]),
          List.lookup_cons, ih]
        by_cases hPath : q = p
        · have hNe : (p == f.1) = false :=
            beq_false_of_ne (Ne.symm hFile)
          simp [hPath, hNe]
        · simp [hPath]

/- A file that is written holds its content, others keep theirs. -/
theorem file?_put :
    (t.put p content).file? q =
      if q = p then some content else t.file? q := by
  unfold put file? reaching without
  rw [List.lookup_cons, lookup_filter_ne]
  by_cases hPath : q = p
  · simp [hPath]
  · simp [hPath, beq_false_of_ne hPath]

/- A file that is removed is gone, others stay as they are. -/
theorem file?_without :
    (t.without p).file? q =
      if q = p then none else t.file? q :=
  lookup_filter_ne t.files p q

/- A path is a file if and only if it is listed as one. -/
theorem isFile_iff :
    t.isFile p = true ↔ ∃ f ∈ t.files, f.1 = p := by
  unfold isFile file?
  constructor
  · intro hSome
    rcases Option.isSome_iff_exists.1 hSome with ⟨content, hFile⟩
    rcases List.lookup_eq_some_iff.1 hFile with
      ⟨front, behind, hSplit, _⟩
    rw [hSplit]
    exact ⟨(p, content),
      List.mem_append_right front List.mem_cons_self, rfl⟩
  · rintro ⟨f, hMem, rfl⟩
    rw [Option.isSome_iff_ne_none]
    intro hNone
    have hOther := List.lookup_eq_none_iff.1 hNone f hMem
    simp at hOther

/- A tree has nothing to lose at a path that is no file. -/
theorem without_eq_self
    (h : t.isFile p = false) : t.without p = t := by
  refine FileTree.ext ?_ rfl
  apply List.filter_eq_self.2
  intro f hMem
  have hNe : f.1 ≠ p := by
    intro hEq
    have hFile := isFile_iff.2 ⟨f, hMem, hEq⟩
    rw [h] at hFile
    cases hFile
  simpa using hNe

theorem any_files_iff (test : Path → Bool) :
    (t.files.any fun f => test f.1) = true ↔
      ∃ q, t.isFile q = true ∧ test q = true := by
  simp only [List.any_eq_true, isFile_iff]
  constructor
  · rintro ⟨f, hMem, hTest⟩
    exact ⟨f.1, ⟨f, hMem, rfl⟩, hTest⟩
  · rintro ⟨q, ⟨f, hMem, rfl⟩, hTest⟩
    exact ⟨f, hMem, hTest⟩

theorem isFile_congr
    (h : t.file? p = u.file? p) : t.isFile p = u.isFile p :=
  congrArg Option.isSome h

------------------------------------------------------------
-- Directories
------------------------------------------------------------

/- A directory is a root or listed among the directories. -/
theorem isDirectory_iff :
    t.isDirectory p = true ↔
      p = [] ∨ p = ["/"] ∨ p ∈ t.directories := by
  unfold isDirectory
  simp only [Bool.or_eq_true, decide_eq_true_eq, or_assoc]

/- A directory is made with all directories above it. -/
theorem mem_directories_withDirectory :
    q ∈ (t.withDirectory p).directories ↔
      q <+: p ∨ q ∈ t.directories := by
  have hAbove : q = p ∨ q ∈ p.above ↔ q <+: p := by
    rw [Path.mem_above]
    constructor
    · rintro (rfl | ⟨hPrefix, -⟩)
      · exact List.prefix_refl q
      · exact hPrefix
    · intro hPrefix
      by_cases hEq : q = p
      · exact Or.inl hEq
      · exact Or.inr ⟨hPrefix, hEq⟩
  simp only [withDirectory, reaching, List.mem_cons,
    List.mem_append, ← or_assoc, hAbove]

/- A file is put into a tree with all directories above it. -/
theorem mem_directories_put :
    q ∈ (t.put p content).directories ↔
      (q <+: p ∧ q ≠ p) ∨ q ∈ t.directories := by
  rw [← Path.mem_above]
  exact List.mem_append

theorem isBlocked_iff :
    t.isBlocked p = true ↔
      ∃ q, t.isFile q = true ∧ q <+: p ∧ q ≠ p := by
  unfold isBlocked
  rw [any_files_iff fun q => q.isPrefixOf p && q ≠ p]
  simp only [Bool.and_eq_true, List.isPrefixOf_iff_prefix,
    decide_eq_true_eq]

------------------------------------------------------------
-- Sameness
------------------------------------------------------------

/-
  Trees that nothing tells apart: they have the same files with
  the same contents, and the same directories.
-/
structure Same (t u : FileTree) : Prop where
  files : ∀ p, t.file? p = u.file? p
  directories : ∀ p, t.isDirectory p = u.isDirectory p

/- Trees are the same if files and listed directories are. -/
theorem same_of_directories
    (hFiles : ∀ p, t.file? p = u.file? p)
    (hMade : ∀ p, p ∈ t.directories ↔ p ∈ u.directories) :
    Same t u := by
  refine ⟨hFiles, fun p => ?_⟩
  rw [Bool.eq_iff_iff, isDirectory_iff, isDirectory_iff, hMade p]

end FileTree

end TypedClient
