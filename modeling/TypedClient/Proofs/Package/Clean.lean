import TypedClient.Proofs.Package.Write

/-
  This file says what it takes to remove the units of a package
  from a directory, and what the tree is like afterwards.  Only a
  directory in the place of a unit ends this step early.

  Key definitions include:
    * `Package.Cleared`
    * `Package.removedPaths`

  Key theorems include:
    * `Package.clean_eq`
    * `Package.cleared_without`
    * `Package.fault_clean_iff`
-/

namespace TypedClient

namespace Package

open FileTree (Path)

variable {tree : FileTree}
variable {out : Path}

------------------------------------------------------------
-- Removal
------------------------------------------------------------

theorem Differ.without
    {before after : FileTree}
    (h : Differ out before after)
    {p : Path}
    (hMem : p ∈ files out) : Differ out before (after.without p) := by
  refine ⟨fun q hq => ?_, h.made⟩
  have hNe : q ≠ p := fun hEq => hq (hEq ▸ hMem)
  rw [FileTree.file?_without, if_neg hNe, h.others q hq]

/- A unit is removed if there is one and it is no directory. -/
theorem removeUnit_eq
    {file : String}
    {s : Step}
    (h : s.tree.isDirectory (out.child file) = false) :
    removeUnit out file s =
      ⟨s.tree.without (out.child file),
        s.paths ++
          (if s.tree.isFile (out.child file) then
            [out.child file]
          else []),
        s.warnings, s.fault⟩ := by
  unfold removeUnit FileTree.contains
  simp only [h, Bool.or_false]
  by_cases hFile : s.tree.isFile (out.child file) = true
  · simp only [hFile, if_true]
    unfold Step.changeFile FileTree.remove
    simp only [h]
    rfl
  · rw [if_neg hFile, if_neg hFile, List.append_nil,
      FileTree.without_eq_self (Bool.eq_false_iff.2 hFile)]

/- A unit that was removed is no directory. -/
theorem fault_removeUnit
    {file : String}
    {s : Step}
    (h : (removeUnit out file s).fault = none) :
    s.tree.isDirectory (out.child file) = false := by
  rw [← Bool.not_eq_true]
  intro hDirectory
  unfold removeUnit FileTree.contains Step.changeFile
    FileTree.remove at h
  simp [hDirectory, Step.fail] at h

/- The paths of what is removed from a directory. -/
def removedPaths (tree : FileTree) (out : Path) : List Path :=
  [out.child modelsFile, out.child clientFile].filter tree.isFile

/- The tree without the units of a package. -/
def withoutUnits (tree : FileTree) (out : Path) : FileTree :=
  (tree.without (out.child modelsFile)).without
    (out.child clientFile)

theorem differ_withoutUnits
    (tree : FileTree)
    (out : Path) : Differ out tree (withoutUnits tree out) :=
  ((Differ.refl out tree).without (by simp [files])).without
    (by simp [files])

/- The units of a package are removed unless they are directories. -/
theorem clean_eq
    (hModels : tree.isDirectory (out.child modelsFile) = false)
    (hClient : tree.isDirectory (out.child clientFile) = false) :
    clean tree out =
      ⟨withoutUnits tree out, removedPaths tree out, [],
        none⟩ := by
  have hFirst : Differ out tree
      (tree.without (out.child modelsFile)) :=
    (Differ.refl out tree).without (by simp [files])
  have hFree : (tree.without (out.child modelsFile)).isDirectory
      (out.child clientFile) = false := by
    rw [hFirst.isDirectory (by simp [FileTree.Path.child])]
    exact hClient
  have hOther : out.child clientFile ≠ out.child modelsFile := by
    rw [Ne, child_inj]
    decide
  have hFile : (tree.without (out.child modelsFile)).isFile
      (out.child clientFile) =
        tree.isFile (out.child clientFile) := by
    apply FileTree.isFile_congr
    rw [FileTree.file?_without, if_neg hOther]
  have hPaths : removedPaths tree out =
      (if tree.isFile (out.child modelsFile) then
        [out.child modelsFile] else []) ++
      (if tree.isFile (out.child clientFile) then
        [out.child clientFile] else []) := by
    unfold removedPaths
    simp only [List.filter_cons, List.filter_nil]
    split
    · rfl
    · rfl
  have hStart : removeUnit out modelsFile (Step.start tree) =
      ⟨tree.without (out.child modelsFile),
        if tree.isFile (out.child modelsFile) then
          [out.child modelsFile] else [], [], none⟩ :=
    removeUnit_eq hModels
  calc clean tree out
      = removeUnit out clientFile
          (removeUnit out modelsFile (Step.start tree)) := by
        unfold clean Step.andThen
        rw [hStart]
        rfl
    _ = _ := by
        rw [hStart, removeUnit_eq hFree, hFile, hPaths]
        rfl

/-
  The units of a package are removed if and only if they are no
  directories.
-/
theorem fault_clean_iff :
    (clean tree out).fault = none ↔
      tree.isDirectory (out.child modelsFile) = false ∧
        tree.isDirectory (out.child clientFile) = false := by
  constructor
  · intro h
    rcases fault_andThen h with ⟨hFirst, hSecond⟩
    rcases fault_andThen hFirst with ⟨-, hModels⟩
    rw [hModels] at hFirst hSecond
    rw [clean, hModels, hSecond] at h
    have hModelsFree := fault_removeUnit hFirst
    have hClientFree := fault_removeUnit h
    have hDiffer : Differ out tree
        (tree.without (out.child modelsFile)) :=
      (Differ.refl out tree).without (by simp [files])
    rw [removeUnit_eq hModelsFree] at hClientFree
    refine ⟨hModelsFree, ?_⟩
    rw [← hDiffer.isDirectory (by simp [FileTree.Path.child])]
    exact hClientFree
  · rintro ⟨hModels, hClient⟩
    rw [clean_eq hModels hClient]

/-
  What the removal of a package leaves: everything but its units.
-/
structure Cleared
    (out : Path)
    (before after : FileTree) : Prop where
  models : after.contains (out.child modelsFile) = false
  client : after.contains (out.child clientFile) = false
  others : ∀ p, p ≠ out.child modelsFile →
    p ≠ out.child clientFile → after.file? p = before.file? p
  made : after.directories = before.directories

/- What is removed are the units, and nothing else differs. -/
theorem cleared_withoutUnits
    (hModels : tree.isDirectory (out.child modelsFile) = false)
    (hClient : tree.isDirectory (out.child clientFile) = false) :
    Cleared out tree (withoutUnits tree out) := by
  have hDiffer := differ_withoutUnits tree out
  have hFile (p : Path) : (withoutUnits tree out).file? p =
      if p = out.child clientFile then none
      else if p = out.child modelsFile then none
      else tree.file? p := by
    unfold withoutUnits
    rw [FileTree.file?_without, FileTree.file?_without]
  have hGone {p : Path} (hNone : (withoutUnits tree out).file? p =
      none) (hLength : p.length = out.length + 1)
      (hFree : tree.isDirectory p = false) :
      (withoutUnits tree out).contains p = false := by
    unfold FileTree.contains FileTree.isFile
    rw [hNone, hDiffer.isDirectory hLength, hFree]
    rfl
  constructor
  case models =>
    refine hGone ?_ (by simp [FileTree.Path.child]) hModels
    simp [hFile]
  case client =>
    refine hGone ?_ (by simp [FileTree.Path.child]) hClient
    simp [hFile]
  case others =>
    intro p hpModels hpClient
    simp [hFile, hpModels, hpClient]
  case made => rfl

end Package

end TypedClient
