import TypedClient.Proofs.Package.Clean

/-
  This file says what a call that writes a package or removes its
  units leaves of a tree, and that such a call can be repeated to
  no effect.

  Key definitions include:
    * `Package.Call`
    * `Package.turns`
    * `Package.Carries`

  Key theorems include:
    * `Package.carries_treeBehind`
    * `Package.Carries.write`
    * `Package.step_step`
-/

namespace TypedClient

namespace Package

open FileTree (Path Same)

variable {tree before after : FileTree}
variable {out : Path}
variable {units : Units}

------------------------------------------------------------
-- Calls
------------------------------------------------------------

/- A call that writes a package, or removes its units. -/
inductive Call where
  | write (units : Units)
  | clean

/- What a call does to a package in a directory. -/
def Call.step (out : Path) (tree : FileTree) : Call → Step
  | write units => Package.write tree out units
  | clean => Package.clean tree out

/- A call with the tree in front of it and with what it did. -/
structure Turn where
  before : FileTree
  call : Call
  step : Step

/- The turns that calls take, one after the other. -/
def turns (out : Path) (tree : FileTree) : List Call → List Turn
  | [] => []
  | c :: cs =>
      let s := c.step out tree
      ⟨tree, c, s⟩ :: turns out s.tree cs

/- The tree behind calls. -/
def treeBehind
    (out : Path)
    (tree : FileTree) : List Call → FileTree
  | [] => tree
  | c :: cs => treeBehind out (c.step out tree).tree cs

------------------------------------------------------------
-- What calls carry
------------------------------------------------------------

/-
  What calls leave of a tree: all but the package, and also the
  mark of the package, unless nothing had its name before.
-/
structure Carries
    (out : Path)
    (before after : FileTree) : Prop where
  differ : Differ out before after
  kept : before.contains (out.child initFile) = true →
    after.file? (out.child initFile) =
      before.file? (out.child initFile)
  created : before.contains (out.child initFile) = false →
    after.contains (out.child initFile) = true →
      after.file? (out.child initFile) =
        some (encoded initSource)

namespace Carries

theorem refl (out : Path) (tree : FileTree) :
    Carries out tree tree := by
  refine ⟨Differ.refl out tree, fun _ => rfl, ?_⟩
  intro hFree hTaken
  rw [hFree] at hTaken
  cases hTaken

theorem contains
    (h : Carries out before after)
    (hTaken : before.contains (out.child initFile) = true) :
    after.contains (out.child initFile) = true := by
  have hFile := FileTree.isFile_congr (h.kept hTaken)
  have hDirectory := h.differ.isDirectory
    (p := out.child initFile) (by simp [FileTree.Path.child])
  unfold FileTree.contains at hTaken ⊢
  rw [hFile, hDirectory, hTaken]

/- What is carried on is carried. -/
theorem trans
    {last : FileTree}
    (h : Carries out before after)
    (hLast : Carries out after last) : Carries out before last := by
  refine ⟨h.differ.trans hLast.differ, ?_, ?_⟩
  · intro hTaken
    rw [hLast.kept (h.contains hTaken), h.kept hTaken]
  · intro hFree hTaken
    by_cases hMarked : after.contains (out.child initFile) = true
    · rw [hLast.kept hMarked, h.created hFree hMarked]
    · exact hLast.created (Bool.eq_false_iff.2 hMarked) hTaken

end Carries

/- A package that is written leaves the rest of the tree. -/
theorem Packed.carries
    {models client : Text.Bytes}
    (h : Packed out models client before after) :
    Carries out before after := by
  refine ⟨h.differ, ?_, ?_⟩
  · intro hTaken
    rw [h.init, if_pos hTaken]
  · intro hFree _
    rw [h.init, hFree]
    rfl

theorem Cleared.differ
    (h : Cleared out before after) : Differ out before after := by
  refine ⟨fun p hp => ?_, fun p _ => by rw [h.made]⟩
  simp only [files, List.mem_cons, not_or] at hp
  exact h.others p hp.1 hp.2.1

/- The removal of units leaves the mark of their package alone. -/
theorem Cleared.mark
    (h : Cleared out before after) :
    after.file? (out.child initFile) =
        before.file? (out.child initFile) ∧
      after.contains (out.child initFile) =
        before.contains (out.child initFile) := by
  rcases child_initFile_ne out with ⟨hModels, hClient⟩
  have hFile := h.others (out.child initFile) hModels hClient
  exact ⟨hFile,
    h.differ.contains (by simp [FileTree.Path.child]) hFile⟩

theorem Cleared.carries
    (h : Cleared out before after) : Carries out before after := by
  refine ⟨h.differ, fun _ => h.mark.1, ?_⟩
  intro hFree hTaken
  rw [h.mark.2, hFree] at hTaken
  cases hTaken

/- A package that was written is there. -/
theorem packed_of_fault
    (h : (write tree out units).fault = none) :
    ∃ models client,
      unitBytes? modelsFile units.models = some models ∧
        unitBytes? clientFile units.client = some client ∧
        (write tree out units).paths = writtenPaths tree out ∧
        Packed out models client tree
          (write tree out units).tree := by
  rcases fault_write_iff.1 h with
    ⟨hOpen, ⟨models, hModels⟩, client, hClient⟩
  rw [write_eq hOpen hModels hClient]
  exact ⟨models, client, hModels, hClient, rfl,
    packed_marked tree out models client⟩

theorem cleared_of_fault
    (h : (clean tree out).fault = none) :
    (clean tree out).paths = removedPaths tree out ∧
      Cleared out tree (clean tree out).tree := by
  rcases fault_clean_iff.1 h with ⟨hModels, hClient⟩
  rw [clean_eq hModels hClient]
  exact ⟨rfl, cleared_withoutUnits hModels hClient⟩

/- A call that does not fail carries the tree. -/
theorem carries_step
    {c : Call}
    (h : (c.step out tree).fault = none) :
    Carries out tree (c.step out tree).tree := by
  cases c with
  | write units =>
      rcases packed_of_fault h with
        ⟨models, client, -, -, -, hPacked⟩
      exact hPacked.carries
  | clean => exact (cleared_of_fault h).2.carries

/- Calls that do not fail carry the tree. -/
theorem carries_treeBehind
    {calls : List Call}
    (h : ∀ turn ∈ turns out tree calls, turn.step.fault = none) :
    Carries out tree (treeBehind out tree calls) := by
  induction calls generalizing tree with
  | nil => exact Carries.refl out tree
  | cons c cs ih =>
      have hFirst := h ⟨tree, c, c.step out tree⟩
        List.mem_cons_self
      have hOthers := ih fun turn hTurn =>
        h turn (List.mem_cons_of_mem _ hTurn)
      exact (carries_step hFirst).trans hOthers

------------------------------------------------------------
-- Repetition
------------------------------------------------------------

/-
  A package is written in the same way into a tree and into what
  calls have left of it.
-/
theorem Carries.write
    (h : Carries out before after)
    (hFault : (write before out units).fault = none) :
    (Package.write after out units).fault = none ∧
      Same (Package.write after out units).tree
        (Package.write before out units).tree := by
  rcases fault_write_iff.1 hFault with
    ⟨hOpen, ⟨models, hModels⟩, client, hClient⟩
  have hAfter := write_eq (h.differ.isOpen hOpen) hModels hClient
  have hBefore := write_eq hOpen hModels hClient
  have hNew := packed_marked after out models client
  have hOld := packed_marked before out models client
  rw [hAfter, hBefore]
  refine ⟨rfl, FileTree.same_of_directories (fun p => ?_) ?_⟩
  · by_cases hMem : p ∈ files out
    · simp only [files, List.mem_cons, List.not_mem_nil,
        or_false] at hMem
      rcases hMem with rfl | rfl | rfl
      · exact hNew.models.trans hOld.models.symm
      · exact hNew.client.trans hOld.client.symm
      · -- the mark is there, was made by a call, or is made now
        refine Eq.trans hNew.init (Eq.trans ?_ hOld.init.symm)
        by_cases hTaken :
            before.contains (out.child initFile) = true
        · rw [if_pos hTaken, if_pos (h.contains hTaken),
            h.kept hTaken]
        · rw [if_neg hTaken]
          split
          next hMarked =>
            exact h.created (Bool.eq_false_iff.2 hTaken) hMarked
          next => rfl
    · exact (hNew.others p hMem).trans
        ((h.differ.others p hMem).trans
          (hOld.others p hMem).symm)
  · intro p
    rw [hNew.made, hOld.made]
    by_cases hPrefix : p <+: out
    · simp [hPrefix]
    · rw [h.differ.made p hPrefix]

/- Units that were removed can be removed again, to no effect. -/
theorem clean_clean
    (h : (clean tree out).fault = none) :
    (clean (clean tree out).tree out).fault = none ∧
      Same (clean (clean tree out).tree out).tree
        (clean tree out).tree := by
  have hCleared := (cleared_of_fault h).2
  have hAgain : (clean (clean tree out).tree out).fault = none := by
    have hNone {p : Path}
        (hp : (clean tree out).tree.contains p = false) :
        (clean tree out).tree.isDirectory p = false :=
      (Bool.or_eq_false_iff.1 hp).2
    exact fault_clean_iff.2
      ⟨hNone hCleared.models, hNone hCleared.client⟩
  refine ⟨hAgain, ?_⟩
  have hTwice := (cleared_of_fault hAgain).2
  have hGone {t : FileTree} {p : Path} (hp : t.contains p = false) :
      t.file? p = none :=
    Option.not_isSome_iff_eq_none.1
      (Bool.eq_false_iff.1 (Bool.or_eq_false_iff.1 hp).1)
  refine FileTree.same_of_directories (fun p => ?_) ?_
  · by_cases hModels : p = out.child modelsFile
    · rw [hModels, hGone hTwice.models, hGone hCleared.models]
    · by_cases hClient : p = out.child clientFile
      · rw [hClient, hGone hTwice.client, hGone hCleared.client]
      · exact hTwice.others p hModels hClient
  · intro p
    rw [hTwice.made]

/- A call that did not fail can be repeated, to no effect. -/
theorem step_step
    {c : Call}
    (h : (c.step out tree).fault = none) :
    (c.step out (c.step out tree).tree).fault = none ∧
      Same (c.step out (c.step out tree).tree).tree
        (c.step out tree).tree := by
  have hCarries := carries_step h
  cases c with
  | write units => exact hCarries.write h
  | clean => exact clean_clean h

end Package

end TypedClient
