import TypedClient.Proofs.Package.Calls

/-
  This file follows a package through any calls that write it or
  remove its units.  Every file but those of the package keeps its
  content; the file that makes the directory a package is left
  alone once something has its name; each call returns the files
  that it wrote or removed; and what was done before does not
  matter to a package that is written.

  Key definitions include:
    * `Package.HoldsUnit`
    * `Package.Turn.Upholds`
    * `Package.Upkeep`

  Key theorems include:
    * `Package.upholds_of_fault`
    * `Package.round_of_fault`
    * `Package.upkeep`
-/

namespace TypedClient

namespace Package

open FileTree (Path Same)

variable {tree before after : FileTree}
variable {out : Path}
variable {units : Units}

------------------------------------------------------------
-- Turns
------------------------------------------------------------

/-
  A file with the text of a unit: the formatted one, or the text
  itself if it has a mistake.
-/
def HoldsUnit
    (tree : FileTree)
    (out : Path)
    (file : String)
    (text : RawText) : Prop :=
  (∃ formatted, Source.format file text = .ok formatted ∧
      tree.file? (out.child file) = some (encoded formatted)) ∨
    ∃ message, Source.format file text = .error (.mistake message) ∧
      tree.file? (out.child file) = some (encoded text)

/- What is written for a unit is one of its texts. -/
theorem holdsUnit_of_bytes
    {file : String}
    {text : RawText}
    {bytes : Text.Bytes}
    (hBytes : unitBytes? file text = some bytes)
    (hFile : tree.file? (out.child file) = some bytes) :
    HoldsUnit tree out file text := by
  unfold unitBytes? at hBytes
  unfold HoldsUnit
  rw [hFile]
  cases hFormat : Source.format file text with
  | ok formatted =>
      rw [hFormat] at hBytes
      exact Or.inl ⟨formatted, rfl, hBytes.symm⟩
  | error e =>
      rw [hFormat] at hBytes
      cases e with
      | mistake message => exact Or.inr ⟨message, rfl, hBytes.symm⟩
      | unreadable e => cases hBytes

/-
  What a call does in its turn.

    * `others`: no file outside of the package changes
    * `kept`: what has the name of the mark stays as it is
    * `marked`: only writing makes the mark, with its own content
    * `written`: a written package has both units, and the call
      returns them, and the mark if it was made
    * `removed`: a cleared package has neither unit, and the call
      returns those that it had
    * `listed`: every file that changed is returned
    * `again`: the same call would not change anything more
-/
structure Turn.Upholds (out : Path) (turn : Turn) : Prop where
  others : ∀ p, p ∉ files out →
    turn.step.tree.file? p = turn.before.file? p
  kept : turn.before.contains (out.child initFile) = true →
    turn.step.tree.contains (out.child initFile) = true ∧
      turn.step.tree.file? (out.child initFile) =
        turn.before.file? (out.child initFile)
  marked : turn.before.contains (out.child initFile) = false →
    turn.step.tree.contains (out.child initFile) = true →
      (∃ units, turn.call = .write units) ∧
        turn.step.tree.file? (out.child initFile) =
          some (encoded initSource)
  written : ∀ units, turn.call = .write units →
    HoldsUnit turn.step.tree out modelsFile units.models ∧
      HoldsUnit turn.step.tree out clientFile units.client ∧
      turn.step.paths =
        [out.child modelsFile, out.child clientFile] ++
          if turn.before.contains (out.child initFile) then []
          else [out.child initFile]
  removed : turn.call = .clean →
    turn.step.tree.contains (out.child modelsFile) = false ∧
      turn.step.tree.contains (out.child clientFile) = false ∧
      turn.step.paths =
        [out.child modelsFile, out.child clientFile].filter
          turn.before.isFile
  listed : ∀ p,
    turn.step.tree.file? p ≠ turn.before.file? p →
      p ∈ turn.step.paths
  again :
    (turn.call.step out turn.step.tree).fault = none ∧
      Same (turn.call.step out turn.step.tree).tree
        turn.step.tree

/- A file that writing changes is returned. -/
theorem mem_writtenPaths
    {models client : Text.Bytes}
    (h : Packed out models client before after)
    {p : Path}
    (hChanged : after.file? p ≠ before.file? p) :
    p ∈ writtenPaths before out := by
  have hMem : p ∈ files out := by
    by_contra hOther
    exact hChanged (h.others p hOther)
  simp only [files, List.mem_cons, List.not_mem_nil, or_false]
    at hMem
  unfold writtenPaths
  rcases hMem with rfl | rfl | rfl
  · simp
  · simp
  · have hFree : ¬ before.contains (out.child initFile) = true := by
      intro hTaken
      exact hChanged (h.carries.kept hTaken)
    simp [hFree]

/- A file that removal changes is returned. -/
theorem mem_removedPaths
    (h : Cleared out before after)
    {p : Path}
    (hChanged : after.file? p ≠ before.file? p) :
    p ∈ removedPaths before out := by
  have hMem : p ∈ [out.child modelsFile, out.child clientFile] := by
    by_contra hOther
    simp only [List.mem_cons, List.not_mem_nil, or_false, not_or]
      at hOther
    exact hChanged (h.others p hOther.1 hOther.2)
  have hGone : after.isFile p = false := by
    simp only [List.mem_cons, List.not_mem_nil, or_false] at hMem
    rcases hMem with rfl | rfl
    · exact (Bool.or_eq_false_iff.1 h.models).1
    · exact (Bool.or_eq_false_iff.1 h.client).1
  refine List.mem_filter.2 ⟨hMem, ?_⟩
  rw [← Bool.not_eq_false]
  intro hNone
  apply hChanged
  unfold FileTree.isFile at hGone hNone
  rw [Option.isSome_eq_false_iff, Option.isNone_iff_eq_none]
    at hGone hNone
  rw [hGone, hNone]

/- A call that does not fail upholds all this. -/
theorem upholds_of_fault
    {c : Call}
    (h : (c.step out tree).fault = none) :
    Turn.Upholds out ⟨tree, c, c.step out tree⟩ := by
  have hCarries := carries_step h
  constructor
  case others => exact hCarries.differ.others
  case kept =>
    intro hTaken
    exact ⟨hCarries.contains hTaken, hCarries.kept hTaken⟩
  case marked =>
    intro hFree hTaken
    refine ⟨?_, hCarries.created hFree hTaken⟩
    cases c with
    | write units => exact ⟨units, rfl⟩
    | clean =>
        have hMark := (cleared_of_fault h).2.mark.2
        cases hTaken.symm.trans (hMark.trans hFree)
  case written =>
    rintro units rfl
    rcases packed_of_fault h with
      ⟨models, client, hModels, hClient, hPaths, hPacked⟩
    exact ⟨holdsUnit_of_bytes hModels hPacked.models,
      holdsUnit_of_bytes hClient hPacked.client, hPaths⟩
  case removed =>
    rintro rfl
    rcases cleared_of_fault h with ⟨hPaths, hCleared⟩
    exact ⟨hCleared.models, hCleared.client, hPaths⟩
  case listed =>
    intro p hChanged
    cases c with
    | write units =>
        rcases packed_of_fault h with
          ⟨models, client, -, -, hPaths, hPacked⟩
        have hMem := mem_writtenPaths hPacked hChanged
        rw [← hPaths] at hMem
        exact hMem
    | clean =>
        rcases cleared_of_fault h with ⟨hPaths, hCleared⟩
        have hMem := mem_removedPaths hCleared hChanged
        rw [← hPaths] at hMem
        exact hMem
  case again => exact step_step h

/- Every turn of calls that do not fail upholds all this. -/
theorem upholds_of_mem_turns
    {calls : List Call}
    (h : ∀ turn ∈ turns out tree calls, turn.step.fault = none) :
    ∀ turn ∈ turns out tree calls, turn.Upholds out := by
  induction calls generalizing tree with
  | nil =>
      intro turn hTurn
      cases hTurn
  | cons c cs ih =>
      have hOthers := ih fun turn hTurn =>
        h turn (List.mem_cons_of_mem _ hTurn)
      intro turn hTurn
      rcases List.mem_cons.1 hTurn with rfl | hTurn
      · exact upholds_of_fault (h _ List.mem_cons_self)
      · exact hOthers turn hTurn

/- A mark that calls make is made by writing. -/
theorem exists_write_of_marked
    {calls : List Call}
    (h : ∀ turn ∈ turns out tree calls, turn.step.fault = none)
    (hFree : tree.contains (out.child initFile) = false)
    (hTaken : (treeBehind out tree calls).contains
      (out.child initFile) = true) :
    ∃ units, Call.write units ∈ calls := by
  induction calls generalizing tree with
  | nil =>
      rw [treeBehind, hFree] at hTaken
      cases hTaken
  | cons c cs ih =>
      have hFirst := upholds_of_fault (h _ List.mem_cons_self)
      by_cases hMarked : (c.step out tree).tree.contains
          (out.child initFile) = true
      · rcases (hFirst.marked hFree hMarked).1 with ⟨units, hCall⟩
        exact ⟨units, hCall ▸ List.mem_cons_self⟩
      · rcases ih (fun turn hTurn =>
            h turn (List.mem_cons_of_mem _ hTurn))
            (Bool.eq_false_iff.2 hMarked) hTaken with
          ⟨units, hCall⟩
        exact ⟨units, List.mem_cons_of_mem c hCall⟩

------------------------------------------------------------
-- Runs
------------------------------------------------------------

/-
  What calls do to a tree, one after the other.

    * `others`: no file outside of the package changes
    * `kept`: what has the name of the mark stays as it is
    * `marked`: only writing makes the mark, with its own content
    * `each`: each call upholds what a call has to
    * `anew`: a package that is written is the same as without
      the calls before
    * `round`: a package that is written, cleared and written is
      the same as if it was written once
-/
structure Upkeep
    (out : Path)
    (tree : FileTree)
    (calls : List Call) : Prop where
  others : ∀ p, p ∉ files out →
    (treeBehind out tree calls).file? p = tree.file? p
  kept : tree.contains (out.child initFile) = true →
    (treeBehind out tree calls).contains (out.child initFile) =
        true ∧
      (treeBehind out tree calls).file? (out.child initFile) =
        tree.file? (out.child initFile)
  marked : tree.contains (out.child initFile) = false →
    (treeBehind out tree calls).contains (out.child initFile) =
        true →
      (∃ units, Call.write units ∈ calls) ∧
        (treeBehind out tree calls).file? (out.child initFile) =
          some (encoded initSource)
  each : ∀ turn ∈ turns out tree calls, turn.Upholds out
  anew : ∀ units, (write tree out units).fault = none →
    (write (treeBehind out tree calls) out units).fault = none ∧
      Same
        (treeBehind out (treeBehind out tree calls)
          [.write units])
        (treeBehind out tree [.write units])
  round : ∀ units,
    (write (treeBehind out tree calls) out units).fault = none →
      let round := [.write units, .clean, .write units]
      (∀ turn ∈ turns out (treeBehind out tree calls) round,
          turn.step.fault = none) ∧
        Same
          (treeBehind out (treeBehind out tree calls) round)
          (treeBehind out (treeBehind out tree calls)
            [.write units])

/- A package that was written can be cleared. -/
theorem fault_clean_of_write
    (h : (write tree out units).fault = none) :
    (clean (write tree out units).tree out).fault =
      none := by
  have hOpen := (carries_step (c := .write units) h).differ.isOpen
    (fault_write_iff.1 h).1
  exact fault_clean_iff.2 ⟨hOpen.models, hOpen.client⟩

/- Writing, clearing and writing does what writing does. -/
theorem round_of_fault
    (h : (write tree out units).fault = none) :
    let round := [.write units, .clean, .write units]
    (∀ turn ∈ turns out tree round, turn.step.fault = none) ∧
      Same (treeBehind out tree round)
        (treeBehind out tree [.write units]) := by
  have hWritten := carries_step (c := .write units) h
  have hClean := fault_clean_of_write h
  have hCleared := carries_step (c := .clean) hClean
  have hAgain := (hWritten.trans hCleared).write h
  refine ⟨fun turn hTurn => ?_, hAgain.2⟩
  simp only [turns, List.mem_cons, List.not_mem_nil, or_false]
    at hTurn
  rcases hTurn with rfl | rfl | rfl
  · exact h
  · exact hClean
  · exact hAgain.1

/-
  Calls that write a package or remove its units, in any order,
  touch nothing but its files, leave the mark of the package
  alone once there is one, and return what they change.
-/
theorem upkeep
    {calls : List Call}
    (h : ∀ turn ∈ turns out tree calls, turn.step.fault = none) :
    Upkeep out tree calls := by
  have hCarries := carries_treeBehind h
  constructor
  case others => exact hCarries.differ.others
  case kept =>
    intro hTaken
    exact ⟨hCarries.contains hTaken, hCarries.kept hTaken⟩
  case marked =>
    intro hFree hTaken
    exact ⟨exists_write_of_marked h hFree hTaken,
      hCarries.created hFree hTaken⟩
  case each => exact upholds_of_mem_turns h
  case anew => exact fun units hFault => hCarries.write hFault
  case round => exact fun units hFault => round_of_fault hFault

/-
  In an open directory no call fails, as long as what is written
  can be read.
-/
theorem fault_of_mem_turns
    {calls : List Call}
    (hOpen : IsOpen tree out)
    (hUnits : ∀ units, Call.write units ∈ calls →
      unreadable? units.models = none ∧
        unreadable? units.client = none) :
    ∀ turn ∈ turns out tree calls, turn.step.fault = none := by
  induction calls generalizing tree with
  | nil =>
      intro turn hTurn
      cases hTurn
  | cons c cs ih =>
      have hFirst : (c.step out tree).fault = none := by
        cases c with
        | write units =>
            have hPlain := hUnits units List.mem_cons_self
            exact fault_write_iff.2 ⟨hOpen,
              (exists_unitBytes?_iff modelsFile).2 hPlain.1,
              (exists_unitBytes?_iff clientFile).2 hPlain.2⟩
        | clean =>
            exact fault_clean_iff.2 ⟨hOpen.models, hOpen.client⟩
      have hNext := (carries_step hFirst).differ.isOpen hOpen
      intro turn hTurn
      rcases List.mem_cons.1 hTurn with rfl | hTurn
      · exact hFirst
      · exact ih hNext (fun units hMem =>
          hUnits units (List.mem_cons_of_mem c hMem)) turn hTurn

/- A tree with a package that was marked by hand. -/
def handTree : FileTree where
  files := [(["lib", "__init__.py"], [35]), (["notes.txt"], [])]
  directories := [[], ["lib"]]
  files_closed := by decide
  directories_closed := by decide

/- Calls that write a package, clear it and write it again. -/
def handCalls : List Call :=
  [.write ⟨"x = 1 ", "def", [], 0⟩, .clean,
    .write ⟨"y = 2", "", [], 0⟩]

/- The mark that was made by hand outlasts these calls. -/
theorem upkeep_handTree :
    (∀ turn ∈ turns ["lib"] handTree handCalls,
        turn.step.fault = none) ∧
      Upkeep ["lib"] handTree handCalls := by
  have hOpen : IsOpen handTree ["lib"] :=
    ⟨by decide, by decide, by decide, by decide⟩
  have hFault : ∀ turn ∈ turns ["lib"] handTree handCalls,
      turn.step.fault = none := by
    apply fault_of_mem_turns hOpen
    intro units hMem
    simp only [handCalls, List.mem_cons, Call.write.injEq,
      reduceCtorEq, List.not_mem_nil, or_false, false_or] at hMem
    rcases hMem with rfl | rfl
    · exact ⟨by decide, by decide⟩
    · exact ⟨by decide, by decide⟩
  exact ⟨hFault, upkeep hFault⟩

end Package

end TypedClient
