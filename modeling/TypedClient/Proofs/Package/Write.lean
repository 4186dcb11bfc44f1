import TypedClient.Proofs.Package.Differ
import TypedClient.Proofs.Text.Raw

/-
  This file says what it takes to write a package into a
  directory, and what the tree is like afterwards.  Nothing ends
  this step early but a file in the way of the directory, a
  directory in the place of a unit, and a unit that cannot be
  read.

  Key definitions include:
    * `Package.unitBytes?`
    * `Package.Packed`

  Key theorems include:
    * `Package.unitBytes?_eq_none_iff`
    * `Package.write_eq`
    * `Package.packed_marked`
    * `Package.fault_write_iff`
-/

namespace TypedClient

namespace Package

open FileTree (Path)
open Source (Unreadable)

variable {tree : FileTree}
variable {out : Path}
variable {units : Units}

------------------------------------------------------------
-- Units
------------------------------------------------------------

/-
  Why a text cannot be read, if it cannot.  Surrogates are found
  before the null character is.
-/
def unreadable? (text : RawText) : Option Unreadable :=
  if text.toChars? = none then some .surrogate
  else if .scalar '\x00' ∈ text then some .nullCharacter
  else none

/- Nothing but these two code points makes a text unreadable. -/
theorem unreadable?_congr
    {s t : RawText}
    (hSurrogate : ∀ k, .surrogate k ∈ s ↔ .surrogate k ∈ t)
    (hNull : .scalar '\x00' ∈ s ↔ .scalar '\x00' ∈ t) :
    unreadable? s = unreadable? t := by
  unfold unreadable?
  simp only [RawText.toChars?_eq_none_iff, hSurrogate, hNull]

/- A text that cannot be read is not formatted, and for no more. -/
theorem format_eq_unreadable_iff
    (file : String)
    {text : RawText}
    {e : Unreadable} :
    Source.format file text = .error (.unreadable e) ↔
      unreadable? text = some e := by
  unfold unreadable? Source.format
  cases hChars : text.toChars? with
  | none => simp
  | some cs =>
      have hText := RawText.toChars?_eq_some_iff.1 hChars
      have hNull : .scalar '\x00' ∈ text ↔ '\x00' ∈ cs := by
        rw [hText, ← RawText.ofString_ofList,
          RawText.scalar_mem_ofString, String.toList_ofList]
      simp only [reduceCtorEq, if_false, hNull, Source.check]
      by_cases hMem : '\x00' ∈ cs
      · simp [hMem]
      · simp only [hMem, if_false, reduceCtorEq, iff_false]
        cases Source.Parse.mistake? (Source.prepared cs) with
        | none => simp
        | some m => simp

/-
  What is written for a unit: its formatted text, or its own text
  if it has a mistake, or nothing if it cannot be read.
-/
def unitBytes?
    (file : String)
    (text : RawText) : Option Text.Bytes :=
  match Source.format file text with
  | .ok formatted => some (encoded formatted)
  | .error (.mistake _) => some (encoded text)
  | .error (.unreadable _) => none

/- The warning that goes with a unit, if it has a mistake. -/
def unitWarnings
    (p : Path)
    (file : String)
    (text : RawText) : List String :=
  match Source.format file text with
  | .error (.mistake message) => [warning p message]
  | _ => []

section

variable {file : String}
variable {text : RawText}
variable {bytes : Text.Bytes}

/- Nothing is written for a unit that cannot be read. -/
theorem unitBytes?_eq_none_iff
    (file : String) :
    unitBytes? file text = none ↔
      ∃ e, unreadable? text = some e := by
  simp only [← format_eq_unreadable_iff file]
  unfold unitBytes?
  cases Source.format file text with
  | ok formatted => simp
  | error e => cases e <;> simp

theorem exists_unitBytes?_iff
    (file : String) :
    (∃ bytes, unitBytes? file text = some bytes) ↔
      unreadable? text = none := by
  rw [← Option.ne_none_iff_exists', Ne, unitBytes?_eq_none_iff,
    ← Option.ne_none_iff_exists', not_not]

/- A unit is written with its warning if something is written. -/
theorem writeUnit_of_some
    (h : unitBytes? file text = some bytes)
    (s : Step) :
    writeUnit out file text s =
      Step.changeFile
        { s with
          warnings := s.warnings ++
            unitWarnings (out.child file) file text }
        (out.child file) (·.write (out.child file) bytes) := by
  unfold unitBytes? at h
  unfold writeUnit unitWarnings
  cases hFormat : Source.format file text with
  | ok formatted =>
      rw [hFormat] at h
      cases h
      simp
  | error e =>
      rw [hFormat] at h
      cases e with
      | mistake message =>
          cases h
          rfl
      | unreadable e => cases h

theorem writeUnit_of_unreadable
    {e : Unreadable}
    (h : unreadable? text = some e)
    (s : Step) :
    writeUnit out file text s = s.fail (.unreadable e) := by
  unfold writeUnit
  rw [(format_eq_unreadable_iff file).2 h]

end

------------------------------------------------------------
-- Writing
------------------------------------------------------------

theorem differ_withDirectory (tree : FileTree) (out : Path) :
    Differ out tree (tree.withDirectory out) := by
  refine ⟨fun p hp => rfl, fun p hp => ?_⟩
  rw [FileTree.mem_directories_withDirectory, or_iff_right hp]

/-
  What a package is written as: the two units, and the file that
  makes it a package if nothing has its name.
-/
structure Packed
    (out : Path)
    (models client : Text.Bytes)
    (before after : FileTree) : Prop where
  models : after.file? (out.child modelsFile) = some models
  client : after.file? (out.child clientFile) = some client
  init : after.file? (out.child initFile) =
    if before.contains (out.child initFile) then
      before.file? (out.child initFile)
    else some (encoded initSource)
  others : ∀ p, p ∉ files out → after.file? p = before.file? p
  made : ∀ p, p ∈ after.directories ↔
    p <+: out ∨ p ∈ before.directories

/- The paths of what is written into a directory. -/
def writtenPaths (tree : FileTree) (out : Path) : List Path :=
  [out.child modelsFile, out.child clientFile] ++
    if tree.contains (out.child initFile) then []
    else [out.child initFile]

/- The warnings about units that are written into a directory. -/
def writtenWarnings (out : Path) (units : Units) : List String :=
  unitWarnings (out.child modelsFile) modelsFile units.models ++
    unitWarnings (out.child clientFile) clientFile units.client

/- The tree behind the units of a package. -/
def withUnits
    (tree : FileTree)
    (out : Path)
    (models client : Text.Bytes) : FileTree :=
  ((tree.withDirectory out).put (out.child modelsFile) models).put
    (out.child clientFile) client

theorem differ_withUnits
    (tree : FileTree)
    (out : Path)
    (models client : Text.Bytes) :
    Differ out tree (withUnits tree out models client) :=
  ((differ_withDirectory tree out).put (by simp [files]) models).put
    (by simp [files]) client

/- A unit is written by a step that has not ended. -/
theorem andThen_writeUnit
    {s : Step}
    (hFault : s.fault = none)
    (hOpen : IsOpen s.tree out)
    {file : String}
    {text : RawText}
    (hMem : file ∈ [modelsFile, clientFile])
    {bytes : Text.Bytes}
    (hBytes : unitBytes? file text = some bytes) :
    s.andThen (writeUnit out file text) =
      ⟨s.tree.put (out.child file) bytes,
        s.paths ++ [out.child file],
        s.warnings ++ unitWarnings (out.child file) file text,
        none⟩ := by
  unfold Step.andThen
  rw [hFault, writeUnit_of_some hBytes, Step.changeFile]
  simp only [hOpen.write_eq hMem bytes, hFault]

/- A step that has not ended does so at a unit that is unreadable. -/
theorem andThen_writeUnit_of_unreadable
    {s : Step}
    (hFault : s.fault = none)
    {file : String}
    {text : RawText}
    {e : Unreadable}
    (h : unreadable? text = some e) :
    s.andThen (writeUnit out file text) =
      s.fail (.unreadable e) := by
  unfold Step.andThen
  rw [hFault]
  exact writeUnit_of_unreadable h s

theorem change_makeDirectory
    (h : IsOpen tree out) :
    (Step.start tree).change (·.makeDirectory out) =
      ⟨tree.withDirectory out, [], [], none⟩ := by
  unfold Step.change Step.start FileTree.makeDirectory
  simp [h.notFile, h.notBlocked]

/- Nothing but a unit changes whether a package is marked. -/
theorem contains_withUnits
    (tree : FileTree)
    (out : Path)
    (models client : Text.Bytes) :
    (withUnits tree out models client).contains
        (out.child initFile) =
      tree.contains (out.child initFile) := by
  rcases child_initFile_ne out with ⟨hModels, hClient⟩
  have hFile : (withUnits tree out models client).file?
      (out.child initFile) = tree.file? (out.child initFile) := by
    unfold withUnits
    rw [FileTree.file?_put, if_neg hClient, FileTree.file?_put,
      if_neg hModels]
    rfl
  exact (differ_withUnits tree out models client).contains
    (by simp [FileTree.Path.child]) hFile

/- The tree in which a package was marked. -/
def marked
    (before : FileTree)
    (out : Path)
    (t : FileTree) : FileTree :=
  if before.contains (out.child initFile) then t
  else t.put (out.child initFile) (encoded initSource)

/- A package is marked unless something has the name of its mark. -/
theorem andThen_writeInit
    {s : Step}
    (hFault : s.fault = none)
    (hOpen : IsOpen s.tree out)
    (hContains : s.tree.contains (out.child initFile) =
      tree.contains (out.child initFile)) :
    s.andThen (writeInit out) =
      ⟨marked tree out s.tree,
        s.paths ++
          (if tree.contains (out.child initFile) then []
          else [out.child initFile]),
        s.warnings, none⟩ := by
  unfold Step.andThen
  rw [hFault]
  simp only [writeInit, hContains, marked]
  by_cases hMarked : tree.contains (out.child initFile) = true
  · simp only [hMarked, if_true, List.append_nil]
    rw [← hFault]
  · have hFree : s.tree.isDirectory (out.child initFile) =
        false := by
      rw [← hContains, FileTree.contains, Bool.or_eq_true,
        not_or, Bool.not_eq_true, Bool.not_eq_true] at hMarked
      exact hMarked.2
    rw [if_neg hMarked, if_neg hMarked, if_neg hMarked,
      Step.changeFile, FileTree.write, hFree,
      hOpen.notBlocked_child, ← hFault]
    rfl

/- A package is written into an open directory. -/
theorem write_eq
    (hOpen : IsOpen tree out)
    {models client : Text.Bytes}
    (hModels : unitBytes? modelsFile units.models = some models)
    (hClient : unitBytes? clientFile units.client = some client) :
    write tree out units =
      ⟨marked tree out (withUnits tree out models client),
        writtenPaths tree out, writtenWarnings out units,
        none⟩ := by
  have hOpened := (differ_withDirectory tree out).isOpen hOpen
  have hPut : IsOpen ((tree.withDirectory out).put
      (out.child modelsFile) models) out :=
    ((differ_withDirectory tree out).put (by simp [files])
      models).isOpen hOpen
  have hUnits :=
    (differ_withUnits tree out models client).isOpen hOpen
  unfold write
  rw [change_makeDirectory hOpen,
    andThen_writeUnit rfl hOpened (by simp) hModels,
    andThen_writeUnit rfl hPut (by simp) hClient,
    andThen_writeInit rfl hUnits
      (contains_withUnits tree out models client)]
  rfl

/- Models that cannot be read leave both units unwritten. -/
theorem write_eq_of_models
    (hOpen : IsOpen tree out)
    {e : Unreadable}
    (hModels : unreadable? units.models = some e) :
    write tree out units =
      ⟨tree.withDirectory out, [], [],
        some (.unreadable e)⟩ := by
  unfold write
  rw [change_makeDirectory hOpen,
    andThen_writeUnit_of_unreadable rfl hModels]
  rfl

/- A client that cannot be read is left out of the package. -/
theorem write_eq_of_client
    (hOpen : IsOpen tree out)
    {models : Text.Bytes}
    (hModels : unitBytes? modelsFile units.models = some models)
    {e : Unreadable}
    (hClient : unreadable? units.client = some e) :
    write tree out units =
      ⟨(tree.withDirectory out).put (out.child modelsFile) models,
        [out.child modelsFile],
        unitWarnings (out.child modelsFile) modelsFile
          units.models,
        some (.unreadable e)⟩ := by
  have hOpened := (differ_withDirectory tree out).isOpen hOpen
  unfold write
  rw [change_makeDirectory hOpen,
    andThen_writeUnit rfl hOpened (by simp) hModels,
    andThen_writeUnit_of_unreadable rfl hClient]
  rfl

/- What look-up sees of a package that was written. -/
theorem file?_marked
    (tree : FileTree)
    (out : Path)
    (models client : Text.Bytes)
    (p : Path) :
    (marked tree out (withUnits tree out models client)).file? p =
      if p = out.child initFile ∧
          tree.contains (out.child initFile) = false then
        some (encoded initSource)
      else if p = out.child clientFile then some client
      else if p = out.child modelsFile then some models
      else tree.file? p := by
  have hUnits : (withUnits tree out models client).file? p =
      if p = out.child clientFile then some client
      else if p = out.child modelsFile then some models
      else tree.file? p := by
    unfold withUnits
    rw [FileTree.file?_put, FileTree.file?_put]
    rfl
  unfold marked
  by_cases hMarked : tree.contains (out.child initFile) = true
  · simp [hMarked, hUnits]
  · rw [if_neg hMarked, FileTree.file?_put, hUnits]
    simp [hMarked]

/- What is written is the package, and nothing else differs. -/
theorem packed_marked
    (tree : FileTree)
    (out : Path)
    (models client : Text.Bytes) :
    Packed out models client tree
      (marked tree out (withUnits tree out models client)) := by
  have hModels : modelsFile ≠ initFile := by decide
  have hClient : clientFile ≠ initFile := by decide
  have hUnits : modelsFile ≠ clientFile := by decide
  constructor
  case models =>
    simp [file?_marked, child_inj, hModels, hUnits]
  case client => simp [file?_marked, child_inj, hClient]
  case init =>
    simp only [file?_marked, child_inj, hModels.symm,
      hClient.symm, if_false, true_and]
    by_cases hMarked : tree.contains (out.child initFile) = true
    · simp [hMarked]
    · simp [hMarked]
  case others =>
    intro p hp
    simp only [files, List.mem_cons, List.not_mem_nil, or_false,
      not_or] at hp
    simp [file?_marked, hp]
  case made =>
    intro p
    have hPut : ∀ {t : FileTree} (file : String)
        (bytes : Text.Bytes),
        (p ∈ t.directories ↔ p <+: out ∨ p ∈ tree.directories) →
        (p ∈ (t.put (out.child file) bytes).directories ↔
          p <+: out ∨ p ∈ tree.directories) := by
      intro t file bytes h
      rw [FileTree.mem_directories_put, prefix_child_iff, h,
        ← or_assoc, or_self]
    have hUnits := hPut clientFile client
      (hPut modelsFile models
        FileTree.mem_directories_withDirectory)
    unfold marked
    split
    · exact hUnits
    · exact hPut initFile (encoded initSource) hUnits

theorem Packed.differ
    {models client : Text.Bytes}
    {after : FileTree}
    (h : Packed out models client tree after) :
    Differ out tree after := by
  refine ⟨h.others, fun p hp => ?_⟩
  rw [h.made, or_iff_right hp]

------------------------------------------------------------
-- Success
------------------------------------------------------------

/- A step that did not fail had not ended before. -/
theorem fault_andThen
    {s : Step}
    {next : Step → Step}
    (h : (s.andThen next).fault = none) :
    s.fault = none ∧ s.andThen next = next s := by
  unfold Step.andThen at h ⊢
  cases hFault : s.fault with
  | none => exact ⟨rfl, rfl⟩
  | some e =>
      rw [hFault] at h
      cases hFault.symm.trans h

/- The directory of a package was made if nothing was in the way. -/
theorem fault_change_makeDirectory
    (h : ((Step.start tree).change
      (·.makeDirectory out)).fault = none) :
    tree.isFile out = false ∧ tree.isBlocked out = false ∧
      ((Step.start tree).change (·.makeDirectory out)).tree =
        tree.withDirectory out := by
  unfold Step.change Step.start FileTree.makeDirectory at h ⊢
  by_cases hFile : tree.isFile out = true
  · simp [hFile, Step.fail] at h
  · by_cases hBlocked : tree.isBlocked out = true
    · simp [hFile, hBlocked, Step.fail] at h
    · simp [hFile, hBlocked]

/- A unit that was written could be read, and is a file now. -/
theorem fault_writeUnit
    {file : String}
    {text : RawText}
    {s : Step}
    (h : (writeUnit out file text s).fault = none) :
    ∃ bytes, unitBytes? file text = some bytes ∧
      s.tree.isDirectory (out.child file) = false ∧
      (writeUnit out file text s).tree =
        s.tree.put (out.child file) bytes := by
  cases hBytes : unitBytes? file text with
  | none =>
      rcases (unitBytes?_eq_none_iff file).1 hBytes with
        ⟨e, hRead⟩
      rw [writeUnit_of_unreadable hRead] at h
      cases h
  | some bytes =>
      rw [writeUnit_of_some hBytes] at h ⊢
      refine ⟨bytes, rfl, ?_⟩
      unfold Step.changeFile FileTree.write at h ⊢
      by_cases hDirectory :
          s.tree.isDirectory (out.child file) = true
      · simp [hDirectory, Step.fail] at h
      · by_cases hBlocked :
            s.tree.isBlocked (out.child file) = true
        · simp [hDirectory, hBlocked, Step.fail] at h
        · simp [hDirectory, hBlocked]

/-
  A package is written if and only if its directory is open and
  both units can be read.
-/
theorem fault_write_iff :
    (write tree out units).fault = none ↔
      IsOpen tree out ∧
        (∃ models,
          unitBytes? modelsFile units.models = some models) ∧
        ∃ client,
          unitBytes? clientFile units.client = some client := by
  constructor
  · intro h
    rcases fault_andThen h with ⟨hUnits, -⟩
    rcases fault_andThen hUnits with ⟨hFirst, hSecond⟩
    rcases fault_andThen hFirst with ⟨hMade, hModels⟩
    rw [hSecond] at hUnits
    rw [hModels] at hFirst
    rcases fault_change_makeDirectory hMade with
      ⟨hFile, hBlocked, hTree⟩
    rcases fault_writeUnit hFirst with
      ⟨models, hModelsBytes, hModelsFree, hPut⟩
    rcases fault_writeUnit hUnits with
      ⟨client, hClientBytes, hClientFree, -⟩
    rw [hTree] at hModelsFree hPut
    rw [hModels, hPut] at hClientFree
    -- the package so far does not change what is a directory
    have hOpened := differ_withDirectory tree out
    have hFirstUnit := hOpened.put (p := out.child modelsFile)
      (by simp [files]) models
    rw [hOpened.isDirectory (by simp [FileTree.Path.child])]
      at hModelsFree
    rw [hFirstUnit.isDirectory (by simp [FileTree.Path.child])]
      at hClientFree
    exact ⟨⟨hFile, hBlocked, hModelsFree, hClientFree⟩,
      ⟨models, hModelsBytes⟩, client, hClientBytes⟩
  · rintro ⟨hOpen, ⟨models, hModels⟩, client, hClient⟩
    rw [write_eq hOpen hModels hClient]

end Package

end TypedClient
