import TypedClient.CommandLine.Options

/-
  This file says what is known of the options of a command line
  that is accepted: their values were looked at, so the file of a
  schema is there.

  Key theorems include:
    * `CommandLine.exists_scan_of_parse`
    * `CommandLine.isFile_of_parse`
-/

namespace TypedClient

namespace CommandLine

open FileTree (Path)

variable {tree : FileTree}
variable {env : List (String × String)}
variable {base schemaPath : String}
variable {out : Path}
variable {noSample : Bool}

------------------------------------------------------------
-- Commands
------------------------------------------------------------

/- What is read behind a command is read by its scan. -/
theorem exists_scan_of_parseCommand
    {command : Command}
    {words : List String}
    {file : Option Path}
    (h : parseCommand tree env command words =
      .ok (.generate base out schemaPath file noSample)) :
    ∃ found, firstMistake? tree env command found = none ∧
      invocation env command found =
        .generate base out schemaPath file noSample := by
  simp only [parseCommand, bind, Except.bind] at h
  split at h
  next => cases h
  next found hScan =>
    refine ⟨found, ?_⟩
    split at h
    · cases h
    · split at h
      next => cases h
      next hNone =>
        split at h
        · exact ⟨hNone, Except.ok.inj h⟩
        · cases h

/- If that starts a generation, the command is the one for it. -/
theorem exists_scan_of_generate
    {command : Command}
    {words : List String}
    {file : Option Path}
    (h : (parseCommand tree env command words).mapError
        (UsageError.mk (some command)) =
      .ok (.generate base out schemaPath file noSample)) :
    ∃ found, firstMistake? tree env .generate found = none ∧
      invocation env .generate found =
        .generate base out schemaPath file noSample := by
  cases hParse : parseCommand tree env command words with
  | error e =>
      rw [hParse] at h
      cases h
  | ok i =>
      rw [hParse] at h
      cases h
      cases command with
      | generate => exact exists_scan_of_parseCommand hParse
      | clean =>
          rcases exists_scan_of_parseCommand hParse with
            ⟨found, _, hClean⟩
          cases hClean

/- A command line that starts a generation has such a scan. -/
theorem exists_scan_of_parse
    {args : List String}
    {file : Option Path}
    (h : parse tree env args =
      .ok (.generate base out schemaPath file noSample)) :
    ∃ found, firstMistake? tree env .generate found = none ∧
      invocation env .generate found =
        .generate base out schemaPath file noSample := by
  unfold parse at h
  split at h
  next => cases h
  next =>
    split at h
    next => cases h
    next =>
      split at h
      next => cases h
      next => exact exists_scan_of_generate h
  next =>
    split at h
    next => cases h
    next =>
      split at h
      next =>
        dsimp only at h
        split at h
        · cases h
        · cases h
      next =>
        split at h
        next => cases h
        next =>
          split at h
          next => cases h
          next => exact exists_scan_of_generate h

------------------------------------------------------------
-- Values
------------------------------------------------------------

/- Every option of a command is looked at. -/
theorem mem_processingOrder
    {command : Command}
    {s : Setting}
    (h : s ∈ command.settings)
    (found : Scan) : s ∈ processingOrder command found := by
  rw [processingOrder, List.mem_eraseDups]
  exact List.mem_append_right _ h

/- What is no mistake as the file of a schema is a file. -/
theorem isFile_of_mistakeOf?
    {value : String}
    (h : mistakeOf? tree .schemaFile value = none) :
    tree.isFile (Path.ofText value) = true := by
  simp only [mistakeOf?] at h
  split at h
  next => cases h
  next hThere =>
    split at h
    next => cases h
    next hOther =>
      rw [Bool.or_eq_true, not_or] at hThere
      have hContains :
          tree.contains (Path.ofText value) = true := by
        simpa using hThere.2
      rcases Bool.or_eq_true_iff.1 hContains with hFile | hDir
      · exact hFile
      · exact absurd hDir hOther

/-
  If a command line starts a generation from the schema in a file,
  there is such a file.
-/
theorem isFile_of_parse
    {args : List String}
    {file : Path}
    (h : parse tree env args =
      .ok (.generate base out schemaPath (some file) noSample)) :
    tree.isFile file = true := by
  rcases exists_scan_of_parse h with ⟨found, hNone, hPlan⟩
  have hValue : (valueOf? found env .schemaFile).map
      Path.ofText = some file := by
    injection hPlan
  rcases Option.map_eq_some_iff.1 hValue with ⟨value, hText, rfl⟩
  have hChecked := List.findSome?_eq_none_iff.1 hNone .schemaFile
    (mem_processingOrder (by decide) found)
  rw [hText, Option.bind_some] at hChecked
  exact isFile_of_mistakeOf? hChecked

end CommandLine

end TypedClient
