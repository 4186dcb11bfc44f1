import TypedClient.Emit.Models
import TypedClient.Proofs.Emit.Lines
import TypedClient.Proofs.Shape.Reference
import TypedClient.Proofs.Text.Ascii
import TypedClient.Proofs.Text.Quotable
import TypedClient.Text.Lines

/-
  This file shows that the unit of models defines one class for
  each record, in the order of the records.  No line of the unit
  holds a line feed, whatever the title, the version and the keys
  are; so its lines are read back as they were emitted.

  Key definitions include:
    * `Emit.IsUnbroken`
    * `Emit.IsPlain`

  Key theorems include:
    * `Emit.oneLine_rawLiteral`
    * `Emit.isUnbroken_sourceLine`
    * `Emit.classNames_models`
-/

namespace TypedClient

namespace Emit

open Shape (Field Record)

------------------------------------------------------------
-- Pieces of lines
------------------------------------------------------------

theorem oneLine_of_isAlphanum
    {s : String}
    (h : ∀ c ∈ s.toList, c.isAlphanum = true) : OneLine s :=
  oneLine_ofString.2 fun hMem =>
    absurd (h '\n' hMem) (by decide)

theorem oneLine_of_isPascal
    {name : String}
    (h : Name.IsPascal name) : OneLine name :=
  oneLine_of_isAlphanum h.isAlphanum

theorem oneLine_of_isSnake
    {name : String}
    (h : Name.IsSnake name) : OneLine name := by
  rcases h.exists_cons with ⟨c, cs, hChars, hFirst, hRest⟩
  rw [oneLine_ofString, hChars]
  intro hMem
  rcases List.mem_cons.1 hMem with hEq | hMem
  · rw [← hEq] at hFirst
    exact absurd hFirst (by decide)
  · exact absurd (hRest _ hMem) (by decide)

/- A literal is printable, whatever text it is of. -/
theorem isPrintable_of_mem_rawLiteral
    {t : RawText}
    {c : Char}
    (h : c ∈ (rawLiteral t).toList) : Text.IsPrintable c := by
  rw [rawLiteral, String.toList_ofList, Text.literal,
    List.cons_append] at h
  rcases List.mem_cons.1 h with hFirst | h
  · rw [hFirst]
    decide
  · rcases List.mem_append.1 h with hInner | hLast
    · exact (Text.isEnclosed_literal t).printable c hInner
    · rw [List.mem_singleton.1 hLast]
      decide

/- A literal is one line, whatever text it is of. -/
theorem oneLine_rawLiteral (t : RawText) :
    OneLine (rawLiteral t) :=
  oneLine_ofString.2 fun hMem =>
    absurd (isPrintable_of_mem_rawLiteral hMem) (by decide)

/- What is joined comes from the separator or from a piece. -/
theorem mem_intercalate
    {α : Type}
    {a : α}
    {separator : List α}
    {pieces : List (List α)}
    (h : a ∈ List.intercalate separator pieces) :
    a ∈ separator ∨ ∃ piece ∈ pieces, a ∈ piece := by
  induction pieces with
  | nil => simp at h
  | cons p ps ih =>
      cases ps with
      | nil => exact Or.inr ⟨p, List.mem_cons_self, by simpa using h⟩
      | cons q qs =>
          rw [List.intercalate_cons_cons, List.mem_append,
            List.mem_append] at h
          rcases h with (hFirst | hSeparator) | hOthers
          · exact Or.inr ⟨p, List.mem_cons_self, hFirst⟩
          · exact Or.inl hSeparator
          · rcases ih hOthers with hSeparator | ⟨r, hr, hMem⟩
            · exact Or.inl hSeparator
            · exact Or.inr
                ⟨r, List.mem_cons_of_mem p hr, hMem⟩

theorem isBlank_of_isLineBoundary
    {c : Char}
    (h : Text.isLineBoundary c = true) :
    Text.isBlank c = true := by
  have hAll : ['\n', '\r', '\x0b', '\x0c', '\x1c', '\x1d', '\x1e',
      '\u0085', '\u2028', '\u2029'].all Text.isBlank = true := by
    decide
  exact List.all_eq_true.1 hAll c (of_decide_eq_true h)

/- Text in which nothing ends a line. -/
def IsUnbroken (t : RawText) : Prop :=
  ∀ c, .scalar c ∈ t → Text.isLineBoundary c = false

theorem IsUnbroken.oneLine
    {t : RawText}
    (h : IsUnbroken t) : OneLine t :=
  fun hMem => absurd (h '\n' hMem) (by decide)

theorem isUnbroken_ofString
    {s : String} :
    IsUnbroken s ↔
      ∀ c ∈ s.toList, Text.isLineBoundary c = false := by
  simp only [IsUnbroken, RawText.scalar_mem_ofString]

theorem isUnbroken_of_any
    {s : String}
    (h : s.toList.any Text.isLineBoundary = false) :
    IsUnbroken s :=
  isUnbroken_ofString.2 fun c hc =>
    Bool.eq_false_iff.2 (List.any_eq_false.1 h c hc)

/- Nothing ends a line in the comment that names the schema. -/
theorem isUnbroken_sourceLine (title version : RawText) :
    IsUnbroken (sourceLine title version) := by
  have hMark : IsUnbroken "# Source: " :=
    isUnbroken_of_any (by decide)
  have hBlank : IsUnbroken " " :=
    isUnbroken_of_any (by decide)
  intro c h
  simp only [sourceLine] at h
  split at h
  · cases h
  · rcases List.mem_append.1 h with h | h
    · exact hMark c h
    · rcases mem_intercalate h with h | ⟨w, hWord, hMem⟩
      · exact hBlank c h
      · -- a word holds no white space
        have hVisible : Text.isBlank c = false := by
          simpa [CodePoint.isChar] using
            (Text.mem_runs hWord).2 (.scalar c) hMem
        rw [Bool.eq_false_iff]
        intro hBoundary
        rw [isBlank_of_isLineBoundary hBoundary] at hVisible
        cases hVisible

/- A shape that refers to names of one line is one line. -/
theorem oneLine_render
    {shape : Shape}
    (h : ∀ n ∈ shape.references, OneLine n) :
    OneLine shape.render := by
  induction shape with
  | primitive p => cases p <;> decide
  | list item ih =>
      exact (OneLine.append (by decide) (ih h)).append
        (by decide)
  | map value ih =>
      exact (OneLine.append (by decide) (ih h)).append
        (by decide)
  | record name => exact h name (List.mem_singleton.2 rfl)

------------------------------------------------------------
-- Lines of records
------------------------------------------------------------

/- A line that defines no class. -/
structure IsPlain (line : RawText) : Prop where
  oneLine : OneLine line
  className? : className? line = none

instance (line : RawText) : Decidable (IsPlain line) :=
  decidable_of_iff (OneLine line ∧ className? line = none)
    ⟨fun h => ⟨h.1, h.2⟩, fun h => ⟨h.oneLine, h.className?⟩⟩

theorem className?_ofString_eq_none
    {s : String}
    (h : s.toList.head? ≠ some 'c') : className? s = none := by
  apply className?_eq_none
  intro hHead
  rw [RawText.ofString, RawText.ofChars, List.head?_map,
    Option.map_eq_some_iff] at hHead
  rcases hHead with ⟨c, hFirst, hEq⟩
  exact h (CodePoint.scalar.inj hEq ▸ hFirst)

/- The line of a well-formed field defines no class. -/
theorem isPlain_fieldLine
    {f : Field}
    (hField : f.WellFormed)
    (hReferences : ∀ n ∈ f.shape.references, OneLine n) :
    IsPlain (fieldLine f) := by
  have hType : OneLine (fieldType f.shape) := by
    unfold fieldType
    split
    · exact oneLine_render hReferences
    · exact (oneLine_render hReferences).append (by decide)
  constructor
  · unfold fieldLine
    apply OneLine.append _ (by decide)
    refine OneLine.append ?_ (oneLine_rawLiteral f.key)
    apply OneLine.append _ (by decide)
    refine OneLine.append ?_ hType
    apply OneLine.append _ (by decide)
    exact OneLine.append (by decide)
      (oneLine_of_isSnake hField.attr)
  · apply className?_ofString_eq_none
    simp [fieldLine, String.toList_append]

theorem className?_recordLine
    {name : String}
    (h : Name.IsPascal name) :
    className? ("class " ++ name ++ "(BaseModel):" : String) =
      some name := by
  rw [RawText.ofString_append, RawText.ofString_append,
    List.append_assoc]
  exact className?_class h.isAlphanum
    (show '('.isAlphanum = false by decide) _

/- The line that resolves references defines no class. -/
theorem isPlain_rebuildLine
    {r : Record}
    (h : Name.IsPascal r.name) : IsPlain (rebuildLine r) := by
  rcases h.exists_cons with ⟨c, cs, hChars, hFirst, _⟩
  constructor
  · exact (oneLine_of_isPascal h).append (by decide)
  · apply className?_ofString_eq_none
    rw [rebuildLine, String.toList_append, hChars]
    intro hHead
    cases hHead
    exact absurd hFirst (by decide)

------------------------------------------------------------
-- Units of models
------------------------------------------------------------

theorem isPlain_sourceLine (title version : RawText) :
    IsPlain (sourceLine title version) := by
  refine ⟨(isUnbroken_sourceLine title version).oneLine, ?_⟩
  apply className?_eq_none
  simp only [sourceLine]
  split
  · exact fun h => by cases h
  · exact fun h => by cases h

/- The lines above the models define no class. -/
theorem isPlain_modelsPreamble
    {title version line : RawText}
    (h : line ∈ modelsPreamble title version) : IsPlain line := by
  have hHeader : IsPlain header := by
    decide
  have hImports : ∀ l ∈ plain modelsImports, IsPlain l := by
    decide
  simp only [modelsPreamble] at h
  rcases List.mem_cons.1 h with rfl | h
  · exact hHeader
  · rcases List.mem_append.1 h with hSource | hOther
    · split at hSource
      · cases hSource
      · rw [List.mem_singleton.1 hSource]
        exact isPlain_sourceLine title version
    · exact hImports line hOther

variable {records : List Record}
variable {title version : RawText}

/- The lines below the models define no class. -/
theorem isPlain_of_mem_rebuildLines
    (hRecords : ∀ r ∈ records, r.WellFormed)
    {line : String}
    (h : line ∈ if records.isEmpty then []
      else "" :: "" :: records.map rebuildLine) :
    IsPlain line := by
  split at h
  · cases h
  · simp only [List.mem_cons, List.mem_map] at h
    rcases h with rfl | rfl | ⟨r, hr, rfl⟩
    · decide
    · decide
    · exact isPlain_rebuildLine (hRecords r hr).name

/- Every line of well-formed records is one line. -/
theorem oneLine_of_mem_recordsLines
    (hRecords : ∀ r ∈ records, r.WellFormed)
    (hReferences : ∀ r ∈ records, ∀ f ∈ r.fields,
      ∀ n ∈ f.shape.references, OneLine n)
    {line : String}
    (h : line ∈ recordsLines records) : OneLine line := by
  rcases List.mem_append.1 h with hRecord | hRebuild
  · rcases List.mem_flatMap.1 hRecord with ⟨r, hr, hLine⟩
    have hForm := hRecords r hr
    simp only [recordLines, List.mem_cons] at hLine
    rcases hLine with rfl | rfl | rfl | hField
    · decide
    · decide
    · exact (OneLine.append (by decide)
        (oneLine_of_isPascal hForm.name)).append (by decide)
    · rcases List.mem_map.1 hField with ⟨f, hf, rfl⟩
      exact (isPlain_fieldLine (hForm.fields f hf)
        (hReferences r hr f hf)).oneLine
  · exact (isPlain_of_mem_rebuildLines hRecords hRebuild).oneLine

/- Every line of a unit of well-formed records is one line. -/
theorem oneLine_of_mem_modelsLines
    (hRecords : ∀ r ∈ records, r.WellFormed)
    (hReferences : ∀ r ∈ records, ∀ f ∈ r.fields,
      ∀ n ∈ f.shape.references, OneLine n)
    {line : RawText}
    (h : line ∈ modelsLines records title version) :
    OneLine line := by
  rcases List.mem_append.1 h with hPreamble | hRecords'
  · exact (isPlain_modelsPreamble hPreamble).oneLine
  · rcases List.mem_map.1 hRecords' with ⟨s, hs, rfl⟩
    exact oneLine_of_mem_recordsLines hRecords hReferences hs

/- The lines of a record define its class and no other one. -/
theorem filterMap_recordLines
    {r : Record}
    (hRecord : r.WellFormed)
    (hReferences : ∀ f ∈ r.fields,
      ∀ n ∈ f.shape.references, OneLine n) :
    (plain ("" :: "" :: recordLines r)).filterMap className? =
      [r.name] := by
  have hBlank : className? "" = none := by
    decide
  have hFields :
      (plain (r.fields.map fieldLine)).filterMap className? =
        [] := by
    rw [plain, List.map_map, List.filterMap_eq_nil_iff]
    intro line hLine
    rcases List.mem_map.1 hLine with ⟨f, hf, rfl⟩
    exact (isPlain_fieldLine (hRecord.fields f hf)
      (hReferences f hf)).className?
  rw [recordLines, plain_cons, plain_cons, plain_cons,
    List.filterMap_cons_none hBlank,
    List.filterMap_cons_none hBlank,
    List.filterMap_cons_some
      (className?_recordLine hRecord.name), hFields]

/- The lines of records define one class for each of them. -/
theorem filterMap_recordsLines
    (hRecords : ∀ r ∈ records, r.WellFormed)
    (hReferences : ∀ r ∈ records, ∀ f ∈ r.fields,
      ∀ n ∈ f.shape.references, OneLine n) :
    (plain (recordsLines records)).filterMap className? =
      records.map Record.name := by
  have hRebuild :
      (plain (if records.isEmpty then []
        else "" :: "" :: records.map rebuildLine)).filterMap
          className? = [] := by
    rw [plain, List.filterMap_eq_nil_iff]
    intro line hLine
    rcases List.mem_map.1 hLine with ⟨s, hs, rfl⟩
    exact (isPlain_of_mem_rebuildLines hRecords hs).className?
  have hMiddle :
      (plain (records.flatMap fun r =>
          "" :: "" :: recordLines r)).filterMap className? =
        records.map Record.name := by
    clear hRebuild
    induction records with
    | nil => rfl
    | cons r rs ih =>
        rw [List.flatMap_cons, plain_append,
          List.filterMap_append,
          filterMap_recordLines
            (hRecords r List.mem_cons_self)
            (hReferences r List.mem_cons_self),
          ih (fun s hs => hRecords s (List.mem_cons_of_mem r hs))
            (fun s hs =>
              hReferences s (List.mem_cons_of_mem r hs)),
          List.map_cons, List.singleton_append]
  rw [recordsLines, plain_append, List.filterMap_append,
    hMiddle, hRebuild, List.append_nil]

/- The unit of models defines one class for each record. -/
theorem classNames_models
    (hRecords : ∀ r ∈ records, r.WellFormed)
    (hReferences : ∀ r ∈ records, ∀ f ∈ r.fields,
      ∀ n ∈ f.shape.references, OneLine n) :
    classNames (models records title version) =
      records.map Record.name := by
  have hLines :
      linesOf (models records title version) =
        modelsLines records title version ++ [[]] :=
    linesOf_unitText (by simp [modelsLines, modelsPreamble])
      fun line => oneLine_of_mem_modelsLines hRecords hReferences
  have hPreamble :
      (modelsPreamble title version).filterMap className? =
        [] := by
    rw [List.filterMap_eq_nil_iff]
    exact fun line h => (isPlain_modelsPreamble h).className?
  have hLast : [[]].filterMap className? = [] := by
    decide
  rw [classNames, hLines, modelsLines, List.filterMap_append,
    List.filterMap_append, hPreamble,
    filterMap_recordsLines hRecords hReferences, hLast,
    List.nil_append, List.append_nil]

end Emit

end TypedClient
