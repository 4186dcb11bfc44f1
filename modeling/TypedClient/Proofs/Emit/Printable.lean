import TypedClient.Proofs.Emit.Classes

/-
  This file shows that models are printable ASCII, whatever the
  keys of their fields are, but for the comment that names the
  schema.

  Key definitions include:
    * `Emit.Printable`
    * `Emit.IsForeign`

  Key theorems include:
    * `Emit.mem_unitText_iff`
    * `Emit.mem_sourceLine_iff`
    * `Emit.mem_models_iff`
-/

namespace TypedClient

namespace Emit

open Shape (Field Record)

------------------------------------------------------------
-- Printable text
------------------------------------------------------------

/- Text of visible characters of ASCII and of blanks. -/
def Printable (s : String) : Prop :=
  ∀ c ∈ s.toList, Text.IsPrintable c

instance (s : String) : Decidable (Printable s) :=
  List.decidableBAll Text.IsPrintable s.toList

/- A code point that is not printable. -/
def IsUnprintable (p : CodePoint) : Prop :=
  ∀ c, Text.IsPrintable c → p ≠ .scalar c

/- A code point that no emitted unit has of its own. -/
structure IsForeign (p : CodePoint) : Prop where
  unprintable : IsUnprintable p
  not_lineFeed : p ≠ .scalar '\n'

theorem isForeign_null : IsForeign (.scalar '\x00') where
  unprintable := by
    intro c hc hEq
    rw [← CodePoint.scalar.inj hEq] at hc
    exact absurd hc (by decide)
  not_lineFeed := by decide

theorem isForeign_surrogate (k : Fin 0x800) :
    IsForeign (.surrogate k) where
  unprintable := fun c _ h => by cases h
  not_lineFeed := fun h => by cases h

theorem IsUnprintable.not_mem
    {p : CodePoint}
    {s : String}
    (h : IsUnprintable p)
    (hText : Printable s) : p ∉ RawText.ofString s := by
  intro hMem
  rcases RawText.mem_ofString.1 hMem with ⟨c, hc, hEq⟩
  exact h c (hText c hc) hEq

theorem IsForeign.not_mem
    {p : CodePoint}
    {s : String}
    (h : IsForeign p)
    (hText : Printable s) : p ∉ RawText.ofString s :=
  h.unprintable.not_mem hText

theorem printable_ofList
    {cs : List Char}
    (h : cs.all (fun c => decide (Text.IsPrintable c)) = true) :
    Printable (String.ofList cs) := by
  intro c hc
  rw [String.toList_ofList] at hc
  exact of_decide_eq_true (List.all_eq_true.1 h c hc)

theorem Printable.append
    {s t : String}
    (hs : Printable s)
    (ht : Printable t) : Printable (s ++ t) := by
  intro c hc
  rw [String.toList_append] at hc
  rcases List.mem_append.1 hc with hc | hc
  · exact hs c hc
  · exact ht c hc

/- What is joined comes from the separator or from a text. -/
theorem mem_separated
    {c : Char}
    {separator : String}
    {texts : List String}
    (h : c ∈ (separated separator texts).toList) :
    c ∈ separator.toList ∨ ∃ t ∈ texts, c ∈ t.toList := by
  rw [separated, String.toList_ofList] at h
  rcases mem_intercalate h with h | ⟨piece, hPiece, hMem⟩
  · exact Or.inl h
  · rcases List.mem_map.1 hPiece with ⟨t, ht, rfl⟩
    exact Or.inr ⟨t, ht, hMem⟩

/- What is in a piece is in what the pieces are joined to. -/
theorem mem_intercalate_of_mem
    {α : Type}
    {a : α}
    (separator : List α)
    {pieces : List (List α)}
    {piece : List α}
    (hPiece : piece ∈ pieces)
    (h : a ∈ piece) : a ∈ List.intercalate separator pieces := by
  induction pieces with
  | nil => cases hPiece
  | cons p ps ih =>
      cases ps with
      | nil =>
          rw [List.mem_singleton.1 hPiece] at h
          simpa using h
      | cons q qs =>
          rw [List.intercalate_cons_cons]
          rcases List.mem_cons.1 hPiece with rfl | hPiece
          · exact List.mem_append_left _
              (List.mem_append_left _ h)
          · exact List.mem_append_right _ (ih hPiece)

/- Printable texts are joined to printable text. -/
theorem printable_separated
    {separator : String}
    {texts : List String}
    (hSeparator : Printable separator)
    (h : ∀ t ∈ texts, Printable t) :
    Printable (separated separator texts) := by
  intro c hc
  rcases mem_separated hc with hc | ⟨t, ht, hc⟩
  · exact hSeparator c hc
  · exact h t ht c hc

theorem printable_commaList
    {args : List String}
    (h : ∀ a ∈ args, Printable a) : Printable (commaList args) :=
  printable_separated (by decide) h

/- The foreign characters of a unit are those of its lines. -/
theorem mem_unitText_iff
    {p : CodePoint}
    (h : IsForeign p)
    (lines : List RawText) :
    p ∈ unitText lines ↔ ∃ line ∈ lines, p ∈ line := by
  have hLast : p ∉ lineFeed :=
    fun hMem => h.not_lineFeed (List.mem_singleton.1 hMem)
  rw [unitText, List.mem_append, or_iff_left hLast]
  constructor
  · intro hMem
    exact (mem_intercalate hMem).resolve_left hLast
  · rintro ⟨line, hLine, hMem⟩
    exact mem_intercalate_of_mem _ hLine hMem

------------------------------------------------------------
-- Names and literals
------------------------------------------------------------

theorem isPrintable_of_isAlphanum
    {c : Char}
    (h : c.isAlphanum = true) : Text.IsPrintable c :=
  Text.forall_alphanum (P := Text.IsPrintable) (by decide) h

theorem printable_of_isPascal
    {name : String}
    (h : Name.IsPascal name) : Printable name :=
  fun c hc => isPrintable_of_isAlphanum (h.isAlphanum c hc)

/- The characters of snake case are printable. -/
theorem isPrintable_of_isSnakeChar
    {c : Char}
    (h : Name.isSnakeChar c = true) : Text.IsPrintable c := by
  rcases Bool.or_eq_true_iff.1 h with h | hMark
  · rcases Bool.or_eq_true_iff.1 h with hLower | hDigit
    · exact isPrintable_of_isAlphanum
        (Text.isAlphanum_of_isLower hLower)
    · exact isPrintable_of_isAlphanum
        (Text.isAlphanum_of_isDigit hDigit)
  · rw [of_decide_eq_true hMark]
    decide

theorem printable_of_isSnake
    {name : String}
    (h : Name.IsSnake name) : Printable name :=
  fun c hc => isPrintable_of_isSnakeChar (h.forall_mem c hc)

theorem printable_rawLiteral (t : RawText) :
    Printable (rawLiteral t) :=
  fun _ => isPrintable_of_mem_rawLiteral

------------------------------------------------------------
-- Units of models
------------------------------------------------------------

/- A shape that refers to printable names is printable. -/
theorem printable_render
    {shape : Shape}
    (h : ∀ n ∈ shape.references, Printable n) :
    Printable shape.render := by
  induction shape with
  | primitive p => cases p <;> decide
  | list item ih =>
      exact (Printable.append (by decide) (ih h)).append
        (by decide)
  | map value ih =>
      exact (Printable.append (by decide) (ih h)).append
        (by decide)
  | record name => exact h name (List.mem_singleton.2 rfl)

/- The line of a well-formed field is printable. -/
theorem printable_fieldLine
    {f : Field}
    (hField : f.WellFormed)
    (hReferences : ∀ n ∈ f.shape.references, Printable n) :
    Printable (fieldLine f) := by
  have hType : Printable (fieldType f.shape) := by
    unfold fieldType
    split
    · exact printable_render hReferences
    · exact (printable_render hReferences).append (by decide)
  unfold fieldLine
  apply Printable.append _ (by decide)
  refine Printable.append ?_ (printable_rawLiteral f.key)
  apply Printable.append _ (by decide)
  refine Printable.append ?_ hType
  apply Printable.append _ (by decide)
  exact Printable.append (by decide)
    (printable_of_isSnake hField.attr)

/- So are the lines of a well-formed record. -/
theorem printable_of_mem_recordLines
    {r : Record}
    {line : String}
    (hRecord : r.WellFormed)
    (hReferences : ∀ f ∈ r.fields,
      ∀ n ∈ f.shape.references, Printable n)
    (h : line ∈ recordLines r) : Printable line := by
  rcases List.mem_cons.1 h with rfl | hField
  · exact (Printable.append (by decide)
      (printable_of_isPascal hRecord.name)).append (by decide)
  · rcases List.mem_map.1 hField with ⟨f, hf, rfl⟩
    exact printable_fieldLine (hRecord.fields f hf)
      (hReferences f hf)

theorem printable_modelsImports :
    ∀ line ∈ modelsImports, Printable line := by
  decide

/- The lines of all records are printable. -/
theorem printable_of_mem_recordsLines
    {records : List Record}
    {line : String}
    (hRecords : ∀ r ∈ records, r.WellFormed)
    (hReferences : ∀ r ∈ records, ∀ f ∈ r.fields,
      ∀ n ∈ f.shape.references, Printable n)
    (h : line ∈ recordsLines records) : Printable line := by
  rcases List.mem_append.1 h with hRecord | hRebuild
  · rcases List.mem_flatMap.1 hRecord with ⟨r, hr, hLine⟩
    simp only [List.mem_cons] at hLine
    rcases hLine with rfl | rfl | hLine
    · decide
    · decide
    · exact printable_of_mem_recordLines (hRecords r hr)
        (hReferences r hr) hLine
  · split at hRebuild
    · cases hRebuild
    · simp only [List.mem_cons, List.mem_map] at hRebuild
      rcases hRebuild with rfl | rfl | ⟨r, hr, rfl⟩
      · decide
      · decide
      · exact (printable_of_isPascal (hRecords r hr).name).append
          (by decide)

section

variable {p : CodePoint}
variable {title version : RawText}

/-
  The comment that names the schema has the foreign characters of
  the title and the version that are no white space.
-/
theorem mem_sourceLine_iff
    (h : IsForeign p)
    (hVisible : p.isChar Text.isBlank = false) :
    p ∈ sourceLine title version ↔ p ∈ title ++ version := by
  have hGap : p ∉ RawText.ofString " " := h.not_mem (by decide)
  have hMark : p ∉ RawText.ofString "# Source: " :=
    h.not_mem (by decide)
  have hText : p ∈ title ++ RawText.ofString " " ++ version ↔
      p ∈ title ++ version := by
    rw [List.mem_append, List.mem_append, List.mem_append,
      or_iff_left hGap]
  have hWords : p ∈ title ++ RawText.ofString " " ++ version ↔
      ∃ w ∈ Text.words (title ++ RawText.ofString " " ++ version),
        p ∈ w :=
    (Text.exists_mem_runs_iff (by simp [hVisible])).symm
  rw [← hText, hWords]
  simp only [sourceLine]
  split
  next hNone =>
    rw [List.isEmpty_iff.1 hNone]
    simp
  next =>
    rw [List.mem_append, or_iff_right hMark]
    constructor
    · intro hMem
      exact (mem_intercalate hMem).resolve_left hGap
    · rintro ⟨w, hWord, hMem⟩
      exact mem_intercalate_of_mem _ hWord hMem

/-
  The lines above the models have the foreign characters of the
  comment that names the schema.
-/
theorem exists_mem_modelsPreamble_iff
    (h : IsForeign p) :
    (∃ line ∈ modelsPreamble title version, p ∈ line) ↔
      p ∈ sourceLine title version := by
  have hHeader : p ∉ RawText.ofString header :=
    h.not_mem (by decide)
  have hImports : ¬ ∃ line ∈ plain modelsImports, p ∈ line := by
    rintro ⟨line, hLine, hMem⟩
    rcases List.mem_map.1 hLine with ⟨s, hs, rfl⟩
    exact h.not_mem (printable_modelsImports s hs) hMem
  simp only [modelsPreamble, List.mem_cons, List.mem_append,
    or_and_right, exists_or, exists_eq_left, hHeader, hImports,
    false_or, or_false]
  split
  next hEmpty =>
    rw [List.isEmpty_iff.1 hEmpty]
    simp
  next => simp

/-
  The foreign characters of the models, white space aside, are
  those of the title and the version.
-/
theorem mem_models_iff
    {records : List Record}
    (hRecords : ∀ r ∈ records, r.WellFormed)
    (hReferences : ∀ r ∈ records, ∀ f ∈ r.fields,
      ∀ n ∈ f.shape.references, Printable n)
    (h : IsForeign p)
    (hVisible : p.isChar Text.isBlank = false) :
    p ∈ models records title version ↔ p ∈ title ++ version := by
  have hPlain : ¬ ∃ line ∈ plain (recordsLines records),
      p ∈ line := by
    rintro ⟨line, hLine, hMem⟩
    rcases List.mem_map.1 hLine with ⟨s, hs, rfl⟩
    exact h.not_mem
      (printable_of_mem_recordsLines hRecords hReferences hs) hMem
  rw [models, mem_unitText_iff h, ← mem_sourceLine_iff h hVisible,
    ← exists_mem_modelsPreamble_iff h]
  simp only [modelsLines, List.mem_append, or_and_right, exists_or,
    hPlain, or_false]

end

end Emit

end TypedClient
