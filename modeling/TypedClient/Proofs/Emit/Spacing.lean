import TypedClient.Proofs.Emit.Printable
import TypedClient.Proofs.Source.Formatted

/-
  This file shows that formatting leaves units of models as they
  are.  A unit is made of blocks of full lines, which end with
  something visible and are not broken; in front of a block stand
  two empty lines at most.

  Key definitions include:
    * `Emit.EndsShown`
    * `Emit.IsFull`
    * `Emit.IsSpaced`

  Key theorems include:
    * `Emit.IsSpaced.append`
    * `Emit.isSpaced_block`
    * `Emit.IsSpaced.staysAsIs`
    * `Emit.isSpaced_recordsLines`
-/

namespace TypedClient

namespace Emit

open Shape (Field Record)
open Source (FewEmpty StaysAsIs)

------------------------------------------------------------
-- Full lines
------------------------------------------------------------

/- Text that ends with something visible. -/
def EndsShown (t : RawText) : Prop :=
  t.getLast?.map (CodePoint.isChar Text.isBlank) = some false

instance (t : RawText) : Decidable (EndsShown t) := by
  unfold EndsShown
  infer_instance

theorem EndsShown.behind
    {t : RawText}
    (h : EndsShown t)
    (front : RawText) : EndsShown (front ++ t) := by
  unfold EndsShown at h ⊢
  rcases Option.map_eq_some_iff.1 h with ⟨p, hLast, _⟩
  rw [List.getLast?_append, hLast, Option.some_or, ← hLast, h]

theorem endsShown_append
    {s : String}
    (h : EndsShown s)
    (front : String) : EndsShown (.ofString (front ++ s)) := by
  rw [RawText.ofString_append]
  exact h.behind _

theorem EndsShown.ne_nil
    {t : RawText}
    (h : EndsShown t) : t ≠ [] := by
  rintro rfl
  cases h

/- A line without white space at its end. -/
def IsTrimmed (line : RawText) : Prop :=
  line.getLast?.any (CodePoint.isChar Text.isBlank) = false

instance (line : RawText) : Decidable (IsTrimmed line) := by
  unfold IsTrimmed
  infer_instance

theorem EndsShown.isTrimmed
    {t : RawText}
    (h : EndsShown t) : IsTrimmed t := by
  rcases Option.map_eq_some_iff.1 h with ⟨p, hLast, hp⟩
  rw [IsTrimmed, hLast, Option.any_some, hp]

theorem IsTrimmed.trimEnd_eq
    {cs : List Char}
    (h : IsTrimmed (.ofChars cs)) : Text.trimEnd cs = cs := by
  refine List.rdropWhile_eq_self_iff.2 fun hNe hBlank => ?_
  rw [IsTrimmed, RawText.ofChars, List.getLast?_map,
    List.getLast?_eq_some_getLast hNe, Option.map_some,
    Option.any_some, CodePoint.isChar, hBlank] at h
  cases h

/- A line that nothing breaks and that ends visibly. -/
structure IsFull (line : RawText) : Prop where
  unbroken : IsUnbroken line
  shown : EndsShown line

/- No printable character ends a line. -/
theorem isLineBoundary_of_isPrintable
    {c : Char}
    (h : Text.IsPrintable c) : Text.isLineBoundary c = false := by
  have hAscii : c.toNat < 128 :=
    Nat.lt_of_lt_of_le h.2 (Nat.le_succ 127)
  exact Text.forall_ascii
    (P := fun c => Text.IsPrintable c →
      Text.isLineBoundary c = false)
    (by decide) hAscii h

theorem isUnbroken_of_printable
    {s : String}
    (h : Printable s) : IsUnbroken s :=
  isUnbroken_ofString.2 fun c hc =>
    isLineBoundary_of_isPrintable (h c hc)

------------------------------------------------------------
-- Spaced lines
------------------------------------------------------------

/-
  Lines of a unit: nothing breaks them, no white space stands at
  their ends, two of them at most are empty in a row, and the last
  one is not.
-/
structure IsSpaced (lines : List RawText) : Prop where
  unbroken : ∀ line ∈ lines, IsUnbroken line
  trimmed : ∀ line ∈ lines, IsTrimmed line
  few : FewEmpty lines
  last : lines.getLast? ≠ some []

theorem isSpaced_nil : IsSpaced [] where
  unbroken := List.forall_mem_nil _
  trimmed := List.forall_mem_nil _
  few := Source.fewEmpty_of_limitEmpty rfl
  last := by simp

/-
  Whether no more than two lines are empty in a row, where `seen`
  empty ones stand directly in front.
-/
def hasFew (seen : Nat) : List String → Bool
  | [] => true
  | line :: lines =>
      if line = "" then seen < 2 && hasFew (seen + 1) lines
      else hasFew 0 lines

theorem ofString_eq_nil_iff
    {s : String} : RawText.ofString s = [] ↔ s = "" := by
  rw [RawText.ofString, RawText.ofChars, List.map_eq_nil_iff,
    String.toList_eq_nil_iff]

/- Lines with few empty ones in a row are not limited further. -/
theorem limitEmpty_of_hasFew
    {seen : Nat}
    {lines : List String}
    (h : hasFew seen lines = true) :
    Source.limitEmpty seen (plain lines) = plain lines := by
  induction lines generalizing seen with
  | nil => rfl
  | cons line lines ih =>
      rw [hasFew] at h
      rw [plain_cons, Source.limitEmpty]
      split at h
      next hEmpty =>
        rcases Bool.and_eq_true_iff.1 h with ⟨hSeen, hRest⟩
        rw [if_pos (ofString_eq_nil_iff.2 hEmpty),
          if_pos (of_decide_eq_true hSeen), ih hRest]
      next hFull =>
        rw [if_neg (mt ofString_eq_nil_iff.1 hFull), ih h]

/- Spaced lines may be put behind others. -/
theorem IsSpaced.append
    {xs ys : List RawText}
    (hx : IsSpaced xs)
    (hy : IsSpaced ys) : IsSpaced (xs ++ ys) where
  unbroken := List.forall_mem_append.2 ⟨hx.unbroken, hy.unbroken⟩
  trimmed := List.forall_mem_append.2 ⟨hx.trimmed, hy.trimmed⟩
  few := hx.few.append hx.last hy.few
  last := by
    rw [List.getLast?_append]
    cases hLast : ys.getLast? with
    | none =>
        rw [Option.none_or]
        exact hx.last
    | some line =>
        rw [Option.some_or, ← hLast]
        exact hy.last

theorem isSpaced_flatten
    {pieces : List (List RawText)}
    (h : ∀ piece ∈ pieces, IsSpaced piece) :
    IsSpaced pieces.flatten := by
  induction pieces with
  | nil => exact isSpaced_nil
  | cons piece pieces ih =>
      rcases List.forall_mem_cons.1 h with ⟨hFirst, hOthers⟩
      exact hFirst.append (ih hOthers)

/- A block of full lines with empty ones in front of it. -/
theorem isSpaced_block
    (blanks : Nat)
    {block : List RawText}
    (hBlanks : blanks ≤ 2)
    (hSome : block ≠ [])
    (h : ∀ line ∈ block, IsFull line) :
    IsSpaced (List.replicate blanks [] ++ block) := by
  have hFull : ∀ line ∈ block, line ≠ [] :=
    fun line hLine => (h line hLine).shown.ne_nil
  constructor
  case unbroken =>
    refine List.forall_mem_append.2
      ⟨fun line hLine => ?_, fun line hLine => (h line hLine).unbroken⟩
    rw [List.eq_of_mem_replicate hLine]
    exact fun c hc => by cases hc
  case trimmed =>
    refine List.forall_mem_append.2
      ⟨fun line hLine => ?_, fun line hLine =>
        (h line hLine).shown.isTrimmed⟩
    rw [List.eq_of_mem_replicate hLine]
    rfl
  case few =>
    apply Source.fewEmpty_of_limitEmpty
    apply Source.limitEmpty_blanks hFull
    omega
  case last =>
    rw [List.getLast?_append_of_ne_nil _ hSome,
      List.getLast?_eq_some_getLast hSome]
    intro hEmpty
    exact hFull _ (List.getLast_mem hSome) (Option.some.inj hEmpty)

/- The text of a unit closes each of its lines. -/
theorem unitText_eq_flatMap
    {lines : List RawText}
    (h : lines ≠ []) :
    unitText lines = lines.flatMap (· ++ lineFeed) := by
  induction lines with
  | nil => exact (h rfl).elim
  | cons line lines ih =>
      by_cases hNone : lines = []
      · rw [hNone, unitText_singleton]
        exact (List.append_nil _).symm
      · rw [unitText_cons line hNone, ih hNone, List.flatMap_cons,
          List.append_assoc]
        rfl

/- Closed lines of characters only are closed characters. -/
theorem exists_closed_of_flatMap
    {lines : List RawText}
    {cs : List Char}
    (h : lines.flatMap (· ++ lineFeed) = RawText.ofChars cs) :
    ∃ ls, lines = ls.map RawText.ofChars ∧
      cs = Text.closed ls := by
  induction lines generalizing cs with
  | nil => exact ⟨[], rfl, List.map_eq_nil_iff.1 h.symm⟩
  | cons line lines ih =>
      rw [List.flatMap_cons, List.append_assoc] at h
      rcases List.map_eq_append_iff.1 h.symm with
        ⟨front, behind, rfl, rfl, hBehind⟩
      rcases List.map_eq_cons_iff.1 hBehind with
        ⟨c, rest, rfl, hc, hRest⟩
      rcases ih hRest.symm with ⟨ls, rfl, rfl⟩
      refine ⟨front :: ls, rfl, ?_⟩
      rw [Text.closed_cons, CodePoint.scalar.inj hc]

/- Spaced lines behind a full one are in regular layout. -/
theorem IsSpaced.isRegular
    {line : RawText}
    {others : List RawText}
    {ls : List (List Char)}
    (h : IsSpaced (line :: others))
    (hFirst : IsFull line)
    (hLines : line :: others = ls.map RawText.ofChars) :
    Source.IsRegular ls := by
  rcases List.map_eq_cons_iff.1 hLines.symm with
    ⟨first, rest, rfl, hLine, _⟩
  rw [hLines] at h
  constructor
  case unbroken =>
    exact fun l hl c hc => h.unbroken _ (List.mem_map_of_mem hl) c
      (List.mem_map_of_mem hc)
  case trimmed =>
    exact fun l hl =>
      (h.trimmed _ (List.mem_map_of_mem hl)).trimEnd_eq
  case nonempty => exact List.cons_ne_nil first rest
  case first =>
    refine Or.inr fun hNil => hFirst.shown.ne_nil ?_
    rw [← hLine, Option.some.inj hNil]
    rfl
  case last =>
    refine Or.inr fun hNil => h.last ?_
    rw [List.getLast?_map, hNil]
    rfl
  case few =>
    intro run hRun hAll
    have hLength := h.few _ (hRun.map RawText.ofChars) ?_
    · rwa [List.length_map] at hLength
    · intro l hl
      rcases List.mem_map.1 hl with ⟨k, hk, rfl⟩
      rw [hAll k hk]
      rfl

/- A unit of spaced lines behind a full one stays as it is. -/
theorem IsSpaced.staysAsIs
    {line : RawText}
    {others : List RawText}
    (h : IsSpaced (line :: others))
    (hFirst : IsFull line) :
    StaysAsIs (unitText (line :: others)) := by
  apply Source.staysAsIs_of_tidy
  intro cs hText
  rw [unitText_eq_flatMap (List.cons_ne_nil _ _)] at hText
  rcases exists_closed_of_flatMap hText with ⟨ls, hLines, rfl⟩
  exact Source.tidy_closed (h.isRegular hFirst hLines)

theorem isFull_of_printable
    {line : String}
    (h : Printable line ∧ EndsShown line) : IsFull line :=
  ⟨isUnbroken_of_printable h.1, h.2⟩

theorem isFull_header : IsFull header :=
  isFull_of_printable (by decide)

/- A block of printable lines with empty ones in front of it. -/
theorem isSpaced_printable
    (blanks : Nat)
    {block : List String}
    (hBlanks : blanks ≤ 2)
    (hSome : block ≠ [])
    (h : ∀ line ∈ block, Printable line ∧ EndsShown line) :
    IsSpaced (List.replicate blanks [] ++ plain block) := by
  refine isSpaced_block blanks hBlanks ?_ fun line hLine => ?_
  · exact mt List.map_eq_nil_iff.1 hSome
  · rcases List.mem_map.1 hLine with ⟨s, hs, rfl⟩
    exact isFull_of_printable (h s hs)

------------------------------------------------------------
-- Units of models
------------------------------------------------------------

/- Joined pieces end as one of them, unless one is empty. -/
theorem exists_getLast?_intercalate
    {α : Type}
    (separator : List α)
    {pieces : List (List α)}
    (hSome : pieces ≠ [])
    (h : ∀ piece ∈ pieces, piece ≠ []) :
    ∃ piece ∈ pieces,
      (List.intercalate separator pieces).getLast? =
        piece.getLast? := by
  induction pieces with
  | nil => exact (hSome rfl).elim
  | cons p ps ih =>
      cases ps with
      | nil => exact ⟨p, List.mem_cons_self, by simp⟩
      | cons q qs =>
          rcases ih (List.cons_ne_nil q qs) fun piece hp =>
              h piece (List.mem_cons_of_mem p hp) with
            ⟨piece, hPiece, hLast⟩
          have hNe : piece.getLast? ≠ none := by
            rw [ne_eq, List.getLast?_eq_none_iff]
            exact h piece (List.mem_cons_of_mem p hPiece)
          rcases Option.ne_none_iff_exists'.1 hNe with ⟨c, hc⟩
          refine ⟨piece, List.mem_cons_of_mem p hPiece, ?_⟩
          rw [List.intercalate_cons_cons, List.getLast?_append,
            hLast, hc, Option.some_or]

/- The comment that names the schema is a full line. -/
theorem isFull_sourceLine
    {title version : RawText}
    (h : sourceLine title version ≠ []) :
    IsFull (sourceLine title version) := by
  refine ⟨isUnbroken_sourceLine title version, ?_⟩
  simp only [sourceLine] at h ⊢
  split at h
  next => exact (h rfl).elim
  next hWords =>
    rw [if_neg hWords]
    apply EndsShown.behind
    have hFull : ∀ w ∈ Text.words
        (title ++ RawText.ofString " " ++ version), w ≠ [] :=
      fun w hw => (Text.mem_runs hw).1
    rcases exists_getLast?_intercalate (RawText.ofString " ")
        (mt List.isEmpty_iff.2 hWords) hFull with
      ⟨w, hw, hLast⟩
    -- the last word ends with one of its characters
    have hNe := hFull w hw
    have hVisible := (Text.mem_runs hw).2 _ (List.getLast_mem hNe)
    rw [EndsShown, hLast, List.getLast?_eq_some_getLast hNe,
      Option.map_some]
    simpa using hVisible

/- The lines above the models are spaced. -/
theorem isSpaced_modelsPreamble (title version : RawText) :
    IsSpaced (modelsPreamble title version) := by
  have hOne {line : String}
      (hLine : Printable line ∧ EndsShown line) :
      IsSpaced [[], line] :=
    isSpaced_printable 1 (by decide) (List.cons_ne_nil line [])
      (List.forall_mem_singleton.2 hLine)
  have hTop : IsSpaced
      (header :: (if (sourceLine title version).isEmpty then []
        else [sourceLine title version])) := by
    refine isSpaced_block 0 (by decide) (List.cons_ne_nil _ _) ?_
    refine List.forall_mem_cons.2
      ⟨isFull_header, fun line hLine => ?_⟩
    split at hLine
    next => cases hLine
    next hSome =>
      rw [List.mem_singleton.1 hLine]
      exact isFull_sourceLine (mt List.isEmpty_iff.2 hSome)
  exact hTop.append ((hOne (by decide)).append
    ((hOne (by decide)).append (hOne (by decide))))

variable {records : List Record}

/- The lines of a well-formed record are full. -/
theorem isFull_of_mem_recordLines
    {r : Record}
    {line : String}
    (hRecord : r.WellFormed)
    (hReferences : ∀ f ∈ r.fields,
      ∀ n ∈ f.shape.references, Printable n)
    (h : line ∈ recordLines r) : IsFull line := by
  refine ⟨isUnbroken_of_printable
    (printable_of_mem_recordLines hRecord hReferences h), ?_⟩
  rcases List.mem_cons.1 h with rfl | hField
  · exact endsShown_append (by decide) _
  · rcases List.mem_map.1 hField with ⟨f, _, rfl⟩
    exact endsShown_append (by decide) _

/- The lines of well-formed records are spaced. -/
theorem isSpaced_recordsLines
    (hRecords : ∀ r ∈ records, r.WellFormed)
    (hReferences : ∀ r ∈ records, ∀ f ∈ r.fields,
      ∀ n ∈ f.shape.references, Printable n) :
    IsSpaced (plain (recordsLines records)) := by
  have hClasses : IsSpaced (plain (records.flatMap fun r =>
      "" :: "" :: recordLines r)) := by
    rw [plain, List.map_flatMap, List.flatMap]
    apply isSpaced_flatten
    intro block hBlock
    rcases List.mem_map.1 hBlock with ⟨r, hr, rfl⟩
    refine isSpaced_block 2 (by decide) (List.cons_ne_nil _ _)
      fun line hLine => ?_
    rw [← List.map_cons] at hLine
    rcases List.mem_map.1 hLine with ⟨s, hs, rfl⟩
    exact isFull_of_mem_recordLines (hRecords r hr)
      (hReferences r hr) hs
  have hRebuild : IsSpaced (plain (if records.isEmpty then []
      else "" :: "" :: records.map rebuildLine)) := by
    split
    next => exact isSpaced_nil
    next hSome =>
      have hLines : plain (records.map rebuildLine) ≠ [] := by
        simpa [plain] using hSome
      refine isSpaced_block 2 (by decide) hLines ?_
      intro line hLine
      rcases List.mem_map.1 hLine with ⟨s, hs, rfl⟩
      rcases List.mem_map.1 hs with ⟨r, hr, rfl⟩
      exact ⟨isUnbroken_of_printable
          ((printable_of_isPascal (hRecords r hr).name).append
            (by decide)),
        endsShown_append (by decide) _⟩
  rw [recordsLines, plain_append]
  exact hClasses.append hRebuild

/- Formatting leaves a unit of well-formed records as it is. -/
theorem staysAsIs_models
    (hRecords : ∀ r ∈ records, r.WellFormed)
    (hReferences : ∀ r ∈ records, ∀ f ∈ r.fields,
      ∀ n ∈ f.shape.references, Printable n)
    (title version : RawText) :
    StaysAsIs (models records title version) := by
  have hLines := (isSpaced_modelsPreamble title version).append
    (isSpaced_recordsLines hRecords hReferences)
  exact hLines.staysAsIs isFull_header

end Emit

end TypedClient
