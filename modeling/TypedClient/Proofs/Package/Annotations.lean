import TypedClient.Proofs.Package.Links
import TypedClient.Proofs.Shape.Annotation
import TypedClient.Sample.Report

/-
  This file shows that what a generation writes down of a shape
  tells which shape it is: the annotation of a field, which may
  be absent, and the end of the line that reports a sample.

  Key definitions include:
    * `Generation.inferred`
    * `Generation.TellsApart`

  Key theorems include:
    * `Emit.fieldType_injOn`
    * `Report.shape_eq_of_line?`
    * `Generation.tellsApart_run`
    * `Generation.annotations_tell_shapes`
-/

namespace TypedClient

open Shape (IsNamed isAnnotationChar)

------------------------------------------------------------
-- Annotations of fields
------------------------------------------------------------

/- The types of fields tell named shapes apart. -/
theorem Emit.fieldType_injOn :
    Set.InjOn Emit.fieldType {s | s.IsNamed} := by
  have hBar : '|' ∈ " | None".toList := by
    decide
  -- only the type of a known shape has a bar in it
  have hAny {s : Shape} : Shape.untyped.render ≠
      s.render ++ " | None" := by
    intro h
    have hMem : '|' ∈ (s.render ++ " | None").toList := by
      rw [String.toList_append]
      exact List.mem_append_right _ hBar
    rw [← h] at hMem
    exact absurd hMem (by decide)
  intro s hs t ht h
  simp only [Emit.fieldType] at h
  split at h
  next hLeft =>
    split at h
    next hRight => exact hLeft.trans hRight.symm
    next => exact (hAny (hLeft ▸ h)).elim
  next =>
    split at h
    next hRight => exact (hAny (hRight ▸ h.symm)).elim
    next =>
      apply Shape.injOn_render hs ht
      apply String.toList_injective
      rw [← String.toList_inj, String.toList_append,
        String.toList_append] at h
      exact List.append_cancel_right h

------------------------------------------------------------
-- Lines of reports
------------------------------------------------------------

namespace Report

/- Whether a code point may stand behind the arrow of a line. -/
def isBehindArrow (p : CodePoint) : Bool :=
  p.isChar isAnnotationChar

/- What stands behind the arrow of the line of a shape. -/
def behindArrow (s : Shape) : RawText :=
  RawText.ofString (" " ++ s.render)

theorem forall_mem_behindArrow
    {s : Shape}
    (h : s.IsNamed) :
    ∀ p ∈ behindArrow s, isBehindArrow p = true := by
  intro p hp
  rcases RawText.mem_ofString.1 hp with ⟨c, hc, rfl⟩
  rw [String.toList_append] at hc
  rcases List.mem_append.1 hc with hBlank | hc
  · rw [List.mem_singleton.1 hBlank]
    decide
  · exact Shape.forall_mem_render h c hc

/- What stands behind the arrow of a line is read from its end. -/
theorem render_eq_of_arrow
    {u v : RawText}
    {s t : Shape}
    (hs : s.IsNamed)
    (ht : t.IsNamed)
    (h : u ++ RawText.ofString ("  -> " ++ s.render) =
      v ++ RawText.ofString ("  -> " ++ t.render)) :
    s.render = t.render := by
  have hSplit : "  -> " = "  ->" ++ " " := by decide
  have hArrow (w : RawText) (shape : Shape) :
      (w ++ RawText.ofString ("  -> " ++ shape.render)).reverse =
        (behindArrow shape).reverse ++
          ((RawText.ofString "  ->").reverse ++ w.reverse) := by
    rw [behindArrow, hSplit, String.append_assoc,
      RawText.ofString_append, List.reverse_append,
      List.reverse_append, List.append_assoc]
  have hBehind {shape : Shape} (hShape : shape.IsNamed) :
      ∀ p ∈ (behindArrow shape).reverse, isBehindArrow p = true :=
    fun p hp => forall_mem_behindArrow hShape p
      (List.mem_reverse.1 hp)
  have hStop (w : RawText) : ∀ p,
      ((RawText.ofString "  ->").reverse ++ w).head? = some p →
        isBehindArrow p = false := by
    rintro p ⟨⟩
    decide
  have hReverse := congrArg List.reverse h
  rw [hArrow, hArrow] at hReverse
  have hSame := (Shape.append_inj_of_forall (hBehind hs)
    (hBehind ht) (hStop _) (hStop _) hReverse).1
  have hTexts := RawText.ofString_injective
    (List.reverse_injective hSame)
  rw [← String.toList_inj, String.toList_append,
    String.toList_append] at hTexts
  exact String.toList_injective (List.append_cancel_left hTexts)

/- The line of a sample with a shape tells the shape. -/
theorem shape_eq_of_line?
    {a b : Sample}
    (ha : ∀ s, a.shape = some s → s.IsNamed)
    (hb : ∀ s, b.shape = some s → s.IsNamed)
    (hFirst : a.isOk = true)
    (hSecond : b.isOk = true)
    (h : line? a = line? b) :
    a.shape = b.shape := by
  have hOk {c : Sample} (hc : c.isOk = true) : line? c =
      c.shape.map fun shape =>
        pathColumn c.endpoint.path ++
            RawText.ofString (columns c) ++
          RawText.ofString ("  -> " ++ shape.render) := by
    rw [line?, ending?, of_decide_eq_true hc,
      Option.map_map]
    refine congrArg (Option.map · c.shape) (funext fun shape => ?_)
    rw [Function.comp_apply, RawText.ofString_append,
      List.append_assoc]
  rw [hOk hFirst, hOk hSecond] at h
  cases hLeft : a.shape with
  | none =>
      cases hRight : b.shape with
      | none => rfl
      | some t => simp [hLeft, hRight] at h
  | some s =>
      cases hRight : b.shape with
      | none => simp [hLeft, hRight] at h
      | some t =>
          rw [hLeft, hRight] at h
          have hRender := render_eq_of_arrow (ha s hLeft)
            (hb t hRight) (Option.some.inj h)
          exact congrArg some (Shape.injOn_render (ha s hLeft)
            (hb t hRight) hRender)

end Report

------------------------------------------------------------
-- Generations
------------------------------------------------------------

namespace Generation

/-
  The shapes that a generation infers: those of responses, and
  those of the fields of records.
-/
def inferred (g : Generation) : List Shape :=
  g.units.shapes.map Prod.snd ++
    g.sampling.table.records.flatMap fun r =>
      r.fields.map Shape.Field.shape

/-
  Two generations that tell shapes apart by what they write.

    * `named`: the shapes inferred are named ones
    * `annotations`: fields annotated alike have the same shape
    * `lines`: samples reported alike have the same shape
-/
structure TellsApart (g h : Generation) : Prop where
  named : ∀ s ∈ g.inferred, s.IsNamed
  annotations : ∀ s ∈ g.inferred, ∀ t ∈ h.inferred,
    Emit.fieldType s = Emit.fieldType t → s = t
  lines : ∀ a ∈ g.sampling.samples, ∀ b ∈ h.sampling.samples,
    a.isOk = true → b.isOk = true →
      Report.line? a = Report.line? b → a.shape = b.shape

variable {schema : Schema}
variable {site : Option Site}

theorem isNamed_of_mem_shapes_run
    {k : RawText}
    {s : Shape}
    (h : (k, s) ∈ (run schema site).units.shapes) :
    s.IsNamed :=
  Shape.isNamed_of_forall
    (reachable_table_run schema site).wellFormed
    fun _ hn => references_subset_names_run h hn

theorem isNamed_of_mem_inferred_run
    {s : Shape}
    (h : s ∈ (run schema site).inferred) : s.IsNamed := by
  rcases List.mem_append.1 h with hShape | hField
  · rcases List.mem_map.1 hShape with ⟨⟨k, shape⟩, hMem, rfl⟩
    exact isNamed_of_mem_shapes_run hMem
  · rcases List.mem_flatMap.1 hField with ⟨r, hr, hMem⟩
    rcases List.mem_map.1 hMem with ⟨f, hf, rfl⟩
    exact (reachable_table_run schema site).isNamed hr hf

/- A sample that is fine has the shape of a response. -/
theorem isNamed_of_mem_samples_run
    {a : Sample}
    (hMem : a ∈ (run schema site).sampling.samples)
    (hOk : a.isOk = true)
    {s : Shape}
    (h : a.shape = some s) : s.IsNamed := by
  apply isNamed_of_mem_shapes_run (k := a.endpoint.key)
  refine List.mem_filterMap.2 ⟨a, hMem, ?_⟩
  rw [if_pos hOk, h]
  rfl

/- Generations tell the shapes that they infer apart. -/
theorem tellsApart_run
    (schema other : Schema)
    (site otherSite : Option Site) :
    TellsApart (run schema site) (run other otherSite) where
  named _ h := isNamed_of_mem_inferred_run h
  annotations _ hs _ ht h :=
    Emit.fieldType_injOn (isNamed_of_mem_inferred_run hs)
      (isNamed_of_mem_inferred_run ht) h
  lines _ ha _ hb hFirst hSecond h :=
    Report.shape_eq_of_line?
      (fun _ => isNamed_of_mem_samples_run ha hFirst)
      (fun _ => isNamed_of_mem_samples_run hb hSecond)
      hFirst hSecond h

/-
  Annotations tell apart all shapes whose records have identifiers
  for names that are none of the words for scalars.  Whatever is
  inferred below the name of a response has such a shape, so the
  units and reports of generations tell what was inferred.
-/
theorem annotations_tell_shapes :
    Set.InjOn Shape.render {s | s.IsNamed} ∧
      (∀ budget name value table s, value.WellFormed →
        Name.IsPascal name → Shape.IsOfResponse name →
          (Shape.infer budget name value table).result = some s →
            s.IsNamed) ∧
      ∀ schema site other otherSite,
        TellsApart (run schema site) (run other otherSite) :=
  ⟨Shape.injOn_render,
    fun _ _ _ _ _ hValue hName hResponse h =>
      Shape.isNamed_of_infer hValue hName hResponse h,
    fun schema site other otherSite =>
      tellsApart_run schema other site otherSite⟩

/- A nested annotation is that of one shape only. -/
theorem annotations_tell_shapes_nested :
    Shape.IsRecordName "TagResponse" ∧
      ∀ s : Shape, s.IsNamed →
        s.render = "dict[str, list[TagResponse]]" →
          s = .map (.list (.record "TagResponse")) := by
  have hName : Shape.IsRecordName "TagResponse" :=
    ⟨⟨⟨Or.inl (by decide), List.all_eq_true.1 (by decide)⟩⟩,
      by decide⟩
  have hNested :
      (Shape.map (.list (.record "TagResponse"))).IsNamed :=
    List.forall_mem_singleton.2 hName
  exact ⟨hName, fun s hs h =>
    annotations_tell_shapes.1 hs hNested (h.trans rfl)⟩

end Generation

end TypedClient
