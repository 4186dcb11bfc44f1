import TypedClient.Emit.PathExpression
import TypedClient.Proofs.Endpoint.Slots
import TypedClient.Proofs.Json.Literal

/-
  This file says what comes of the expression that builds a path:
  its literal is decoded, and the empty slots of the template are
  filled with values.  What comes of it is the path with its first
  slots replaced by the values, in order, and nothing else
  changed.

  Key definitions include:
    * `Emit.fill`
    * `Emit.replaced`
    * `Emit.Builds`

  Key theorems include:
    * `Emit.fill_doubleBraces`
    * `Emit.fill_template`
    * `Emit.isWhole_ofPieces`
    * `Emit.path_built`
-/

namespace TypedClient

namespace Emit

------------------------------------------------------------
-- Filling templates
------------------------------------------------------------

/-
  A template with its empty slots filled with values from left to
  right, where a brace that is written twice stands for itself.
  There is no result if a brace stands alone, if a slot is not
  empty, or if there are too few values; values that are left over
  are not used.
-/
def fill : RawText → List RawText → Option RawText
  | [], _ => some []
  | .scalar '{' :: .scalar '{' :: t, vs =>
      (fill t vs).map (.scalar '{' :: ·)
  | .scalar '}' :: .scalar '}' :: t, vs =>
      (fill t vs).map (.scalar '}' :: ·)
  | .scalar '{' :: .scalar '}' :: t, v :: vs =>
      (fill t vs).map (v ++ ·)
  | p :: t, vs =>
      if p = '{' ∨ p = '}' then none
      else (fill t vs).map (p :: ·)

/- A code point of a template is filled in as itself. -/
theorem fill_templatePoint
    (p : CodePoint)
    (t : RawText)
    (vs : List RawText) :
    fill (templatePoint p ++ t) vs = (fill t vs).map (p :: ·) := by
  by_cases hOpen : p = .scalar '{'
  · rw [hOpen]
    exact fill.eq_2 vs t
  by_cases hClose : p = .scalar '}'
  · rw [hClose]
    exact fill.eq_3 vs t
  have hNot : ¬ (p = .scalar '{' ∨ p = .scalar '}') :=
    not_or.2 ⟨hOpen, hClose⟩
  rw [templatePoint, if_neg hNot, List.singleton_append, fill]
  · exact if_neg hNot
  · exact fun _ h _ => hOpen h
  · exact fun _ h _ => hClose h
  · exact fun _ _ _ _ h _ => hOpen h

/- Literal text of a template is filled in as itself. -/
theorem fill_doubleBraces
    (s t : RawText)
    (vs : List RawText) :
    fill (doubleBraces s ++ t) vs = (fill t vs).map (s ++ ·) := by
  induction s with
  | nil =>
      change fill t vs = (fill t vs).map id
      rw [Option.map_id_fun, id]
  | cons p ps ih =>
      unfold doubleBraces at ih ⊢
      rw [List.flatMap_cons, List.append_assoc,
        fill_templatePoint, ih, Option.map_map]
      rfl

theorem fill_emptySlot
    (t v : RawText)
    (vs : List RawText) :
    fill (emptySlot ++ t) (v :: vs) = (fill t vs).map (v ++ ·) :=
  fill.eq_4 t v vs

------------------------------------------------------------
-- Templates of paths
------------------------------------------------------------

/- A divided path with values in place of its first slots. -/
def replaced (last : RawText) :
    List RawText → List (RawText × RawText) → RawText
  | _, [] => last
  | [], p :: ps => p.1 ++ (p.2 ++ replaced last [] ps)
  | v :: vs, p :: ps => p.1 ++ (v ++ replaced last vs ps)

/- There is a slot for each value that finds its place. -/
theorem slots_ofPieces
    (last : RawText)
    (parts : List (RawText × RawText))
    (limit : Nat) :
    (Template.ofPieces limit (Path.piecesOf last parts)).slots =
      min parts.length limit := by
  induction parts generalizing limit with
  | nil => simp [Path.piecesOf, Template.ofPieces]
  | cons p ps ih =>
      cases limit with
      | zero =>
          simp [Path.piecesOf, Template.ofPieces, ih 0]
      | succ k =>
          simp only [Path.piecesOf, Template.ofPieces, ih k,
            List.length_cons]
          omega

/-
  A template filled with as many values as it has slots is the
  path with these values.
-/
theorem fill_template
    (last : RawText)
    (parts : List (RawText × RawText))
    (values : List RawText) :
    fill (Template.ofPieces values.length
        (Path.piecesOf last parts)).text
        (values.take (min parts.length values.length)) =
      some (replaced last values parts) := by
  induction parts generalizing values with
  | nil =>
      have hLast := fill_doubleBraces last [] []
      rw [List.append_nil] at hLast
      simp [Path.piecesOf, Template.ofPieces, replaced, hLast, fill]
  | cons p ps ih =>
      cases values with
      | nil =>
          have hRest := ih []
          simp only [List.length_nil, Nat.min_zero, List.take_zero]
            at hRest ⊢
          simp only [Path.piecesOf, Template.ofPieces,
            fill_doubleBraces, hRest, Option.map_some, replaced]
      | cons v vs =>
          have hCount : min (ps.length + 1) (vs.length + 1) =
              min ps.length vs.length + 1 := by
            omega
          simp only [List.length_cons, hCount, List.take_succ_cons,
            Path.piecesOf, Template.ofPieces, fill_doubleBraces,
            fill_emptySlot, ih vs, Option.map_some, replaced]

------------------------------------------------------------
-- Whole templates
------------------------------------------------------------

/- Braces may be doubled behind any text. -/
theorem isWhole_append_doubleBraces
    {s t : RawText}
    (h : (s ++ t).IsWhole) : (s ++ doubleBraces t).IsWhole := by
  induction t generalizing s with
  | nil => exact h
  | cons p ps ih =>
      rw [doubleBraces, List.flatMap_cons, ← doubleBraces]
      by_cases hBrace : p = .scalar '{' ∨ p = .scalar '}'
      · have hChar : ∃ c, p = .scalar c :=
          hBrace.elim (fun hp => ⟨_, hp⟩) fun hp => ⟨_, hp⟩
        rcases hChar with ⟨c, rfl⟩
        rw [RawText.isWhole_split] at h
        have hRest := ih (s := []) h.2
        rw [templatePoint, if_pos hBrace]
        exact RawText.isWhole_split.2 ⟨h.1,
          (RawText.isWhole_split (s := [])).2
            ⟨RawText.isWhole_nil, hRest⟩⟩
      · rw [templatePoint, if_neg hBrace, ← List.append_assoc]
        apply ih
        rwa [List.append_assoc, List.singleton_append]

theorem isWhole_doubleBraces
    {t : RawText}
    (h : t.IsWhole) : (doubleBraces t).IsWhole :=
  isWhole_append_doubleBraces (s := []) h

theorem exists_slot_ends
    {slot : RawText}
    (h : Path.IsSlot slot) :
    ∃ (a b : Char) (inside : RawText),
      slot = .scalar a :: (inside ++ [.scalar b]) := by
  cases h with
  | placeholder hNonempty hWord => exact ⟨_, _, _, rfl⟩
  | group hLine => exact ⟨_, _, _, rfl⟩

/- A slot that stays keeps what is behind it from what is not. -/
theorem isWhole_doubleBraces_append
    {t other : RawText}
    {b : Char}
    (h : RawText.IsWhole (t ++ [.scalar b]))
    (hOther : other.IsWhole) :
    RawText.IsWhole
      (doubleBraces (t ++ [.scalar b]) ++ other) := by
  have hLast : ∃ front,
      doubleBraces (t ++ [.scalar b]) = front ++ [.scalar b] := by
    rw [doubleBraces, List.flatMap_append, List.flatMap_singleton,
      templatePoint]
    split
    · exact ⟨t.flatMap templatePoint ++ [.scalar b], by simp⟩
    · exact ⟨t.flatMap templatePoint, rfl⟩
  have hWhole := isWhole_doubleBraces h
  rcases hLast with ⟨front, hFront⟩
  rw [hFront] at hWhole ⊢
  rw [List.append_assoc, List.singleton_append]
  exact RawText.isWhole_split.2
    ⟨(RawText.isWhole_split.1 hWhole).1, hOther⟩

/-
  The template of a whole path is whole.  The induction is on the
  slots; each of them keeps what is in front of it from what is
  behind it, as does an empty one.
-/
theorem isWhole_ofPieces
    {last : RawText}
    {parts : List (RawText × RawText)}
    (hSlots : ∀ p ∈ parts, Path.IsSlot p.2)
    (h : RawText.IsWhole
      (parts.flatMap (fun p => p.1 ++ p.2) ++ last))
    (limit : Nat) :
    (Template.ofPieces limit
      (Path.piecesOf last parts)).text.IsWhole := by
  induction parts generalizing limit with
  | nil =>
      have hLast := isWhole_doubleBraces h
      simpa [Path.piecesOf, Template.ofPieces] using hLast
  | cons p ps ih =>
      rcases p with ⟨front, slot⟩
      rcases exists_slot_ends (hSlots _ List.mem_cons_self) with
        ⟨a, b, inside, rfl⟩
      simp only [List.flatMap_cons, List.append_assoc,
        List.cons_append, List.nil_append,
        RawText.isWhole_split] at h
      rcases h with ⟨hFront, hInside, hRest⟩
      have hOthers := ih
        (fun q hq => hSlots q (List.mem_cons_of_mem _ hq)) hRest
      cases limit with
      | zero =>
          have hStart : RawText.IsWhole
              ((front ++ .scalar a :: inside) ++ [.scalar b]) := by
            rw [List.append_assoc, List.cons_append,
              RawText.isWhole_split]
            exact ⟨hFront, RawText.isWhole_split.2
              ⟨hInside, RawText.isWhole_nil⟩⟩
          have hWhole :=
            isWhole_doubleBraces_append hStart (hOthers 0)
          simpa [Path.piecesOf, Template.ofPieces, doubleBraces]
            using hWhole
      | succ k =>
          simp only [Path.piecesOf, Template.ofPieces, emptySlot,
            List.cons_append, List.nil_append]
          rw [RawText.isWhole_split]
          exact ⟨isWhole_doubleBraces hFront,
            (RawText.isWhole_split (s := [])).2
              ⟨RawText.isWhole_nil, hOthers k⟩⟩

------------------------------------------------------------
-- The expression of a path
------------------------------------------------------------

/-
  What the expression of a path is and what it builds.  The path
  is divided at its slots; without a slot or an argument it is a
  literal, else a literal and a call with the arguments that are
  used, which fills the template with their values.  A reader of
  JSON decodes these literals, but joins the halves of a surrogate
  pair if they meet in the path.
-/
structure Builds
    (path : RawText)
    (arguments : List (String × RawText))
    (parts : List (RawText × RawText))
    (last : RawText) : Prop where
  literal : min parts.length arguments.length = 0 →
    pathExpression path (arguments.map Prod.fst) =
        rawLiteral path ∧
      (path.IsWhole →
        Json.decode (rawLiteral path) = .ok (.string path))
  template : 0 < min parts.length arguments.length →
    ∃ template,
      pathExpression path (arguments.map Prod.fst) =
        rawLiteral template ++ ".format(" ++
          commaList ((arguments.map Prod.fst).take
            (min parts.length arguments.length)) ++ ")" ∧
      (path.IsWhole →
        Json.decode (rawLiteral template) =
          .ok (.string template)) ∧
      fill template ((arguments.map Prod.snd).take
          (min parts.length arguments.length)) =
        some (replaced last (arguments.map Prod.snd) parts)

/-
  For every path, and all arguments with their values: the path is
  divided at its slots in exactly one way, and its expression
  builds it with the values in place of the first slots.  No
  halves meet in a path that is a string.
-/
theorem path_built
    (path : RawText)
    (arguments : List (String × RawText)) :
    (∀ s : String, path = s → path.IsWhole) ∧
      ∃ parts last, Path.Divided path parts last ∧
        (∀ parts' last', Path.Divided path parts' last' →
          parts' = parts ∧ last' = last) ∧
        Builds path arguments parts last := by
  refine ⟨fun s hPath => hPath ▸ RawText.isWhole_ofChars _, ?_⟩
  rcases Path.exists_divided path with
    ⟨parts, last, hDivided, hPieces⟩
  refine ⟨parts, last, hDivided,
    fun _ _ hOther => hOther.unique hDivided, ?_, ?_⟩
  · intro hCount
    refine ⟨?_, Json.decode_rawLiteral⟩
    have hSlots : (Template.ofPath path
        (arguments.map Prod.fst).length).slots = 0 := by
      rw [Template.ofPath, hPieces, slots_ofPieces,
        List.length_map, hCount]
    rw [pathExpression]
    exact if_pos hSlots
  · intro hCount
    have hSlots : (Template.ofPath path
        (arguments.map Prod.fst).length).slots =
          min parts.length arguments.length := by
      rw [Template.ofPath, hPieces, slots_ofPieces,
        List.length_map]
    refine ⟨(Template.ofPath path
      (arguments.map Prod.fst).length).text, ?_, ?_, ?_⟩
    · rw [pathExpression, hSlots, if_neg (Nat.ne_of_gt hCount)]
    · intro hWhole
      rw [hDivided.text] at hWhole
      rw [Template.ofPath, hPieces]
      exact Json.decode_rawLiteral
        (isWhole_ofPieces hDivided.isSlot hWhole _)
    · have hFill := fill_template last parts
        (arguments.map Prod.snd)
      simp only [List.length_map] at hFill
      rw [Template.ofPath, hPieces, List.length_map]
      exact hFill

end Emit

end TypedClient
